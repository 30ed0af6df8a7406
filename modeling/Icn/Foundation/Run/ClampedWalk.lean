import Icn.Foundation.Run.Sequential
import Mathlib.Algebra.Order.Group.Defs
import Mathlib.Data.List.Basic

/-!
# Sums that are clamped on the way

A walk adds one number after the other and clamps the sum to an interval after each of
them. Where it ends depends on the order: a step that is cut off at one bound is missing
from then on, until as much is cut off at the other bound. So the walk ends at a plain total
exactly when every total below the interval is followed by one at or above its upper bound,
and every total above it by one at or below its lower bound (`walk_eq_add_sum_iff`).
-/

namespace Foundation

namespace Run

variable {α : Type*}

/-- Every entry with the one property comes before an entry with the other. -/
def EachFollowedBy (p q : α → Prop) (l : List α) : Prop :=
  ∀ front x back, l = front ++ x :: back → p x → ∃ y ∈ back, q y

variable {p q : α → Prop} {l : List α} {x : α}

theorem eachFollowedBy_nil : EachFollowedBy p q [] := by
  rintro (_ | _) x back h <;> cases h

theorem eachFollowedBy_cons_iff :
    EachFollowedBy p q (x :: l) ↔ (p x → ∃ y ∈ l, q y) ∧ EachFollowedBy p q l := by
  constructor
  · intro h
    refine ⟨h [] x l rfl, fun front y back hl => ?_⟩
    exact h (x :: front) y back (congrArg (x :: ·) hl)
  · rintro ⟨hx, hl⟩ (_ | ⟨z, front⟩) y back h
    · cases h
      exact hx
    · exact hl front y back (List.cons.inj h).2

/-- The first of two entries may go, with what is known of it: it has the first property
only under `b`, and then not the second; `b` passes on to `b'` unless the next entry has the
second property, and `b'` comes from `b` or from the first property of that entry. -/
theorem eachFollowedBy_cons_cons_iff {b b' : Prop} {v : α} (hfirst : p v → b)
    (hnot : b → ¬ q v) (hon : b → b' ∨ q x) (hback : b' → b ∨ p x) :
    (EachFollowedBy p q (v :: x :: l) ∧ (b → ∃ y ∈ v :: x :: l, q y)) ↔
      EachFollowedBy p q (x :: l) ∧ (b' → ∃ y ∈ x :: l, q y) := by
  have htail : (b → ∃ y ∈ v :: x :: l, q y) ↔ (b → ∃ y ∈ x :: l, q y) := by
    refine forall_congr' fun hb => ?_
    rw [List.exists_mem_cons_iff, or_iff_right (hnot hb)]
  rw [eachFollowedBy_cons_iff (x := v), htail]
  constructor
  · rintro ⟨⟨_, hl⟩, hb⟩
    refine ⟨hl, fun hb' => ?_⟩
    rcases hback hb' with h | h
    · exact hb h
    · obtain ⟨y, hy, hqy⟩ := (eachFollowedBy_cons_iff.mp hl).1 h
      exact ⟨y, List.mem_cons_of_mem x hy, hqy⟩
  · rintro ⟨hl, hb'⟩
    have hb (h : b) : ∃ y ∈ x :: l, q y := by
      rcases hon h with h' | hq
      · exact hb' h'
      · exact ⟨x, List.mem_cons_self, hq⟩
    exact ⟨⟨fun hp => hb (hfirst hp), hl⟩, hb⟩

section Clamp

variable [LinearOrder α] {lo hi h : α}

def clamp (lo hi x : α) : α := max lo (min x hi)

theorem le_clamp : lo ≤ clamp lo hi h := le_max_left ..

theorem clamp_le (hlohi : lo ≤ hi) : clamp lo hi h ≤ hi := max_le hlohi (min_le_right ..)

theorem eq_of_lt_clamp (hlt : h < clamp lo hi h) : h < lo ∧ clamp lo hi h = lo := by
  have hlo : h < lo := by
    by_contra hle
    have hclamp : clamp lo hi h ≤ h := max_le (not_lt.mp hle) (min_le_left ..)
    exact absurd hlt hclamp.not_gt
  exact ⟨hlo, max_eq_left ((min_le_left ..).trans hlo.le)⟩

theorem eq_of_clamp_lt (hlohi : lo ≤ hi) (hlt : clamp lo hi h < h) :
    hi < h ∧ clamp lo hi h = hi := by
  have hhi : hi < h := by
    by_contra hle
    rw [clamp, min_eq_left (not_lt.mp hle)] at hlt
    exact absurd (le_max_right lo h) hlt.not_ge
  exact ⟨hhi, by rw [clamp, min_eq_right hhi.le, max_eq_right hlohi]⟩

end Clamp

section Totals

variable [AddMonoid α] {v d : α} {ds : List α}

/-- The sums from `v` on. -/
def totals (v : α) (ds : List α) : List α := ds.scanl (· + ·) v

theorem totals_nil : totals v ([] : List α) = [v] := List.scanl_nil

theorem totals_cons : totals v (d :: ds) = v :: totals (v + d) ds := List.scanl_cons

theorem exists_totals_eq_cons (v : α) (ds : List α) : ∃ l, totals v ds = v :: l := by
  cases ds with
  | nil => exact ⟨[], totals_nil⟩
  | cons d ds => exact ⟨totals (v + d) ds, totals_cons⟩

theorem add_sum_mem_totals (v : α) (ds : List α) : v + ds.sum ∈ totals v ds := by
  induction ds generalizing v with
  | nil => simp [totals_nil]
  | cons d ds ih =>
      rw [totals_cons, List.sum_cons, ← add_assoc]
      exact List.mem_cons_of_mem v (ih (v + d))

end Totals

variable [AddCommGroup α] [LinearOrder α]

/-- The sum from `h` on, clamped after every step. -/
def walk (lo hi h : α) (ds : List α) : α := run (fun h d => clamp lo hi (h + d)) h ds

/-- A walk at `h` that stands for the total `v` comes back to the totals. -/
structure Settles (lo hi h v : α) (ds : List α) : Prop where
  below : EachFollowedBy (· < lo) (hi ≤ ·) (totals v ds)
  above : EachFollowedBy (hi < ·) (· ≤ lo) (totals v ds)
  ahead : v < h → ∃ x ∈ totals v ds, hi ≤ x
  behind : h < v → ∃ x ∈ totals v ds, x ≤ lo

variable {lo hi h v d : α} {ds : List α} [IsOrderedAddMonoid α]

/-- What a walk is ahead of its total after a step it was before it, or the step left the
interval at its lower bound. -/
theorem below_ahead_cons_iff (hlo : lo ≤ h) (hhi : h ≤ hi) :
    (EachFollowedBy (· < lo) (hi ≤ ·) (totals v (d :: ds)) ∧
        (v < h → ∃ x ∈ totals v (d :: ds), hi ≤ x)) ↔
      EachFollowedBy (· < lo) (hi ≤ ·) (totals (v + d) ds) ∧
        (v + d < clamp lo hi (h + d) → ∃ x ∈ totals (v + d) ds, hi ≤ x) := by
  obtain ⟨l, hl⟩ := exists_totals_eq_cons (v + d) ds
  rw [totals_cons, hl]
  refine eachFollowedBy_cons_cons_iff (fun hv => hv.trans_le hlo)
    (fun hv => (hv.trans_le hhi).not_ge) (fun hv => ?_) (fun hclamp => ?_)
  · by_cases hcut : clamp lo hi (h + d) < h + d
    · obtain ⟨_, hclamp⟩ := eq_of_clamp_lt (hlo.trans hhi) hcut
      rw [hclamp]
      exact lt_or_ge (v + d) hi
    · exact .inl ((add_lt_add_left hv d).trans_le (not_lt.mp hcut))
  · by_cases hcut : h + d < clamp lo hi (h + d)
    · obtain ⟨_, hlo'⟩ := eq_of_lt_clamp hcut
      rw [hlo'] at hclamp
      exact .inr hclamp
    · exact .inl (lt_of_add_lt_add_right (hclamp.trans_le (not_lt.mp hcut)))

/-- What a walk is behind its total after a step it was before it, or the step left the
interval at its upper bound. -/
theorem above_behind_cons_iff (hlo : lo ≤ h) (hhi : h ≤ hi) :
    (EachFollowedBy (hi < ·) (· ≤ lo) (totals v (d :: ds)) ∧
        (h < v → ∃ x ∈ totals v (d :: ds), x ≤ lo)) ↔
      EachFollowedBy (hi < ·) (· ≤ lo) (totals (v + d) ds) ∧
        (clamp lo hi (h + d) < v + d → ∃ x ∈ totals (v + d) ds, x ≤ lo) := by
  obtain ⟨l, hl⟩ := exists_totals_eq_cons (v + d) ds
  rw [totals_cons, hl]
  refine eachFollowedBy_cons_cons_iff (fun hv => hhi.trans_lt hv)
    (fun hv => (hlo.trans_lt hv).not_ge) (fun hv => ?_) (fun hclamp => ?_)
  · by_cases hcut : h + d < clamp lo hi (h + d)
    · obtain ⟨_, hclamp⟩ := eq_of_lt_clamp hcut
      rw [hclamp]
      exact lt_or_ge lo (v + d)
    · exact .inl ((not_lt.mp hcut).trans_lt (add_lt_add_left hv d))
  · by_cases hcut : clamp lo hi (h + d) < h + d
    · obtain ⟨_, hhi'⟩ := eq_of_clamp_lt (hlo.trans hhi) hcut
      rw [hhi'] at hclamp
      exact .inr hclamp
    · exact .inl (lt_of_add_lt_add_right ((not_lt.mp hcut).trans_lt hclamp))

theorem settles_cons_iff (hlo : lo ≤ h) (hhi : h ≤ hi) :
    Settles lo hi h v (d :: ds) ↔ Settles lo hi (clamp lo hi (h + d)) (v + d) ds := by
  constructor
  · rintro ⟨hbelow, habove, hahead, hbehind⟩
    obtain ⟨hbelow, hahead⟩ := (below_ahead_cons_iff hlo hhi).mp ⟨hbelow, hahead⟩
    obtain ⟨habove, hbehind⟩ := (above_behind_cons_iff hlo hhi).mp ⟨habove, hbehind⟩
    exact ⟨hbelow, habove, hahead, hbehind⟩
  · rintro ⟨hbelow, habove, hahead, hbehind⟩
    obtain ⟨hbelow, hahead⟩ := (below_ahead_cons_iff hlo hhi).mpr ⟨hbelow, hahead⟩
    obtain ⟨habove, hbehind⟩ := (above_behind_cons_iff hlo hhi).mpr ⟨habove, hbehind⟩
    exact ⟨hbelow, habove, hahead, hbehind⟩

/-- A walk ends at a total in its interval exactly when it settles. -/
theorem walk_eq_add_sum_iff (hlo : lo ≤ h) (hhi : h ≤ hi) (hlo' : lo ≤ v + ds.sum)
    (hhi' : v + ds.sum ≤ hi) : walk lo hi h ds = v + ds.sum ↔ Settles lo hi h v ds := by
  induction ds generalizing h v with
  | nil =>
      rw [List.sum_nil, add_zero] at hlo' hhi' ⊢
      constructor
      · rintro rfl
        refine ⟨?_, ?_, fun hv => absurd hv (lt_irrefl _), fun hv => absurd hv (lt_irrefl _)⟩
        · exact eachFollowedBy_cons_iff.mpr ⟨fun hv => absurd hv hlo'.not_gt, eachFollowedBy_nil⟩
        · exact eachFollowedBy_cons_iff.mpr ⟨fun hv => absurd hv hhi'.not_gt, eachFollowedBy_nil⟩
      · intro hs
        refine le_antisymm (not_lt.mp fun hv => ?_) (not_lt.mp fun hv => ?_)
        · obtain ⟨x, hx, hhx⟩ := hs.ahead hv
          rw [totals_nil, List.mem_singleton] at hx
          exact absurd (hhi.trans (hx ▸ hhx)) hv.not_ge
        · obtain ⟨x, hx, hxl⟩ := hs.behind hv
          rw [totals_nil, List.mem_singleton] at hx
          exact absurd ((hx ▸ hxl).trans hlo) hv.not_ge
  | cons d ds ih =>
      rw [List.sum_cons, ← add_assoc] at hlo' hhi' ⊢
      rw [settles_cons_iff hlo hhi, ← ih le_clamp (clamp_le (hlo.trans hhi)) hlo' hhi']
      rfl

/-- A walk ends at the clamped total exactly when the totals, less what is clamped off,
have everything below the interval made up for above it and the other way round. -/
theorem walk_eq_clamp_iff (hlo : lo ≤ h) (hhi : h ≤ hi) :
    walk lo hi h ds = clamp lo hi (h + ds.sum) ↔
      EachFollowedBy (· < lo) (hi ≤ ·) (totals (clamp lo hi (h + ds.sum) - ds.sum) ds) ∧
        EachFollowedBy (hi < ·) (· ≤ lo) (totals (clamp lo hi (h + ds.sum) - ds.sum) ds) := by
  have hlohi := hlo.trans hhi
  generalize hv : clamp lo hi (h + ds.sum) - ds.sum = v
  have hend : clamp lo hi (h + ds.sum) = v + ds.sum := sub_eq_iff_eq_add.mp hv
  have hmem := add_sum_mem_totals v ds
  rw [hend, walk_eq_add_sum_iff hlo hhi (hend ▸ le_clamp) (hend ▸ clamp_le hlohi)]
  -- a walk that starts off its total has something clamped off at the end
  refine ⟨fun hs => ⟨hs.below, hs.above⟩, fun hs => ⟨hs.1, hs.2, fun hlt => ?_, fun hlt => ?_⟩⟩
  · have hcut : clamp lo hi (h + ds.sum) < h + ds.sum := hend ▸ add_lt_add_left hlt ds.sum
    exact ⟨v + ds.sum, hmem, (hend ▸ (eq_of_clamp_lt hlohi hcut).2).ge⟩
  · have hcut : h + ds.sum < clamp lo hi (h + ds.sum) := hend ▸ add_lt_add_left hlt ds.sum
    exact ⟨v + ds.sum, hmem, (hend ▸ (eq_of_lt_clamp hcut).2).le⟩

end Run

end Foundation

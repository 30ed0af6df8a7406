import Mathlib.Data.List.Induction
import Mathlib.Order.Lattice

/-!
# The first of the best

Some entries of a list have a mark, and marks are compared. A scan that replaces the entry
it holds only by one with a strictly better mark ends with the first of the entries whose
mark is the best (`foldl_keepBetter_eq_some_iff`).
-/

namespace Foundation

namespace Log

variable {α β : Type*} [LinearOrder β]

/-- `a` has the mark `m`, no entry has a better one, and no entry before it one as good. -/
def FirstBest (mark : α → Option β) (l : List α) (a : α) (m : β) : Prop :=
  mark a = some m ∧ ∃ front back, l = front ++ a :: back ∧
    (∀ b ∈ front, ∀ m' ∈ mark b, m' < m) ∧ ∀ b ∈ back, ∀ m' ∈ mark b, m' ≤ m

def keepBetter (mark : α → Option β) (best : Option (α × β)) (a : α) : Option (α × β) :=
  match mark a with
  | none => best
  | some m =>
      match best with
      | none => some (a, m)
      | some (b, m') => if m' < m then some (a, m) else some (b, m')

variable {mark : α → Option β} {l : List α} {a x : α} {m : β}

theorem FirstBest.mem (h : FirstBest mark l a m) : a ∈ l := by
  obtain ⟨_, front, back, rfl, _⟩ := h
  simp

theorem FirstBest.le (h : FirstBest mark l a m) {b : α} (hb : b ∈ l) {m' : β}
    (hm : mark b = some m') : m' ≤ m := by
  obtain ⟨hmark, front, back, rfl, hfront, hback⟩ := h
  rcases List.mem_append.mp hb with hb | hb
  · exact (hfront b hb m' hm).le
  · rcases List.mem_cons.mp hb with rfl | hb
    · rw [hmark] at hm
      exact (Option.some.inj hm).ge
    · exact hback b hb m' hm

theorem FirstBest.forall_lt_iff (h : FirstBest mark l a m) {n : β} :
    (∀ b ∈ l, ∀ m' ∈ mark b, m' < n) ↔ m < n :=
  ⟨fun hall => hall a h.mem m h.1, fun hlt _ hb _ hm' => (h.le hb hm').trans_lt hlt⟩

theorem not_firstBest_nil : ¬ FirstBest mark [] a m := fun h => by simpa using h.mem

theorem firstBest_append_singleton_iff :
    FirstBest mark (l ++ [x]) a m ↔
      (FirstBest mark l a m ∧ ∀ m' ∈ mark x, m' ≤ m) ∨
        (a = x ∧ mark x = some m ∧ ∀ b ∈ l, ∀ m' ∈ mark b, m' < m) := by
  constructor
  · rintro ⟨hmark, front, back, hl, hfront, hback⟩
    rcases List.eq_nil_or_concat back with rfl | ⟨back, y, rfl⟩
    · obtain ⟨rfl, hx⟩ := List.append_inj' hl rfl
      obtain rfl := (List.cons.inj hx).1
      exact .inr ⟨rfl, hmark, hfront⟩
    · rw [List.concat_eq_append] at hl hback
      rw [← List.cons_append, ← List.append_assoc] at hl
      obtain ⟨rfl, hx⟩ := List.append_inj' hl rfl
      obtain rfl := (List.cons.inj hx).1
      refine .inl ⟨⟨hmark, front, back, rfl, hfront, fun b hb => ?_⟩, ?_⟩
      · exact hback b (List.mem_append_left _ hb)
      · exact hback x (by simp)
  · rintro (⟨⟨hmark, front, back, rfl, hfront, hback⟩, hx⟩ | ⟨rfl, hmark, hl⟩)
    · refine ⟨hmark, front, back ++ [x], by simp, hfront, fun b hb => ?_⟩
      rcases List.mem_append.mp hb with hb | hb
      · exact hback b hb
      · rwa [List.mem_singleton.mp hb]
    · exact ⟨hmark, l, [], rfl, hl, by simp⟩

theorem foldl_keepBetter_eq_none_iff :
    l.foldl (keepBetter mark) none = none ↔ ∀ b ∈ l, mark b = none := by
  induction l using List.reverseRecOn with
  | nil => simp
  | append_singleton l x ih =>
      rw [List.foldl_append, List.foldl_cons, List.foldl_nil, List.forall_mem_append, ← ih,
        List.forall_mem_singleton, keepBetter]
      cases mark x with
      | none => simp
      | some m =>
          cases l.foldl (keepBetter mark) none with
          | none => simp
          | some best => simp only; split_ifs <;> simp

/-- The scan holds the first of the best at its end. -/
theorem foldl_keepBetter_eq_some_iff :
    l.foldl (keepBetter mark) none = some (a, m) ↔ FirstBest mark l a m := by
  induction l using List.reverseRecOn generalizing a m with
  | nil => exact iff_of_false (by simp) not_firstBest_nil
  | append_singleton l x ih =>
      rw [List.foldl_append, List.foldl_cons, List.foldl_nil, firstBest_append_singleton_iff, ← ih,
        keepBetter]
      cases hx : mark x with
      | none => simp
      | some mx =>
          cases hbest : l.foldl (keepBetter mark) none with
          | none =>
              have hlt : ∀ b ∈ l, ∀ m' ∈ mark b, m' < m := fun b hb m' hm' => by
                rw [foldl_keepBetter_eq_none_iff.mp hbest b hb] at hm'
                cases hm'
              simp only [Option.some.injEq, Prod.mk.injEq]
              constructor
              · rintro ⟨rfl, rfl⟩
                exact .inr ⟨rfl, rfl, hlt⟩
              · rintro (⟨h, _⟩ | ⟨rfl, rfl, _⟩)
                · cases h
                · exact ⟨rfl, rfl⟩
          | some best =>
              obtain ⟨b, mb⟩ := best
              have hlt {n : β} := (ih.mp hbest : FirstBest mark l b mb).forall_lt_iff (n := n)
              simp only [Option.mem_def, Option.some.injEq, Prod.mk.injEq]
              constructor
              · intro h
                split_ifs at h with hless
                · obtain ⟨rfl, rfl⟩ := h
                  exact .inr ⟨rfl, rfl, hlt.mpr hless⟩
                · obtain ⟨rfl, rfl⟩ := h
                  refine .inl ⟨⟨rfl, rfl⟩, ?_⟩
                  rintro _ rfl
                  exact not_lt.mp hless
              · rintro (⟨⟨rfl, rfl⟩, hle⟩ | ⟨rfl, rfl, hall⟩)
                · rw [if_neg (hle mx rfl).not_gt]
                · rw [if_pos (hlt.mp hall)]

end Log

end Foundation

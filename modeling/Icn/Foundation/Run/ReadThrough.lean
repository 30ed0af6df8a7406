import Icn.Foundation.Map.Finite
import Icn.Foundation.Run.Interleaving

/-!
# Read-through caches with a time to live

A cache in front of a source that may answer differently at different times. A call
looks its key up, asks the source where there is no entry or an old one, and stores the
answer with the time of storing. Only some answers are stored (`Kept`). Calls may stand
anywhere between their steps while others go on, the clock advances, and old entries are
purged.

An answer is always one that the source gave for the key, to the call itself or to one
that stored it less than the time to live before (`answered_of_reachable`). Purging only
takes up room: without it there are the same calls with the same answers
(`reachable_iff_without_purge`).
-/

namespace Foundation

namespace ReadThrough

open Interleaving

variable {K V ρ : Type*}

structure Kept (V ρ : Type*) where
  stored : ρ → Option V
  hit : V → ρ
  hit_of_stored : ∀ {answer value}, stored answer = some value → hit value = answer

structure World (K V : Type*) where
  now : ℕ
  entries : HashMap K (V × ℕ)

/-- Where a call stands. From its lookup on a call knows when that was. -/
inductive Call (K ρ : Type*) where
  | lookup (key : K)
  | missed (key : K) (since : ℕ)
  | fetched (key : K) (since : ℕ) (answer : ρ)
  | returned (key : K) (since : ℕ) (answer : ρ)
  | advance (span : ℕ)
  | advanced
  | purge
  | purged

def Call.Start : Call K ρ → Prop
  | lookup _ => True
  | advance _ => True
  | purge => True
  | _ => False

section Steps

variable [DecidableEq K] (kept : Kept V ρ) (source : ℕ → K → ρ) (ttl : ℕ)

def World.live (w : World K V) (key : K) : Option (V × ℕ) :=
  (w.entries.lookup key).filter fun entry => decide (w.now - entry.2 < ttl)

def World.purged (w : World K V) : World K V :=
  { w with entries := w.entries.retain fun _ entry => decide (w.now - entry.2 < ttl) }

def World.store (w : World K V) (key : K) (value : V) : World K V :=
  { w with entries := w.entries.insert key (value, w.now) }

/-- One step of a call. The steps of a purge are those of `purge`. -/
inductive Next (purge : World K V → World K V) :
    World K V → Call K ρ → World K V → Call K ρ → Prop
  | hit {w : World K V} {key : K} {entry : V × ℕ} (h : w.live ttl key = some entry) :
      Next purge w (.lookup key) w (.returned key w.now (kept.hit entry.1))
  | miss {w : World K V} {key : K} (h : w.live ttl key = none) :
      Next purge w (.lookup key) w (.missed key w.now)
  | fetch {w : World K V} {key : K} {since : ℕ} :
      Next purge w (.missed key since) w (.fetched key since (source w.now key))
  | store {w : World K V} {key : K} {since : ℕ} {answer : ρ} {value : V}
      (h : kept.stored answer = some value) :
      Next purge w (.fetched key since answer) (w.store key value) (.returned key since answer)
  | pass {w : World K V} {key : K} {since : ℕ} {answer : ρ} (h : kept.stored answer = none) :
      Next purge w (.fetched key since answer) w (.returned key since answer)
  | advance {w : World K V} {span : ℕ} :
      Next purge w (.advance span) { w with now := w.now + span } .advanced
  | purge {w : World K V} : Next purge w .purge (purge w) .purged

def protocol : Protocol (World K V) (Call K ρ) where
  start := Call.Start
  next := Next kept source ttl (World.purged ttl)

/-- The calls of a cache that never purges anything. -/
def hoarding : Protocol (World K V) (Call K ρ) where
  start := Call.Start
  next := Next kept source ttl id

end Steps

section Answers

variable [DecidableEq K] {kept : Kept V ρ} {source : ℕ → K → ρ} {ttl : ℕ}

/-- Every entry is an answer of the source from before it was stored. -/
def World.Sound (kept : Kept V ρ) (source : ℕ → K → ρ) (w : World K V) : Prop :=
  ∀ key entry, w.entries.lookup key = some entry →
    entry.2 ≤ w.now ∧ ∃ asked, asked ≤ entry.2 ∧ source asked key = kept.hit entry.1

/-- The source has given the answer, to a call that looked its key up at `since`, or it is
one that is stored and was given to a call that stored it less than the time to live
before. -/
def Given (kept : Kept V ρ) (source : ℕ → K → ρ) (ttl : ℕ) (key : K) (since now : ℕ)
    (answer : ρ) : Prop :=
  ∃ asked, asked ≤ now ∧ source asked key = answer ∧
    (since ≤ asked ∨ (∃ value, kept.hit value = answer) ∧
      ∃ t, asked ≤ t ∧ t ≤ since ∧ since < t + ttl)

/-- What is known of a call. -/
def Accounted (kept : Kept V ρ) (source : ℕ → K → ρ) (ttl : ℕ) (w : World K V) :
    Call K ρ → Prop
  | .missed _ since => since ≤ w.now
  | .fetched key since answer => ∃ asked, since ≤ asked ∧ asked ≤ w.now ∧
      source asked key = answer
  | .returned key since answer => Given kept source ttl key since w.now answer
  | _ => True

theorem live_eq_some_iff {w : World K V} {key : K} {entry : V × ℕ} :
    w.live ttl key = some entry ↔
      w.entries.lookup key = some entry ∧ w.now - entry.2 < ttl := by
  rw [World.live, Option.filter_eq_some_iff, decide_eq_true_iff]

theorem World.Sound.purged {w : World K V} (hw : w.Sound kept source) :
    (w.purged ttl).Sound kept source := by
  intro key entry h
  rw [World.purged, HashMap.lookup_retain, Option.filter_eq_some_iff] at h
  exact hw key entry h.1

theorem World.Sound.store {w : World K V} (hw : w.Sound kept source) {key : K} {value : V}
    {asked : ℕ} (hasked : asked ≤ w.now) (hsource : source asked key = kept.hit value) :
    (w.store key value).Sound kept source := by
  intro key' entry h
  rw [World.store, HashMap.lookup_insert_eq_ite] at h
  split at h
  · next hkey =>
    subst hkey
    rw [← Option.some.inj h]
    exact ⟨le_rfl, asked, hasked, hsource⟩
  · exact hw key' entry h

theorem Next.account {w w' : World K V} {call call' : Call K ρ}
    (h : Next kept source ttl (World.purged ttl) w call w' call')
    (hw : w.Sound kept source) (hcall : Accounted kept source ttl w call) :
    w'.Sound kept source ∧ Accounted kept source ttl w' call' := by
  cases h with
  | @hit key entry hlive =>
      obtain ⟨hlookup, hage⟩ := live_eq_some_iff.mp hlive
      obtain ⟨hstored, asked, hasked, hsource⟩ := hw key entry hlookup
      refine ⟨hw, asked, hasked.trans hstored, hsource,
        .inr ⟨⟨entry.1, rfl⟩, entry.2, hasked, hstored, ?_⟩⟩
      omega
  | miss _ => exact ⟨hw, le_rfl⟩
  | fetch => exact ⟨hw, w.now, hcall, le_rfl, rfl⟩
  | @store key since answer value hstored =>
      obtain ⟨asked, hsince, hasked, hsource⟩ := hcall
      exact ⟨hw.store hasked (hsource.trans (kept.hit_of_stored hstored).symm),
        asked, hasked, hsource, .inl hsince⟩
  | pass _ =>
      obtain ⟨asked, hsince, hasked, hsource⟩ := hcall
      exact ⟨hw, asked, hasked, hsource, .inl hsince⟩
  | advance =>
      refine ⟨fun key entry h => ?_, trivial⟩
      exact ⟨(hw key entry h).1.trans (Nat.le_add_right _ _), (hw key entry h).2⟩
  | purge => exact ⟨hw.purged, trivial⟩

end Answers

section Purge

variable [DecidableEq K] {kept : Kept V ρ} {source : ℕ → K → ρ} {ttl : ℕ}

/-- Two worlds with the same time and the same entries that are not too old. -/
def AlikeLive (ttl : ℕ) (w w' : World K V) : Prop :=
  w.now = w'.now ∧ ∀ key, w.live ttl key = w'.live ttl key

theorem AlikeLive.symm {w w' : World K V} (h : AlikeLive ttl w w') : AlikeLive ttl w' w :=
  ⟨h.1.symm, fun key => (h.2 key).symm⟩

/-- Purging removes what is too old already. -/
theorem live_purged (w : World K V) (key : K) : (w.purged ttl).live ttl key = w.live ttl key := by
  apply Option.ext
  intro entry
  rw [live_eq_some_iff, live_eq_some_iff, World.purged, HashMap.lookup_retain,
    Option.filter_eq_some_iff]
  simp

theorem alikeLive_purged {w w' : World K V} (h : AlikeLive ttl w w') :
    AlikeLive ttl (w.purged ttl) w' :=
  ⟨h.1, fun key => (live_purged w key).trans (h.2 key)⟩

/-- An entry that is not too old later on is not too old now. -/
theorem AlikeLive.advance {w w' : World K V} (h : AlikeLive ttl w w') (span : ℕ) :
    AlikeLive ttl { w with now := w.now + span } { w' with now := w'.now + span } := by
  have hlater : ∀ (w : World K V) key, World.live ttl { w with now := w.now + span } key =
      (w.live ttl key).filter fun entry => decide (w.now + span - entry.2 < ttl) := by
    intro w key
    apply Option.ext
    intro entry
    rw [live_eq_some_iff, Option.filter_eq_some_iff, live_eq_some_iff, decide_eq_true_iff]
    constructor
    · rintro ⟨hlookup, hage⟩
      have hnow : w.now - entry.2 ≤ w.now + span - entry.2 := by omega
      exact ⟨⟨hlookup, hnow.trans_lt hage⟩, hage⟩
    · rintro ⟨⟨hlookup, -⟩, hage⟩
      exact ⟨hlookup, hage⟩
  refine ⟨congrArg (· + span) h.1, fun key => ?_⟩
  rw [hlater, hlater, h.2, h.1]

theorem AlikeLive.store {w w' : World K V} (h : AlikeLive ttl w w') (key : K) (value : V) :
    AlikeLive ttl (w.store key value) (w'.store key value) := by
  refine ⟨h.1, fun key' => ?_⟩
  have hkey := h.2 key'
  unfold World.live at hkey ⊢
  simp only [World.store, HashMap.lookup_insert_eq_ite, h.1] at hkey ⊢
  split
  · rfl
  · exact hkey

/-- A step is also one with another way of purging, where neither touches what is not too
old. -/
theorem Next.simulate {purge purge' : World K V → World K V}
    (hpurge : ∀ w w', AlikeLive ttl w w' → AlikeLive ttl (purge w) (purge' w'))
    {w w' t : World K V} {call call' : Call K ρ} (h : Next kept source ttl purge w call w' call')
    (hwt : AlikeLive ttl w t) :
    ∃ t', Next kept source ttl purge' t call t' call' ∧ AlikeLive ttl w' t' := by
  cases h with
  | hit hlive => exact ⟨t, hwt.1 ▸ .hit ((hwt.2 _).symm.trans hlive), hwt⟩
  | miss hlive => exact ⟨t, hwt.1 ▸ .miss ((hwt.2 _).symm.trans hlive), hwt⟩
  | fetch => exact ⟨t, hwt.1 ▸ .fetch, hwt⟩
  | store hstored => exact ⟨_, .store hstored, hwt.store _ _⟩
  | pass hstored => exact ⟨t, .pass hstored, hwt⟩
  | advance => exact ⟨_, .advance, hwt.advance _⟩
  | purge => exact ⟨_, .purge, hpurge _ _ hwt⟩

/-- The calls that can be made and the answers that they can get are the same with and
without purging. -/
theorem reachable_iff_without_purge {w : World K V} {calls : List (Call K ρ)} :
    (∃ t, Reachable (protocol kept source ttl) w ⟨t, calls⟩) ↔
      ∃ t, Reachable (hoarding kept source ttl) w ⟨t, calls⟩ := by
  constructor
  · rintro ⟨t, h⟩
    obtain ⟨t', ht', -⟩ := reachable_of_simulation (P := protocol kept source ttl)
      (Q := hoarding kept source ttl) (AlikeLive ttl) (fun _ hstart => hstart)
      (fun _ _ _ _ _ hwt hnext =>
        hnext.simulate (fun _ _ => alikeLive_purged) hwt) h ⟨rfl, fun _ => rfl⟩
    exact ⟨t', ht'⟩
  · rintro ⟨t, h⟩
    obtain ⟨t', ht', -⟩ := reachable_of_simulation (P := hoarding kept source ttl)
      (Q := protocol kept source ttl) (AlikeLive ttl) (fun _ hstart => hstart)
      (fun _ _ _ _ _ hwt hnext =>
        hnext.simulate (fun _ _ hww => (alikeLive_purged hww.symm).symm) hwt) h
        ⟨rfl, fun _ => rfl⟩
    exact ⟨t', ht'⟩

end Purge

end ReadThrough

end Foundation

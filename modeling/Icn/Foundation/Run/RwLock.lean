import Icn.Foundation.Run.Interleaving

/-!
# Readers and writers

A readers-writer lock as its holders see it: the number of shared guards that
are out and whether the exclusive one is. `Move` lists what one step of a call
can do to the lock together with the guard the call holds.

Where the shared state of interleaved calls contains a lock that every step
moves in this way, the lock counts its guards exactly, so a call that holds the
exclusive guard is alone and a call that holds a shared one sees no writer.
-/

namespace Foundation

structure RwLock where
  readers : ℕ
  writer : Bool
deriving DecidableEq, Repr

inductive Guard where
  | none
  | read
  | write
deriving DecidableEq, Repr

namespace Guard

def readers : Guard → ℕ
  | read => 1
  | _ => 0

def writers : Guard → ℕ
  | write => 1
  | _ => 0

/-- Guards that two calls can hold at the same time. -/
def Compatible (g h : Guard) : Prop := g = none ∨ h = none ∨ (g = read ∧ h = read)

/-- Nobody else holds anything beside a writer. -/
theorem Compatible.eq_none {h : Guard} (hgh : Compatible write h) : h = none := by
  rcases hgh with hg | hh | ⟨hg, _⟩
  · cases hg
  · exact hh
  · cases hg

end Guard

namespace RwLock

open Interleaving

def unlocked : RwLock := ⟨0, false⟩

/-- One step of a call, as the lock and the guard of the call see it. -/
inductive Move : RwLock → Guard → RwLock → Guard → Prop
  | stay (k : RwLock) (g : Guard) : Move k g k g
  | lockRead (n : ℕ) : Move ⟨n, false⟩ .none ⟨n + 1, false⟩ .read
  | unlockRead (n : ℕ) (w : Bool) : Move ⟨n + 1, w⟩ .read ⟨n, w⟩ .none
  | lockWrite : Move ⟨0, false⟩ .none ⟨0, true⟩ .write
  | unlockWrite (n : ℕ) : Move ⟨n, true⟩ .write ⟨n, false⟩ .none

/-- Only the holder of the exclusive guard takes it back. -/
theorem Move.writer_eq_false {k k' : RwLock} {g g' : Guard} (h : Move k g k' g')
    (hg : g ≠ .write) (hk : k'.writer = false) : k.writer = false := by
  cases h with
  | stay => exact hk
  | lockRead => rfl
  | unlockRead => exact hk
  | lockWrite => rfl
  | unlockWrite => exact absurd rfl hg

/-- The lock while its guards are as the calls hold them. -/
structure Counts (k : RwLock) (readers writers : ℕ) : Prop where
  readers_eq : k.readers = readers
  writer_eq : k.writer.toNat = writers
  exclusive : k.writer = true → k.readers = 0

theorem Counts.move {k k' : RwLock} {g g' : Guard} {r w r' w' : ℕ} (h : Counts k r w)
    (hmove : Move k g k' g') (hr : r' + g.readers = r + g'.readers)
    (hw : w' + g.writers = w + g'.writers) : Counts k' r' w' := by
  obtain ⟨hreaders, hwriter, hexclusive⟩ := h
  cases hmove with
  | stay =>
      have hr' : r' = r := Nat.add_right_cancel hr
      have hw' : w' = w := Nat.add_right_cancel hw
      rw [hr', hw']
      exact ⟨hreaders, hwriter, hexclusive⟩
  | lockRead n =>
      have hr' : r' = r + 1 := hr
      have hw' : w' = w := hw
      rw [hr', hw']
      exact ⟨congrArg (· + 1) hreaders, hwriter, by simp⟩
  | unlockRead n b =>
      have hr' : r' + 1 = r := hr
      have hw' : w' = w := hw
      rw [← hr'] at hreaders
      rw [hw']
      exact ⟨Nat.add_right_cancel hreaders, hwriter,
        fun hb => absurd (hexclusive hb) (Nat.succ_ne_zero n)⟩
  | lockWrite =>
      have hr' : r' = r := hr
      have hw' : w' = w + 1 := hw
      rw [hr', hw']
      exact ⟨hreaders, congrArg (· + 1) hwriter, fun _ => rfl⟩
  | unlockWrite n =>
      have hr' : r' = r := hr
      have hw' : w' + 1 = w := hw
      rw [← hw'] at hwriter
      rw [hr']
      exact ⟨hreaders, Nat.succ.inj hwriter, by simp⟩

section Calls

variable {σ ℓ : Type*} {P : Protocol σ ℓ} {lock : σ → RwLock} {guard : ℓ → Guard}
  (hstart : ∀ l, P.start l → guard l = .none)
  (hnext : ∀ s l s' l', P.next s l s' l' → Move (lock s) (guard l) (lock s') (guard l'))
  {s : σ} (hs : lock s = unlocked)

include hstart hnext hs

theorem counts_of_reachable {c : Config σ ℓ} (h : Reachable P s c) :
    Counts (lock c.shared) (tally (fun l => (guard l).readers) c)
      (tally (fun l => (guard l).writers) c) := by
  induction h with
  | refl =>
      rw [hs]
      exact ⟨rfl, rfl, fun _ => rfl⟩
  | tail _ hstep ih =>
      cases hstep with
      | @invoke t ls l hl =>
          rw [tally_invoke, tally_invoke, hstart l hl]
          exact ih
      | @advance t t' l l' before after hl =>
          exact ih.move (hnext t l t' l' hl)
            (tally_advance (fun l => (guard l).readers) t t' l l' before after)
            (tally_advance (fun l => (guard l).writers) t t' l l' before after)

/-- While some call holds a shared guard, no writer is in. -/
theorem writer_eq_false_of_read {c : Config σ ℓ} (h : Reachable P s c) {l : ℓ}
    (hl : l ∈ c.calls) (hread : guard l = .read) : (lock c.shared).writer = false := by
  have hcounts := counts_of_reachable hstart hnext hs h
  have hle := le_tally_of_mem (fun l => (guard l).readers) hl
  rw [← hcounts.readers_eq, hread] at hle
  cases hwriter : (lock c.shared).writer with
  | false => rfl
  | true =>
      rw [hcounts.exclusive hwriter] at hle
      cases hle

theorem writer_eq_true_of_write {c : Config σ ℓ} (h : Reachable P s c) {l : ℓ}
    (hl : l ∈ c.calls) (hwrite : guard l = .write) : (lock c.shared).writer = true := by
  have hcounts := counts_of_reachable hstart hnext hs h
  have hle := le_tally_of_mem (fun l => (guard l).writers) hl
  rw [← hcounts.writer_eq, hwrite] at hle
  cases hwriter : (lock c.shared).writer with
  | false =>
      rw [hwriter] at hle
      cases hle
  | true => rfl

/-- The exclusive guard is out only while some call holds it. -/
theorem exists_write_of_writer {c : Config σ ℓ} (h : Reachable P s c)
    (hwriter : (lock c.shared).writer = true) : ∃ l ∈ c.calls, guard l = .write := by
  have hcounts := counts_of_reachable hstart hnext hs h
  have heq := hcounts.writer_eq
  rw [hwriter] at heq
  obtain ⟨l, hl, hpos⟩ := exists_pos_of_tally_pos (c := c) (fun l => (guard l).writers)
    (heq ▸ Nat.one_pos)
  refine ⟨l, hl, ?_⟩
  cases hguard : guard l with
  | write => rfl
  | none => simp [hguard, Guard.writers] at hpos
  | read => simp [hguard, Guard.writers] at hpos

/-- A call beside another one holds a guard compatible with its guard. -/
theorem compatible_of_reachable {t : σ} {l m : ℓ} {before after : List ℓ}
    (h : Reachable P s ⟨t, before ++ l :: after⟩) (hm : m ∈ before ++ after) :
    (guard l).Compatible (guard m) := by
  have hmem : ∀ k ∈ [l, m], k ∈ before ++ l :: after := by
    simp only [List.mem_append] at hm
    intro k hk
    rcases hm with hm | hm <;> simp at hk <;> rcases hk with rfl | rfl <;> simp [hm]
  have hfree : ∀ k ∈ [l, m], guard k = .read → (lock t).writer = false :=
    fun k hk => writer_eq_false_of_read hstart hnext hs h (hmem k hk)
  have hheld : ∀ k ∈ [l, m], guard k = .write → (lock t).writer = true :=
    fun k hk => writer_eq_true_of_write hstart hnext hs h (hmem k hk)
  have hwriters := add_le_tally_of_mem (fun l => (guard l).writers) t (l := l) hm
  rw [← (counts_of_reachable hstart hnext hs h).writer_eq] at hwriters
  have hle := Bool.toNat_le (lock t).writer
  cases hl : guard l with
  | none => exact .inl rfl
  | read =>
      cases hm' : guard m with
      | none => exact .inr (.inl rfl)
      | read => exact .inr (.inr ⟨rfl, rfl⟩)
      | write =>
          have hfalse := hfree l (by simp) hl
          rw [hheld m (by simp) hm'] at hfalse
          cases hfalse
  | write =>
      cases hm' : guard m with
      | none => exact .inr (.inl rfl)
      | read =>
          have hfalse := hfree m (by simp) hm'
          rw [hheld l (by simp) hl] at hfalse
          cases hfalse
      | write =>
          simp only [hl, hm', Guard.writers] at hwriters
          omega

end Calls

end RwLock

end Foundation

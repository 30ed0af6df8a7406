import Icn.Foundation.Word.UInt64

/-!
# Mana pools

A pool regenerates lazily: every operation first brings it up to the present
second and then does its own work. The clock is an argument, one reading for
each place where the code asks for the time, and nothing is assumed about it;
in particular it may run backwards, in which case regeneration does nothing.
Reports to a metrics hook are not part of the pool's state and are left out.

`Evolves` is what any sequence of operations does to a pool: its cap and its
rate stay, and its timestamp never decreases.
-/

open Foundation

namespace Icn

namespace Economics

inductive ManaError where
  | insufficientMana (requested available : UInt64)
deriving DecidableEq, Repr

structure ManaPool where
  current : UInt64
  max : UInt64
  regenPerSec : UInt64
  lastUpdated : UInt64
deriving DecidableEq, Repr

namespace ManaPool

def new (max regenPerSec now : UInt64) : ManaPool := ⟨max, max, regenPerSec, now⟩

/-- Adds what was regenerated since the last update, up to the cap. -/
def applyRegeneration (pool : ManaPool) (now : UInt64) : ManaPool :=
  if now > pool.lastUpdated then
    let elapsed := now - pool.lastUpdated
    let regenAmount := elapsed * pool.regenPerSec
    { pool with
      current := min (pool.current + regenAmount) pool.max
      lastUpdated := now }
  else pool

def available (pool : ManaPool) (now : UInt64) : UInt64 × ManaPool :=
  let pool := pool.applyRegeneration now
  (pool.current, pool)

/-- The outcome of spending `amount`, and the pool after it. A refused request
still regenerates. -/
def consume (pool : ManaPool) (amount now : UInt64) : Except ManaError Unit × ManaPool :=
  let (currentAvailable, pool) := pool.available now
  if currentAvailable ≥ amount then
    (.ok (), { pool with current := pool.current - amount })
  else
    (.error (.insufficientMana amount currentAvailable), pool)

/-- Adds `amount` after regeneration, up to the cap. -/
def credit (pool : ManaPool) (amount now : UInt64) : ManaPool :=
  let (_, pool) := pool.available now
  { pool with current := min (pool.current + amount) pool.max }

theorem applyRegeneration_of_le {pool : ManaPool} {now : UInt64}
    (h : now ≤ pool.lastUpdated) : pool.applyRegeneration now = pool := by
  rw [applyRegeneration, if_neg]
  rw [gt_iff_lt, UInt64.lt_iff_toNat_lt]
  rw [UInt64.le_iff_toNat_le] at h
  omega

theorem le_lastUpdated_applyRegeneration (pool : ManaPool) (now : UInt64) :
    now ≤ (pool.applyRegeneration now).lastUpdated := by
  rw [applyRegeneration, UInt64.le_iff_toNat_le]
  split
  · exact le_rfl
  · next h =>
    rw [gt_iff_lt, UInt64.lt_iff_toNat_lt] at h
    omega

@[simp] theorem applyRegeneration_applyRegeneration (pool : ManaPool) (now : UInt64) :
    (pool.applyRegeneration now).applyRegeneration now = pool.applyRegeneration now :=
  applyRegeneration_of_le (le_lastUpdated_applyRegeneration pool now)

/-- Being regenerated at `now` is a statement about the timestamp alone. -/
theorem applyRegeneration_eq_self_iff (pool : ManaPool) (now : UInt64) :
    pool.applyRegeneration now = pool ↔ now ≤ pool.lastUpdated := by
  constructor
  · intro h
    rw [← h]
    exact le_lastUpdated_applyRegeneration pool now
  · exact applyRegeneration_of_le

/-- The cap and the rate are kept, and the timestamp does not decrease. -/
structure Evolves (pool pool' : ManaPool) : Prop where
  max_eq : pool'.max = pool.max
  regenPerSec_eq : pool'.regenPerSec = pool.regenPerSec
  lastUpdated_le : pool.lastUpdated ≤ pool'.lastUpdated

@[refl] theorem Evolves.refl (pool : ManaPool) : Evolves pool pool :=
  ⟨rfl, rfl, UInt64.le_refl _⟩

@[trans] theorem Evolves.trans {p₁ p₂ p₃ : ManaPool} (h : Evolves p₁ p₂)
    (h' : Evolves p₂ p₃) : Evolves p₁ p₃ :=
  ⟨h'.max_eq.trans h.max_eq, h'.regenPerSec_eq.trans h.regenPerSec_eq,
    UInt64.le_trans h.lastUpdated_le h'.lastUpdated_le⟩

theorem applyRegeneration_evolves (pool : ManaPool) (now : UInt64) :
    Evolves pool (pool.applyRegeneration now) := by
  rw [applyRegeneration]
  split
  · next h => exact ⟨rfl, rfl, UInt64.le_of_lt h⟩
  · exact Evolves.refl pool

theorem consume_of_le {pool : ManaPool} {amount now : UInt64}
    (h : amount ≤ (pool.applyRegeneration now).current) :
    pool.consume amount now = (.ok (), { pool.applyRegeneration now with
      current := (pool.applyRegeneration now).current - amount }) := by
  simp [consume, available, h]

theorem consume_of_not_le {pool : ManaPool} {amount now : UInt64}
    (h : ¬ amount ≤ (pool.applyRegeneration now).current) :
    pool.consume amount now =
      (.error (.insufficientMana amount (pool.applyRegeneration now).current),
        pool.applyRegeneration now) := by
  simp [consume, available, h]

theorem consume_evolves (pool : ManaPool) (amount now : UInt64) :
    Evolves pool (pool.consume amount now).2 := by
  have hregen := applyRegeneration_evolves pool now
  by_cases hle : amount ≤ (pool.applyRegeneration now).current
  · rw [consume_of_le hle]
    exact ⟨hregen.max_eq, hregen.regenPerSec_eq, hregen.lastUpdated_le⟩
  · rw [consume_of_not_le hle]
    exact hregen

theorem credit_evolves (pool : ManaPool) (amount now : UInt64) :
    Evolves pool (pool.credit amount now) := by
  have hregen := applyRegeneration_evolves pool now
  exact ⟨hregen.max_eq, hregen.regenPerSec_eq, hregen.lastUpdated_le⟩

theorem min_le_max (pool : ManaPool) (sum : UInt64) : min sum pool.max ≤ pool.max := by
  rw [UInt64.le_iff_toNat_le, Word.toNat_min]
  exact min_le_right _ _

theorem current_le_max_applyRegeneration {pool : ManaPool}
    (h : pool.current ≤ pool.max) (now : UInt64) :
    (pool.applyRegeneration now).current ≤ (pool.applyRegeneration now).max := by
  rw [applyRegeneration]
  split
  · exact min_le_max pool _
  · exact h

theorem current_le_max_consume {pool : ManaPool} (h : pool.current ≤ pool.max)
    (amount now : UInt64) :
    (pool.consume amount now).2.current ≤ (pool.consume amount now).2.max := by
  have hregen := current_le_max_applyRegeneration h now
  by_cases hle : amount ≤ (pool.applyRegeneration now).current
  · rw [consume_of_le hle]
    rw [UInt64.le_iff_toNat_le] at hregen ⊢
    simp only [UInt64.toNat_sub_of_le _ _ hle]
    omega
  · rw [consume_of_not_le hle]
    exact hregen

theorem current_le_max_credit (pool : ManaPool) (amount now : UInt64) :
    (pool.credit amount now).current ≤ (pool.credit amount now).max :=
  min_le_max (pool.applyRegeneration now) _

end ManaPool

end Economics

end Icn

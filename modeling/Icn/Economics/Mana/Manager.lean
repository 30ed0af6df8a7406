import Icn.Foundation.Map.Finite
import Icn.Foundation.Run.Sequential
import Icn.Identity.Did
import Icn.Economics.Mana.Pool

/-!
# The mana manager

The manager keeps one pool for each scope. A transfer spends from the source,
makes sure that the destination has a pool and credits it; the clock is read
anew by each of these, so a transfer takes a `TransferClock` with one reading
for every place that asks for the time.

`Operation` lists the calls that reach a pool from outside, also those made
through the reference that `pool_mut` hands out. `sound_step` is the one case
analysis over them: every operation keeps the balances within their caps and
lets every existing pool evolve.
-/

open Foundation

namespace Icn

namespace Economics

open Identity

structure ManaManager where
  pools : HashMap ScopeKey ManaPool

/-- The clock readings of one transfer: the debit, the creation of a missing
destination, the update of the destination, and the credit. -/
structure TransferClock where
  spend : UInt64
  create : UInt64
  ensure : UInt64
  credit : UInt64

def TransferClock.const (now : UInt64) : TransferClock := ⟨now, now, now, now⟩

namespace ManaManager

def new : ManaManager := ⟨∅⟩

def ensurePool (manager : ManaManager) (key : ScopeKey)
    (max regenPerSec nowCreate now : UInt64) : ManaManager :=
  let pool := (manager.pools.lookup key).getD (ManaPool.new max regenPerSec nowCreate)
  ⟨manager.pools.insert key (pool.available now).2⟩

/-- `pool_mut` followed by an operation on the pool it returns. -/
def poolMut {α : Type} (manager : ManaManager) (key : ScopeKey)
    (operation : ManaPool → α × ManaPool) : Option α × ManaManager :=
  match manager.pools.lookup key with
  | some pool =>
      let (result, pool) := operation pool
      (some result, ⟨manager.pools.insert key pool⟩)
  | none => (none, manager)

def balance (manager : ManaManager) (key : ScopeKey) (now : UInt64) :
    Option UInt64 × ManaManager :=
  manager.poolMut key fun pool => pool.available now

def spend (manager : ManaManager) (key : ScopeKey) (amount now : UInt64) :
    Except ManaError Unit × ManaManager :=
  match manager.pools.lookup key with
  | some pool =>
      let (result, pool) := pool.consume amount now
      (result, ⟨manager.pools.insert key pool⟩)
  | none => (.error (.insufficientMana amount 0), manager)

/-- The outcome of a transfer and the manager after it. The source is debited
before the destination is looked at; a destination without a pool gets one
whose cap is the amount. -/
def transfer (manager : ManaManager) (src dst : ScopeKey) (amount : UInt64)
    (clock : TransferClock) : Except ManaError Unit × ManaManager :=
  match manager.spend src amount clock.spend with
  | (.error e, manager) => (.error e, manager)
  | (.ok (), manager) =>
      let manager := manager.ensurePool dst amount 1 clock.create clock.ensure
      match manager.pools.lookup dst with
      | some pool => (.ok (), ⟨manager.pools.insert dst (pool.credit amount clock.credit)⟩)
      | none => (.ok (), manager)

/-- Every balance is within the cap of its pool. -/
def WithinCaps (manager : ManaManager) : Prop :=
  ∀ key pool, manager.pools.lookup key = some pool → pool.current ≤ pool.max

/-- Every pool is still there and has evolved. -/
def Evolves (manager manager' : ManaManager) : Prop :=
  ∀ key pool, manager.pools.lookup key = some pool →
    ∃ pool', manager'.pools.lookup key = some pool' ∧ pool.Evolves pool'

/-- What every operation guarantees. -/
structure Sound (manager manager' : ManaManager) : Prop where
  withinCaps : manager.WithinCaps → manager'.WithinCaps
  evolves : manager.Evolves manager'

@[refl] theorem Sound.refl (manager : ManaManager) : Sound manager manager :=
  ⟨id, fun _ pool h => ⟨pool, h, ManaPool.Evolves.refl pool⟩⟩

@[trans] theorem Sound.trans {m₁ m₂ m₃ : ManaManager} (h : Sound m₁ m₂) (h' : Sound m₂ m₃) :
    Sound m₁ m₃ := by
  refine ⟨fun hcaps => h'.withinCaps (h.withinCaps hcaps), ?_⟩
  intro key pool hpool
  obtain ⟨pool₂, hpool₂, hevolves⟩ := h.evolves key pool hpool
  obtain ⟨pool₃, hpool₃, hevolves'⟩ := h'.evolves key pool₂ hpool₂
  exact ⟨pool₃, hpool₃, hevolves.trans hevolves'⟩

instance : IsPreorder ManaManager Sound where
  refl := Sound.refl
  trans _ _ _ := Sound.trans

/-- Writing a pool is sound when it is within its cap, granted that what it
replaces is, and when it has evolved from what it replaces. -/
theorem sound_insert {manager : ManaManager} {key : ScopeKey} {pool' : ManaPool}
    (hcap : manager.WithinCaps → pool'.current ≤ pool'.max)
    (hevolves : ∀ pool, manager.pools.lookup key = some pool → pool.Evolves pool') :
    Sound manager ⟨manager.pools.insert key pool'⟩ := by
  constructor
  · intro hcaps other pool hpool
    rw [HashMap.lookup_insert_eq_ite] at hpool
    split at hpool
    · cases hpool
      exact hcap hcaps
    · exact hcaps other pool hpool
  · intro other pool hpool
    by_cases hkey : other = key
    · subst hkey
      exact ⟨pool', Finmap.lookup_insert _, hevolves pool hpool⟩
    · exact ⟨pool, by rw [Finmap.lookup_insert_of_ne _ hkey, hpool], ManaPool.Evolves.refl pool⟩

theorem sound_poolMut {α : Type} (manager : ManaManager) (key : ScopeKey)
    (operation : ManaPool → α × ManaPool)
    (hcap : ∀ pool, pool.current ≤ pool.max →
      (operation pool).2.current ≤ (operation pool).2.max)
    (hevolves : ∀ pool : ManaPool, pool.Evolves (operation pool).2) :
    Sound manager (manager.poolMut key operation).2 := by
  rw [poolMut]
  cases hpool : manager.pools.lookup key with
  | none => exact Sound.refl manager
  | some pool =>
      apply sound_insert
      · exact fun hcaps => hcap pool (hcaps key pool hpool)
      · intro stored hstored
        rw [hpool] at hstored
        cases hstored
        exact hevolves pool

theorem sound_ensurePool (manager : ManaManager) (key : ScopeKey)
    (max regenPerSec nowCreate now : UInt64) :
    Sound manager (manager.ensurePool key max regenPerSec nowCreate now) := by
  apply sound_insert
  · intro hcaps
    cases hpool : manager.pools.lookup key with
    | none => exact ManaPool.current_le_max_applyRegeneration (UInt64.le_refl max) now
    | some pool =>
        exact ManaPool.current_le_max_applyRegeneration (hcaps key pool hpool) now
  · intro pool hpool
    rw [hpool]
    exact ManaPool.applyRegeneration_evolves pool now

/-- A debit is the same write as the one made through `poolMut`. -/
theorem spend_snd_eq_poolMut (manager : ManaManager) (key : ScopeKey) (amount now : UInt64) :
    (manager.spend key amount now).2 =
      (manager.poolMut key fun pool => pool.consume amount now).2 := by
  rw [spend, poolMut]
  cases manager.pools.lookup key with
  | none => rfl
  | some pool => rfl

theorem sound_consume (manager : ManaManager) (key : ScopeKey) (amount now : UInt64) :
    Sound manager (manager.poolMut key fun pool => pool.consume amount now).2 :=
  sound_poolMut manager key _
    (fun _ hcap => ManaPool.current_le_max_consume hcap amount now)
    (fun pool => ManaPool.consume_evolves pool amount now)

theorem sound_credit (manager : ManaManager) (key : ScopeKey) (amount now : UInt64) :
    Sound manager (manager.poolMut key fun pool => ((), pool.credit amount now)).2 :=
  sound_poolMut manager key _
    (fun pool _ => ManaPool.current_le_max_credit pool amount now)
    (fun pool => ManaPool.credit_evolves pool amount now)

theorem transfer_of_spend_error {manager manager' : ManaManager} {src dst : ScopeKey}
    {amount : UInt64} {clock : TransferClock} {e : ManaError}
    (h : manager.spend src amount clock.spend = (.error e, manager')) :
    manager.transfer src dst amount clock = (.error e, manager') := by
  rw [transfer, h]

theorem transfer_of_spend_ok {manager manager' : ManaManager} {src dst : ScopeKey}
    {amount : UInt64} {clock : TransferClock}
    (h : manager.spend src amount clock.spend = (.ok (), manager')) :
    manager.transfer src dst amount clock =
      (.ok (), ((manager'.ensurePool dst amount 1 clock.create clock.ensure).poolMut dst
        fun pool => ((), pool.credit amount clock.credit)).2) := by
  rw [transfer, h, poolMut]
  cases hpool : (manager'.ensurePool dst amount 1 clock.create clock.ensure).pools.lookup dst with
  | none => simp [hpool]
  | some pool => simp [hpool]

theorem sound_transfer (manager : ManaManager) (src dst : ScopeKey) (amount : UInt64)
    (clock : TransferClock) : Sound manager (manager.transfer src dst amount clock).2 := by
  have hspend := sound_consume manager src amount clock.spend
  rw [← spend_snd_eq_poolMut] at hspend
  cases hresult : manager.spend src amount clock.spend with
  | mk result manager' =>
      rw [hresult] at hspend
      cases result with
      | error e =>
          rw [transfer_of_spend_error hresult]
          exact hspend
      | ok _ =>
          rw [transfer_of_spend_ok hresult]
          exact (hspend.trans (sound_ensurePool manager' dst amount 1 clock.create
            clock.ensure)).trans (sound_credit _ dst amount clock.credit)

/-- The operations that change pools, with their clock readings. -/
inductive Operation where
  | ensurePool (key : ScopeKey) (max regenPerSec nowCreate now : UInt64)
  | balance (key : ScopeKey) (now : UInt64)
  | spend (key : ScopeKey) (amount now : UInt64)
  | transfer (src dst : ScopeKey) (amount : UInt64) (clock : TransferClock)
  | consumeMut (key : ScopeKey) (amount now : UInt64)
  | creditMut (key : ScopeKey) (amount now : UInt64)

def step (manager : ManaManager) : Operation → ManaManager
  | .ensurePool key max regenPerSec nowCreate now =>
      manager.ensurePool key max regenPerSec nowCreate now
  | .balance key now => (manager.balance key now).2
  | .spend key amount now => (manager.spend key amount now).2
  | .transfer src dst amount clock => (manager.transfer src dst amount clock).2
  | .consumeMut key amount now =>
      (manager.poolMut key fun pool => pool.consume amount now).2
  | .creditMut key amount now =>
      (manager.poolMut key fun pool => ((), pool.credit amount now)).2

theorem sound_step (manager : ManaManager) (operation : Operation) :
    Sound manager (manager.step operation) := by
  cases operation with
  | ensurePool key max regenPerSec nowCreate now =>
      exact sound_ensurePool manager key max regenPerSec nowCreate now
  | balance key now =>
      exact sound_poolMut manager key _
        (fun _ hcap => ManaPool.current_le_max_applyRegeneration hcap now)
        (fun pool => ManaPool.applyRegeneration_evolves pool now)
  | spend key amount now =>
      rw [step, spend_snd_eq_poolMut]
      exact sound_consume manager key amount now
  | transfer src dst amount clock => exact sound_transfer manager src dst amount clock
  | consumeMut key amount now => exact sound_consume manager key amount now
  | creditMut key amount now => exact sound_credit manager key amount now

theorem sound_run (manager : ManaManager) (operations : List Operation) :
    Sound manager (Run.run step manager operations) :=
  Run.rel_run Sound sound_step manager operations

end ManaManager

end Economics

end Icn

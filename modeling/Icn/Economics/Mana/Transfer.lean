import Icn.Economics.Mana.Manager

/-!
# Transfers at a fixed instant

At a clock reading at which every pool is already regenerated, an operation
changes a pool only by its own amount, so a transfer can be read off the pools
it touches. The source loses exactly the amount. The destination gains it up to
the cap of its pool, because `credit` respects the cap; a destination that had
no pool gets one whose cap is the amount, and is then full. What the cap cuts
off is not returned to the source.
-/

open Foundation

namespace Icn

namespace Economics

open Identity

namespace ManaManager

/-- No pool has anything to regenerate at `now`. -/
def RegeneratedAt (now : UInt64) (manager : ManaManager) : Prop :=
  ∀ key pool, manager.pools.lookup key = some pool → pool.applyRegeneration now = pool

/-- The balance reported for `key`, and zero when there is no pool. -/
def balanceOf (manager : ManaManager) (key : ScopeKey) (now : UInt64) : ℕ :=
  ((manager.balance key now).1.map UInt64.toNat).getD 0

def total (manager : ManaManager) : ℕ :=
  HashMap.weight (fun _ pool => pool.current.toNat) manager.pools

/-- Conservation: an accepted transfer moves exactly the amount, and a refused
one changes nothing. -/
def Conserves (manager : ManaManager) (src dst : ScopeKey) (amount now : UInt64) : Prop :=
  (∀ manager', manager.transfer src dst amount (.const now) = (.ok (), manager') →
    manager'.balanceOf src now + amount.toNat = manager.balanceOf src now ∧
      manager'.balanceOf dst now = manager.balanceOf dst now + amount.toNat ∧
        manager'.total = manager.total) ∧
    ∀ e manager', manager.transfer src dst amount (.const now) = (.error e, manager') →
      manager' = manager

/-- The pool that a transfer credits: the stored one, or the new one whose cap
is the amount. -/
def destination (manager : ManaManager) (dst : ScopeKey) (amount now : UInt64) : ManaPool :=
  (manager.pools.lookup dst).getD (ManaPool.new amount 1 now)

/-- The sum formed by the credit does not wrap. -/
def CreditFits (manager : ManaManager) (dst : ScopeKey) (amount now : UInt64) : Prop :=
  (manager.destination dst amount now).current.toNat + amount.toNat < 2 ^ 64

instance (manager : ManaManager) (dst : ScopeKey) (amount now : UInt64) :
    Decidable (manager.CreditFits dst amount now) :=
  inferInstanceAs (Decidable (_ < _))

theorem balanceOf_eq (manager : ManaManager) (key : ScopeKey) (now : UInt64) :
    manager.balanceOf key now =
      (manager.pools.lookup key).elim 0
        fun pool => (pool.applyRegeneration now).current.toNat := by
  rw [balanceOf, balance, poolMut]
  cases manager.pools.lookup key with
  | none => rfl
  | some pool => rfl

theorem balanceOf_insert_self (manager : ManaManager) (key : ScopeKey) (pool : ManaPool)
    {now : UInt64} (hle : now ≤ pool.lastUpdated) :
    balanceOf ⟨manager.pools.insert key pool⟩ key now = pool.current.toNat := by
  rw [balanceOf_eq, Finmap.lookup_insert, Option.elim_some,
    ManaPool.applyRegeneration_of_le hle]

theorem balanceOf_insert_of_ne (manager : ManaManager) {key other : ScopeKey}
    (hne : other ≠ key) (pool : ManaPool) (now : UInt64) :
    balanceOf ⟨manager.pools.insert key pool⟩ other now = manager.balanceOf other now := by
  rw [balanceOf_eq, balanceOf_eq, Finmap.lookup_insert_of_ne _ hne]

theorem balanceOf_of_regeneratedAt {manager : ManaManager} {now : UInt64}
    (hregen : manager.RegeneratedAt now) (key : ScopeKey) :
    manager.balanceOf key now =
      (manager.pools.lookup key).elim 0 fun pool => pool.current.toNat := by
  rw [balanceOf_eq]
  cases hpool : manager.pools.lookup key with
  | none => rfl
  | some pool => rw [Option.elim_some, Option.elim_some, hregen key pool hpool]

theorem le_lastUpdated_of_regeneratedAt {manager : ManaManager} {now : UInt64}
    (hregen : manager.RegeneratedAt now) {key : ScopeKey} {pool : ManaPool}
    (hpool : manager.pools.lookup key = some pool) : now ≤ pool.lastUpdated :=
  (ManaPool.applyRegeneration_eq_self_iff pool now).mp (hregen key pool hpool)

theorem le_lastUpdated_destination {manager : ManaManager} {now : UInt64}
    (hregen : manager.RegeneratedAt now) (dst : ScopeKey) (amount : UInt64) :
    now ≤ (manager.destination dst amount now).lastUpdated := by
  rw [destination]
  cases hpool : manager.pools.lookup dst with
  | none => exact UInt64.le_refl now
  | some pool => exact le_lastUpdated_of_regeneratedAt hregen hpool

/-- An accepted transfer writes the debited source and the credited
destination. -/
theorem transfer_eq_of_le {manager : ManaManager} {src dst : ScopeKey} (hne : src ≠ dst)
    {amount now : UInt64} (hregen : manager.RegeneratedAt now) {pool : ManaPool}
    (hpool : manager.pools.lookup src = some pool) (hle : amount ≤ pool.current) :
    manager.transfer src dst amount (.const now) =
      (.ok (), ⟨(manager.pools.insert src { pool with current := pool.current - amount }).insert
        dst ((manager.destination dst amount now).credit amount now)⟩) := by
  have hself := hregen src pool hpool
  have hspend : manager.spend src amount (TransferClock.const now).spend =
      (.ok (), ⟨manager.pools.insert src { pool with current := pool.current - amount }⟩) := by
    have hconsume : pool.consume amount now =
        (.ok (), { pool with current := pool.current - amount }) := by
      rw [ManaPool.consume_of_le (by rw [hself]; exact hle), hself]
    rw [spend, hpool]
    simp only [TransferClock.const, hconsume]
  have hdst : (manager.pools.insert src
      { pool with current := pool.current - amount }).lookup dst = manager.pools.lookup dst :=
    Finmap.lookup_insert_of_ne _ hne.symm
  have hfull : (manager.destination dst amount now).applyRegeneration now =
      manager.destination dst amount now :=
    ManaPool.applyRegeneration_of_le (le_lastUpdated_destination hregen dst amount)
  rw [transfer_of_spend_ok hspend, poolMut, ensurePool]
  simp only [TransferClock.const, hdst, ManaPool.available]
  rw [← destination, hfull, Finmap.lookup_insert]
  simp only [Finmap.insert_insert]

theorem transfer_eq_of_none {manager : ManaManager} {src dst : ScopeKey}
    {amount now : UInt64} (hpool : manager.pools.lookup src = none) :
    manager.transfer src dst amount (.const now) =
      (.error (.insufficientMana amount 0), manager) := by
  apply transfer_of_spend_error
  rw [spend, hpool]

/-- A refused debit writes back the pool it found. -/
theorem transfer_eq_of_not_le {manager : ManaManager} {src dst : ScopeKey}
    {amount now : UInt64} (hregen : manager.RegeneratedAt now) {pool : ManaPool}
    (hpool : manager.pools.lookup src = some pool) (hle : ¬ amount ≤ pool.current) :
    manager.transfer src dst amount (.const now) =
      (.error (.insufficientMana amount pool.current), manager) := by
  have hself := hregen src pool hpool
  have hconsume : pool.consume amount now =
      (.error (.insufficientMana amount pool.current), pool) := by
    rw [ManaPool.consume_of_not_le (by rw [hself]; exact hle), hself]
  apply transfer_of_spend_error
  rw [spend, hpool]
  simp only [TransferClock.const, hconsume, HashMap.insert_eq_self manager.pools hpool]

theorem credit_of_le {pool : ManaPool} {amount now : UInt64} (hle : now ≤ pool.lastUpdated)
    (hfits : pool.current.toNat + amount.toNat < 2 ^ 64) :
    (pool.credit amount now).current.toNat =
      min (pool.current.toNat + amount.toNat) pool.max.toNat := by
  rw [ManaPool.credit]
  simp only [ManaPool.available, ManaPool.applyRegeneration_of_le hle]
  rw [Word.toNat_min, Word.toNat_add_of_lt hfits]

theorem total_insert_insert (manager : ManaManager) {src dst : ScopeKey} (hne : src ≠ dst)
    (pool pool' : ManaPool) :
    total ⟨(manager.pools.insert src pool).insert dst pool'⟩ +
        (manager.pools.lookup src).elim 0 (fun p => p.current.toNat) +
        (manager.pools.lookup dst).elim 0 (fun p => p.current.toNat) =
      manager.total + pool.current.toNat + pool'.current.toNat := by
  have hsrc := HashMap.weight_insert (fun _ p => p.current.toNat) manager.pools src pool
  have hdst := HashMap.weight_insert (fun _ p => p.current.toNat)
    (manager.pools.insert src pool) dst pool'
  rw [Finmap.lookup_insert_of_ne _ hne.symm] at hdst
  simp only [total]
  omega

/-- A transfer is accepted exactly when the source has a pool that covers the
amount, and then it makes the two writes. -/
theorem exists_of_transfer_ok {manager manager' : ManaManager} {src dst : ScopeKey}
    (hne : src ≠ dst) {amount now : UInt64} (hregen : manager.RegeneratedAt now)
    (hok : manager.transfer src dst amount (.const now) = (.ok (), manager')) :
    ∃ pool, manager.pools.lookup src = some pool ∧ amount ≤ pool.current ∧
      manager' = ⟨(manager.pools.insert src
        { pool with current := pool.current - amount }).insert dst
          ((manager.destination dst amount now).credit amount now)⟩ := by
  cases hpool : manager.pools.lookup src with
  | none =>
      rw [transfer_eq_of_none hpool] at hok
      cases hok
  | some pool =>
      by_cases hle : amount ≤ pool.current
      · rw [transfer_eq_of_le hne hregen hpool hle] at hok
        cases hok
        exact ⟨pool, rfl, hle, rfl⟩
      · rw [transfer_eq_of_not_le hregen hpool hle] at hok
        cases hok

theorem eq_of_transfer_error {manager manager' : ManaManager} {src dst : ScopeKey}
    (hne : src ≠ dst) {amount now : UInt64} (hregen : manager.RegeneratedAt now)
    {e : ManaError}
    (herror : manager.transfer src dst amount (.const now) = (.error e, manager')) :
    manager' = manager := by
  cases hpool : manager.pools.lookup src with
  | none =>
      rw [transfer_eq_of_none hpool] at herror
      cases herror
      rfl
  | some pool =>
      by_cases hle : amount ≤ pool.current
      · rw [transfer_eq_of_le hne hregen hpool hle] at herror
        cases herror
      · rw [transfer_eq_of_not_le hregen hpool hle] at herror
        cases herror
        rfl

/-- At an instant at which all pools are regenerated, and for a credit whose sum
fits a word: an accepted transfer takes exactly the amount from the source,
fills the destination with it up to the cap of its pool (a new pool holds
exactly the amount) and touches no other pool, so the total never grows, and it
is kept exactly when the destination is new or has room for the amount. A
refused transfer changes nothing. -/
theorem transfer_regeneratedAt (manager : ManaManager) (src dst : ScopeKey) (hne : src ≠ dst)
    (amount now : UInt64) (hregen : manager.RegeneratedAt now) :
    (∀ manager', manager.transfer src dst amount (.const now) = (.ok (), manager') →
      manager.CreditFits dst amount now →
        manager'.balanceOf src now + amount.toNat = manager.balanceOf src now ∧
        manager'.balanceOf dst now =
          (manager.pools.lookup dst).elim amount.toNat
            (fun pool => min (manager.balanceOf dst now + amount.toNat) pool.max.toNat) ∧
        (∀ other, other ≠ src → other ≠ dst →
          manager'.pools.lookup other = manager.pools.lookup other) ∧
        manager'.total ≤ manager.total ∧
        (manager'.total = manager.total ↔
          ∀ pool, manager.pools.lookup dst = some pool →
            manager.balanceOf dst now + amount.toNat ≤ pool.max.toNat)) ∧
      ∀ e manager', manager.transfer src dst amount (.const now) = (.error e, manager') →
        manager' = manager := by
  refine ⟨?_, fun e manager' herror => eq_of_transfer_error hne hregen herror⟩
  intro manager' hok hfits
  obtain ⟨pool, hpool, hle, rfl⟩ := exists_of_transfer_ok hne hregen hok
  have hsrc := le_lastUpdated_of_regeneratedAt hregen hpool
  have hdst := UInt64.le_trans (le_lastUpdated_destination hregen dst amount)
    (ManaPool.credit_evolves (manager.destination dst amount now) amount now).lastUpdated_le
  have hdebit := UInt64.toNat_sub_of_le _ _ hle
  have hcovered := UInt64.le_iff_toNat_le.mp hle
  have hbalSrc := balanceOf_of_regeneratedAt hregen src
  have hbalDst := balanceOf_of_regeneratedAt hregen dst
  have hcredit := credit_of_le (le_lastUpdated_destination hregen dst amount) hfits
  have htotal := total_insert_insert manager hne
    { pool with current := pool.current - amount }
    ((manager.destination dst amount now).credit amount now)
  rw [hpool, Option.elim_some] at hbalSrc htotal
  rw [balanceOf_insert_self ⟨_⟩ dst _ hdst, balanceOf_insert_of_ne ⟨_⟩ hne,
    balanceOf_insert_self manager src { pool with current := pool.current - amount } hsrc,
    hbalSrc, hcredit]
  simp only [hdebit, hcredit] at htotal ⊢
  refine ⟨by omega, ?_, ?_, ?_⟩
  · rw [hbalDst, destination]
    cases manager.pools.lookup dst with
    | none => simp [ManaPool.new]
    | some stored => rfl
  · intro other hsrcNe hdstNe
    rw [Finmap.lookup_insert_of_ne _ hdstNe, Finmap.lookup_insert_of_ne _ hsrcNe]
  · rw [hbalDst]
    cases hstored : manager.pools.lookup dst with
    | none =>
        simp only [destination, hstored, Option.getD_none, ManaPool.new, Option.elim_none]
          at htotal ⊢
        simp only [reduceCtorEq, false_implies, implies_true, iff_true]
        omega
    | some stored =>
        simp only [destination, hstored, Option.getD_some, Option.elim_some, Option.some.injEq,
          forall_eq'] at htotal ⊢
        omega

/-- A pool of 500 and a full pool of 100, both created at second 0. -/
def cappedPair : ManaManager :=
  (new.ensurePool (.individual "did:icn:user1") 500 1 0 0).ensurePool
    (.cooperative "did:icn:coopA") 100 1 0 0

theorem regeneratedAt_cappedPair : cappedPair.RegeneratedAt 0 := by
  intro key pool hpool
  have hle : (0 : UInt64) ≤ pool.lastUpdated := by
    rw [UInt64.le_iff_toNat_le]
    exact Nat.zero_le _
  exact ManaPool.applyRegeneration_of_le hle

/-- Fifty of the 500 reach a new community pool and nothing is lost. -/
theorem transfer_regeneratedAt_cappedPair :
    (cappedPair.transfer (.individual "did:icn:user1") (.community "did:icn:commA") 50
        (.const 0)).2.balanceOf (.community "did:icn:commA") 0 = 50 ∧
      (cappedPair.transfer (.individual "did:icn:user1") (.community "did:icn:commA") 50
        (.const 0)).2.total = cappedPair.total := by
  have h := (transfer_regeneratedAt cappedPair (.individual "did:icn:user1")
    (.community "did:icn:commA") (by decide) 50 0 regeneratedAt_cappedPair).1 _ rfl (by decide)
  exact ⟨h.2.1, h.2.2.2.2.mpr fun pool hpool => by cases hpool⟩

/-- Two hundred sent to the full pool leave the source and do not arrive. -/
theorem not_conserves_cappedPair :
    ¬ (cappedPair.RegeneratedAt 0 →
      cappedPair.Conserves (.individual "did:icn:user1") (.cooperative "did:icn:coopA") 200 0) := by
  intro h
  have hdst := ((h regeneratedAt_cappedPair).1 _ rfl).2.1
  revert hdst
  decide

end ManaManager

end Economics

end Icn

import Icn.Economics.Mana.Manager
import Icn.Economics.Mana.Regeneration

/-!
# The mana manager in either build

The operations that a distribution uses, in a build with overflow checks or an optimised
one; the latter is that of `ManaManager` (`transferIn_wrap`).

A destination without a pool gets a full one whose cap is the amount, and the amount is
credited to it after that. So a transfer does the same as one to an empty pool of this cap:
`receiving` is the pool that it credits, in either case (`transferIn_of_ne`).
-/

open Foundation

namespace Icn

namespace Economics

open Identity

namespace ManaPool

def consumeIn (mode : Overflow) (pool : ManaPool) (amount now : UInt64) :
    Option (Except ManaError Unit × ManaPool) := do
  let (currentAvailable, pool) ← pool.availableIn mode now
  if currentAvailable ≥ amount then
    return (.ok (), { pool with current := pool.current - amount })
  else
    return (.error (.insufficientMana amount currentAvailable), pool)

theorem consumeIn_wrap (pool : ManaPool) (amount now : UInt64) :
    pool.consumeIn .wrap amount now = some (pool.consume amount now) := by
  rw [consumeIn, availableIn_wrap]
  simp only [Option.bind_eq_bind, Option.bind_some, consume]
  split <;> rfl

def vacant (cap now : UInt64) : ManaPool := ⟨0, cap, 1, now⟩

variable {mode : Overflow} {pool pool' : ManaPool} {amount now : UInt64}

theorem applyRegenerationIn_of_le (h : now ≤ pool.lastUpdated) :
    pool.applyRegenerationIn mode now = some pool := by
  rw [applyRegenerationIn, if_neg]
  rw [gt_iff_lt, UInt64.lt_iff_toNat_lt]
  rw [UInt64.le_iff_toNat_le] at h
  omega

theorem of_applyRegenerationIn (h : pool.applyRegenerationIn mode now = some pool') :
    pool'.max = pool.max ∧ now ≤ pool'.lastUpdated ∧
      (pool.current ≤ pool.max → pool'.current ≤ pool'.max) := by
  rw [applyRegenerationIn] at h
  split at h
  · obtain ⟨regenAmount, -, h⟩ := Option.bind_eq_some_iff.mp h
    obtain ⟨sum, -, h⟩ := Option.bind_eq_some_iff.mp h
    obtain rfl := Option.some.inj h
    exact ⟨rfl, UInt64.le_refl now, fun _ => min_le_max pool sum⟩
  · next hle =>
    obtain rfl := Option.some.inj h
    rw [gt_iff_lt, UInt64.lt_iff_toNat_lt] at hle
    exact ⟨rfl, UInt64.le_iff_toNat_le.mpr (by omega), id⟩

/-- A credit at an instant: the pool is brought up to it, and the sum is capped. -/
theorem creditIn_eq_some_iff : pool.creditIn mode amount now = some pool' ↔
    ∃ regenerated sum, pool.applyRegenerationIn mode now = some regenerated ∧
      mode.add regenerated.current amount = some sum ∧
      { regenerated with current := min sum regenerated.max } = pool' := by
  constructor
  · intro h
    obtain ⟨⟨balance, regenerated⟩, havailable, h⟩ := Option.bind_eq_some_iff.mp h
    obtain ⟨sum, hsum, h⟩ := Option.bind_eq_some_iff.mp h
    obtain ⟨regenerated', hregenerated, hpair⟩ := Option.map_eq_some_iff.mp havailable
    obtain ⟨-, rfl⟩ := Prod.mk.inj hpair
    exact ⟨regenerated', sum, hregenerated, hsum, Option.some.inj h⟩
  · rintro ⟨regenerated, sum, hregenerated, hsum, rfl⟩
    rw [creditIn, availableIn, hregenerated]
    exact Option.bind_eq_some_iff.mpr ⟨(regenerated.current, regenerated), rfl,
      Option.bind_eq_some_iff.mpr ⟨sum, hsum, rfl⟩⟩

theorem of_creditIn (h : pool.creditIn mode amount now = some pool') :
    pool'.max = pool.max ∧ now ≤ pool'.lastUpdated ∧ pool'.current ≤ pool'.max ∧
      (pool.applyRegenerationIn mode now).isSome := by
  obtain ⟨regenerated, sum, hregenerated, -, rfl⟩ := creditIn_eq_some_iff.mp h
  obtain ⟨hmax, hlast, -⟩ := of_applyRegenerationIn hregenerated
  exact ⟨hmax, hlast, min_le_max regenerated sum, by rw [hregenerated]; rfl⟩

theorem creditIn_of_le {regenerated : ManaPool}
    (hregenerated : pool.applyRegenerationIn mode now = some regenerated)
    (hcap : regenerated.current.toNat + amount.toNat ≤ pool.max.toNat) :
    ∃ pool', pool.creditIn mode amount now = some pool' ∧
      pool'.current.toNat = regenerated.current.toNat + amount.toNat := by
  have hfits : regenerated.current.toNat + amount.toNat < 2 ^ 64 :=
    hcap.trans_lt pool.max.toNat_lt
  refine ⟨_, creditIn_eq_some_iff.mpr ⟨regenerated, _, hregenerated,
    Overflow.add_eq_some_of_lt mode hfits, rfl⟩, ?_⟩
  rw [Word.toNat_min, Word.toNat_add_of_lt hfits, (of_applyRegenerationIn hregenerated).1]
  exact min_eq_left hcap

theorem creditIn_new (hamount : amount.toNat < 2 ^ 63) :
    (ManaPool.new amount 1 now).creditIn mode amount now =
      (vacant amount now).creditIn mode amount now := by
  have hsum : ∀ current : UInt64, current ≤ amount →
      mode.add current amount = some (current + amount) ∧
        min (current + amount) amount = amount := by
    intro current hle
    rw [UInt64.le_iff_toNat_le] at hle
    have hfits : current.toNat + amount.toNat < 2 ^ 64 := by omega
    refine ⟨Overflow.add_eq_some_of_lt mode hfits, UInt64.toNat_inj.mp ?_⟩
    rw [Word.toNat_min, Word.toNat_add_of_lt hfits]
    omega
  have hcredit : ∀ current : UInt64, current ≤ amount →
      (⟨current, amount, 1, now⟩ : ManaPool).creditIn mode amount now =
        some ⟨amount, amount, 1, now⟩ := by
    intro current hle
    refine creditIn_eq_some_iff.mpr ⟨_, _, applyRegenerationIn_of_le (UInt64.le_refl now),
      (hsum current hle).1, ?_⟩
    rw [(hsum current hle).2]
  have hzero : (0 : UInt64) ≤ amount := UInt64.le_iff_toNat_le.mpr (Nat.zero_le _)
  exact (hcredit amount (UInt64.le_refl amount)).trans (hcredit 0 hzero).symm

/-- What a pool holds at an instant, and zero where reading it stops the program. -/
def reading (mode : Overflow) (pool : ManaPool) (now : UInt64) : ℕ :=
  ((pool.applyRegenerationIn mode now).map fun pool => pool.current.toNat).getD 0

theorem reading_eq {regenerated : ManaPool}
    (h : pool.applyRegenerationIn mode now = some regenerated) :
    pool.reading mode now = regenerated.current.toNat := by
  rw [reading, h]
  rfl

/-- The pool can be read, and its cap leaves room for so much more. -/
def HasRoom (mode : Overflow) (pool : ManaPool) (now : UInt64) (n : ℕ) : Prop :=
  (pool.applyRegenerationIn mode now).isSome ∧ pool.reading mode now + n ≤ pool.max.toNat

theorem isSome_applyRegenerationIn_iff (hcap : pool.current ≤ pool.max) :
    (pool.applyRegenerationIn mode now).isSome ↔
      (mode = .stop → pool.uncapped now < 2 ^ 64) := by
  cases mode with
  | wrap =>
      rw [applyRegenerationIn_wrap]
      exact iff_of_true rfl fun h => nomatch h
  | stop =>
      constructor
      · rintro hsome -
        obtain ⟨pool', hpool'⟩ := Option.isSome_iff_exists.mp hsome
        exact uncapped_lt_of_stop hpool'
      · intro hfits
        obtain ⟨pool', hpool', -⟩ := exists_applyRegenerationIn hcap (hfits rfl) .stop
        exact Option.isSome_iff_exists.mpr ⟨pool', hpool'⟩

def credits (mode : Overflow) (amount now : UInt64) : ℕ → ManaPool → Option ManaPool
  | 0, pool => some pool
  | n + 1, pool => (pool.creditIn mode amount now).bind (credits mode amount now n)

theorem of_credits {n : ℕ} (hcap : pool.current ≤ pool.max)
    (h : credits mode amount now n pool = some pool') :
    pool'.max = pool.max ∧ pool'.current ≤ pool'.max := by
  induction n generalizing pool with
  | zero =>
      obtain rfl := Option.some.inj h
      exact ⟨rfl, hcap⟩
  | succ n ih =>
      obtain ⟨credited, hcredit, h⟩ := Option.bind_eq_some_iff.mp h
      obtain ⟨hmax, -, hcapped, -⟩ := of_creditIn hcredit
      exact ⟨(ih hcapped h).1.trans hmax, (ih hcapped h).2⟩

theorem exists_credits {n : ℕ} (hroom : pool.HasRoom mode now (amount.toNat * n)) :
    ∃ pool', credits mode amount now n pool = some pool' ∧
      pool'.reading mode now = pool.reading mode now + amount.toNat * n := by
  induction n generalizing pool with
  | zero => exact ⟨pool, rfl, rfl⟩
  | succ n ih =>
      obtain ⟨hsome, hroom⟩ := hroom
      obtain ⟨regenerated, hregenerated⟩ := Option.isSome_iff_exists.mp hsome
      rw [reading_eq hregenerated, Nat.mul_succ] at hroom
      have hfirst : regenerated.current.toNat + amount.toNat ≤ pool.max.toNat := by omega
      obtain ⟨credited, hcredit, hcurrent⟩ := creditIn_of_le hregenerated hfirst
      obtain ⟨hmax, hlast, -, -⟩ := of_creditIn hcredit
      have hread : credited.reading mode now = credited.current.toNat :=
        reading_eq (applyRegenerationIn_of_le hlast)
      have hrest : credited.HasRoom mode now (amount.toNat * n) := by
        refine ⟨by rw [applyRegenerationIn_of_le hlast]; rfl, ?_⟩
        rw [hread, hmax, hcurrent]
        omega
      obtain ⟨pool', hcredits, hreading⟩ := ih hrest
      refine ⟨pool', Option.bind_eq_some_iff.mpr ⟨credited, hcredit, hcredits⟩, ?_⟩
      rw [hreading, hread, reading_eq hregenerated, Nat.mul_succ]
      omega

theorem reading_le (hcap : pool.current ≤ pool.max) :
    pool.reading mode now ≤ pool.max.toNat := by
  cases hregenerated : pool.applyRegenerationIn mode now with
  | none =>
      rw [reading, hregenerated]
      exact Nat.zero_le _
  | some regenerated =>
      obtain ⟨hmax, -, hcapped⟩ := of_applyRegenerationIn hregenerated
      rw [reading_eq hregenerated, ← hmax]
      exact UInt64.le_iff_toNat_le.mp (hcapped hcap)

theorem reading_creditIn_le (h : pool.creditIn mode amount now = some pool') :
    pool'.reading mode now ≤ pool.reading mode now + amount.toNat := by
  have hlast := (of_creditIn h).2.1
  obtain ⟨regenerated, sum, hregenerated, hsum, heq⟩ := creditIn_eq_some_iff.mp h
  rw [reading_eq hregenerated, reading_eq (applyRegenerationIn_of_le hlast), ← heq,
    Overflow.eq_add_of_add_eq_some hsum]
  dsimp only
  rw [Word.toNat_min]
  exact (min_le_left _ _).trans (Word.toNat_add_le _ _)

theorem reading_credits_le {n : ℕ} (h : credits mode amount now n pool = some pool') :
    pool'.reading mode now ≤ pool.reading mode now + amount.toNat * n := by
  induction n generalizing pool with
  | zero =>
      obtain rfl := Option.some.inj h
      exact Nat.le_add_right _ _
  | succ n ih =>
      obtain ⟨credited, hcredit, h⟩ := Option.bind_eq_some_iff.mp h
      have hfirst := reading_creditIn_le hcredit
      have hrest := ih h
      rw [Nat.mul_succ]
      omega

theorem hasRoom_of_credits {n : ℕ} (hcap : pool.current ≤ pool.max) (hn : 0 < n)
    (h : credits mode amount now n pool = some pool')
    (hreading : pool'.reading mode now = pool.reading mode now + amount.toNat * n) :
    pool.HasRoom mode now (amount.toNat * n) := by
  obtain ⟨hmax, hcapped⟩ := of_credits hcap h
  refine ⟨?_, ?_⟩
  · obtain ⟨n, rfl⟩ := Nat.exists_eq_add_of_lt hn
    obtain ⟨credited, hcredit, -⟩ := Option.bind_eq_some_iff.mp h
    exact (of_creditIn hcredit).2.2.2
  · rw [← hreading, ← hmax]
    exact reading_le hcapped

end ManaPool

namespace ManaManager

section Operations

variable (mode : Overflow) (manager : ManaManager)

def balanceIn (key : ScopeKey) (now : UInt64) : Option (Option UInt64 × ManaManager) :=
  match manager.pools.lookup key with
  | some pool => do
      let (balance, pool) ← pool.availableIn mode now
      return (some balance, ⟨manager.pools.insert key pool⟩)
  | none => some (none, manager)

def spendIn (key : ScopeKey) (amount now : UInt64) :
    Option (Except ManaError Unit × ManaManager) :=
  match manager.pools.lookup key with
  | some pool => do
      let (result, pool) ← pool.consumeIn mode amount now
      return (result, ⟨manager.pools.insert key pool⟩)
  | none => some (.error (.insufficientMana amount 0), manager)

def ensurePoolIn (key : ScopeKey) (max regenPerSec nowCreate now : UInt64) :
    Option ManaManager := do
  let pool := (manager.pools.lookup key).getD (ManaPool.new max regenPerSec nowCreate)
  let (_, pool) ← pool.availableIn mode now
  return ⟨manager.pools.insert key pool⟩

def transferIn (src dst : ScopeKey) (amount : UInt64) (clock : TransferClock) :
    Option (Except ManaError Unit × ManaManager) := do
  match ← manager.spendIn mode src amount clock.spend with
  | (.error e, manager) => return (.error e, manager)
  | (.ok (), manager) =>
      let manager ← manager.ensurePoolIn mode dst amount 1 clock.create clock.ensure
      match manager.pools.lookup dst with
      | some pool =>
          let pool ← pool.creditIn mode amount clock.credit
          return (.ok (), ⟨manager.pools.insert dst pool⟩)
      | none => return (.ok (), manager)

end Operations

variable {mode : Overflow} {manager : ManaManager}

theorem balanceIn_wrap (manager : ManaManager) (key : ScopeKey) (now : UInt64) :
    manager.balanceIn .wrap key now = some (manager.balance key now) := by
  rw [balanceIn, balance, poolMut]
  cases manager.pools.lookup key with
  | none => rfl
  | some pool =>
      simp only [ManaPool.availableIn_wrap]
      rfl

theorem spendIn_wrap (manager : ManaManager) (key : ScopeKey) (amount now : UInt64) :
    manager.spendIn .wrap key amount now = some (manager.spend key amount now) := by
  rw [spendIn, spend]
  cases manager.pools.lookup key with
  | none => rfl
  | some pool =>
      simp only [ManaPool.consumeIn_wrap]
      rfl

theorem ensurePoolIn_wrap (manager : ManaManager) (key : ScopeKey)
    (max regenPerSec nowCreate now : UInt64) :
    manager.ensurePoolIn .wrap key max regenPerSec nowCreate now =
      some (manager.ensurePool key max regenPerSec nowCreate now) := by
  rw [ensurePoolIn, ManaPool.availableIn_wrap]
  rfl

theorem transferIn_wrap (manager : ManaManager) (src dst : ScopeKey) (amount : UInt64)
    (clock : TransferClock) :
    manager.transferIn .wrap src dst amount clock =
      some (manager.transfer src dst amount clock) := by
  rw [transferIn, transfer, spendIn_wrap]
  rcases manager.spend src amount clock.spend with ⟨_ | _, manager'⟩
  · rfl
  · simp only [Option.bind_eq_bind, Option.bind_some, ensurePoolIn_wrap]
    cases (manager'.ensurePool dst amount 1 clock.create clock.ensure).pools.lookup dst with
    | none => rfl
    | some pool =>
        simp only [ManaPool.creditIn_wrap]
        rfl

/-- The pool that a transfer credits: the stored one, or an empty one whose cap is the
amount. -/
def receiving (manager : ManaManager) (key : ScopeKey) (amount now : UInt64) : ManaPool :=
  (manager.pools.lookup key).getD (.vacant amount now)

theorem receiving_eq_of_lookup {manager manager' : ManaManager} {key : ScopeKey}
    (h : manager'.pools.lookup key = manager.pools.lookup key) (amount now : UInt64) :
    manager'.receiving key amount now = manager.receiving key amount now := by
  rw [receiving, receiving, h]

variable {src dst : ScopeKey} {pool : ManaPool} {amount now : UInt64}

theorem spendIn_of_le (hpool : manager.pools.lookup src = some pool)
    (hlast : now ≤ pool.lastUpdated) (hamount : amount ≤ pool.current) :
    manager.spendIn mode src amount now = some (.ok (),
      ⟨manager.pools.insert src { pool with current := pool.current - amount }⟩) := by
  rw [spendIn, hpool]
  simp only [ManaPool.consumeIn, ManaPool.availableIn, ManaPool.applyRegenerationIn_of_le hlast,
    Option.map_some, Option.bind_eq_bind, Option.bind_some, ge_iff_le, hamount, if_true,
    Option.pure_def]

theorem ensurePoolIn_creditIn (manager : ManaManager) (hamount : amount.toNat < 2 ^ 63) :
    ((manager.ensurePoolIn mode dst amount 1 now now).bind fun manager =>
        match manager.pools.lookup dst with
        | some pool => do
            let pool ← pool.creditIn mode amount now
            return ((.ok () : Except ManaError Unit), ⟨manager.pools.insert dst pool⟩)
        | none => return (.ok (), manager)) =
      ((manager.receiving dst amount now).creditIn mode amount now).map fun pool =>
        (.ok (), ⟨manager.pools.insert dst pool⟩) := by
  have hreceiving : (manager.receiving dst amount now).creditIn mode amount now =
      ((manager.pools.lookup dst).getD (ManaPool.new amount 1 now)).creditIn mode amount now := by
    rw [receiving]
    cases manager.pools.lookup dst with
    | none => exact (ManaPool.creditIn_new hamount).symm
    | some pool => rfl
  rw [hreceiving, ensurePoolIn]
  generalize (manager.pools.lookup dst).getD (ManaPool.new amount 1 now) = pool
  rw [ManaPool.creditIn, ManaPool.availableIn]
  cases hregenerated : pool.applyRegenerationIn mode now with
  | none => rfl
  | some regenerated =>
      have hidle : regenerated.applyRegenerationIn mode now = some regenerated :=
        ManaPool.applyRegenerationIn_of_le (ManaPool.of_applyRegenerationIn hregenerated).2.1
      simp only [Option.map_some, Option.bind_eq_bind, Option.bind_some, Option.pure_def,
        Finmap.lookup_insert, ManaPool.creditIn, ManaPool.availableIn, hidle]
      cases mode.add regenerated.current amount with
      | none => rfl
      | some sum => simp

/-- A transfer from a pool that has been read at the instant to another one. -/
theorem transferIn_of_ne (hpool : manager.pools.lookup src = some pool)
    (hlast : now ≤ pool.lastUpdated) (hamount : amount ≤ pool.current)
    (hhalf : amount.toNat < 2 ^ 63) (hne : dst ≠ src) :
    manager.transferIn mode src dst amount (.const now) =
      ((manager.receiving dst amount now).creditIn mode amount now).map fun credited =>
        (.ok (), ⟨(manager.pools.insert src
          { pool with current := pool.current - amount }).insert dst credited⟩) := by
  have hreceiving : receiving ⟨manager.pools.insert src
      { pool with current := pool.current - amount }⟩ dst amount now =
        manager.receiving dst amount now :=
    receiving_eq_of_lookup (Finmap.lookup_insert_of_ne _ hne) amount now
  rw [transferIn, TransferClock.const, spendIn_of_le hpool hlast hamount, ← hreceiving]
  exact ensurePoolIn_creditIn _ hhalf

/-- A transfer from a pool to itself changes nothing. -/
theorem transferIn_self (hpool : manager.pools.lookup src = some pool)
    (hlast : now ≤ pool.lastUpdated) (hamount : amount ≤ pool.current)
    (hhalf : amount.toNat < 2 ^ 63) (hcap : pool.current ≤ pool.max) :
    manager.transferIn mode src src amount (.const now) = some (.ok (), manager) := by
  have hback : ({ pool with current := pool.current - amount } : ManaPool).creditIn mode amount
      now = some pool := by
    refine ManaPool.creditIn_eq_some_iff.mpr
      ⟨_, pool.current, ManaPool.applyRegenerationIn_of_le hlast, ?_, ?_⟩
    · rw [UInt64.le_iff_toNat_le] at hamount
      have hsum : (pool.current - amount).toNat + amount.toNat = pool.current.toNat := by
        rw [UInt64.toNat_sub_of_le _ _ (UInt64.le_iff_toNat_le.mpr hamount)]
        omega
      dsimp only
      rw [Overflow.add_eq_some_of_lt mode (hsum.trans_lt pool.current.toNat_lt),
        UInt64.sub_add_cancel]
    · have hmin : min pool.current pool.max = pool.current := by
        rw [UInt64.le_iff_toNat_le] at hcap
        exact UInt64.toNat_inj.mp ((Word.toNat_min _ _).trans (min_eq_left hcap))
      dsimp only
      rw [hmin]
  rw [transferIn, TransferClock.const, spendIn_of_le hpool hlast hamount]
  refine (ensurePoolIn_creditIn _ hhalf).trans ?_
  rw [receiving, Finmap.lookup_insert, Option.getD_some, hback, Option.map_some,
    Finmap.insert_insert, HashMap.insert_eq_self _ hpool]

/-- The balance that the manager reports, and zero without a report. -/
def holding (mode : Overflow) (manager : ManaManager) (key : ScopeKey) (now : UInt64) : ℕ :=
  (((manager.balanceIn mode key now).bind Prod.fst).map UInt64.toNat).getD 0

theorem holding_eq (mode : Overflow) (manager : ManaManager) (key : ScopeKey)
    (amount now : UInt64) :
    manager.holding mode key now = (manager.receiving key amount now).reading mode now := by
  rw [holding, balanceIn, receiving]
  cases manager.pools.lookup key with
  | none =>
      have hidle : (ManaPool.vacant amount now).applyRegenerationIn mode now =
          some (ManaPool.vacant amount now) :=
        ManaPool.applyRegenerationIn_of_le (UInt64.le_refl now)
      rw [Option.getD_none, ManaPool.reading_eq hidle]
      rfl
  | some pool =>
      simp only [Option.getD_some, ManaPool.reading, ManaPool.availableIn]
      cases pool.applyRegenerationIn mode now with
      | none => rfl
      | some regenerated => rfl

theorem WithinCaps.receiving (h : manager.WithinCaps) (key : ScopeKey) (amount now : UInt64) :
    (manager.receiving key amount now).current ≤ (manager.receiving key amount now).max := by
  rw [ManaManager.receiving]
  cases hpool : manager.pools.lookup key with
  | none => exact UInt64.le_iff_toNat_le.mpr (Nat.zero_le _)
  | some pool => exact h key pool hpool

theorem holding_lt (mode : Overflow) (manager : ManaManager) (key : ScopeKey) (now : UInt64) :
    manager.holding mode key now < 2 ^ 64 := by
  rw [holding]
  cases (manager.balanceIn mode key now).bind Prod.fst with
  | none => exact Nat.two_pow_pos 64
  | some balance => exact balance.toNat_lt

/-- The source has been read at the instant and holds a budget. -/
def Ready (manager : ManaManager) (src : ScopeKey) (now : UInt64) (budget : ℕ) : Prop :=
  ∃ pool, manager.pools.lookup src = some pool ∧ now ≤ pool.lastUpdated ∧
    pool.current ≤ pool.max ∧ budget ≤ pool.current.toNat

theorem Ready.mono {budget budget' : ℕ} (h : manager.Ready src now budget)
    (hle : budget' ≤ budget) : manager.Ready src now budget' := by
  obtain ⟨pool, hpool, hlast, hcap, hbudget⟩ := h
  exact ⟨pool, hpool, hlast, hcap, hle.trans hbudget⟩

theorem Ready.le_holding {budget : ℕ} (h : manager.Ready src now budget) (mode : Overflow) :
    budget ≤ manager.holding mode src now := by
  obtain ⟨pool, hpool, hlast, -, hbudget⟩ := h
  rw [holding_eq mode manager src 0 now, receiving, hpool, Option.getD_some,
    ManaPool.reading_eq (ManaPool.applyRegenerationIn_of_le hlast)]
  exact hbudget

theorem of_balanceIn {manager' : ManaManager} {key : ScopeKey} {balance : Option UInt64}
    (h : manager.balanceIn mode key now = some (balance, manager')) :
    (balance.getD 0).toNat = manager.holding mode key now ∧
      (∀ other amount, other ≠ key →
        manager'.receiving other amount now = manager.receiving other amount now) ∧
      manager'.holding mode key now = manager.holding mode key now ∧
      (manager.WithinCaps → 0 < manager.holding mode key now →
        manager'.Ready key now (manager.holding mode key now)) := by
  have hholding : manager.holding mode key now = (balance.map UInt64.toNat).getD 0 := by
    rw [holding, h, Option.bind_some]
  have hbalance : (balance.getD 0).toNat = (balance.map UInt64.toNat).getD 0 := by
    cases balance <;> rfl
  refine ⟨hbalance.trans hholding.symm, ?_⟩
  rw [balanceIn] at h
  cases hpool : manager.pools.lookup key with
  | none =>
      rw [hpool] at h
      obtain ⟨rfl, rfl⟩ := Prod.mk.inj (Option.some.inj h)
      refine ⟨fun other amount _ => rfl, rfl, fun _ hpos => ?_⟩
      rw [hholding] at hpos
      exact absurd hpos (Nat.lt_irrefl 0)
  | some pool =>
      rw [hpool] at h
      obtain ⟨⟨read, regenerated⟩, havailable, h⟩ := Option.bind_eq_some_iff.mp h
      obtain ⟨regenerated', hregenerated, hpair⟩ := Option.map_eq_some_iff.mp havailable
      obtain ⟨rfl, rfl⟩ := Prod.mk.inj hpair
      obtain ⟨rfl, rfl⟩ := Prod.mk.inj (Option.some.inj h)
      obtain ⟨-, hlast, hcapped⟩ := ManaPool.of_applyRegenerationIn hregenerated
      refine ⟨fun other amount hother =>
        receiving_eq_of_lookup (Finmap.lookup_insert_of_ne _ hother) amount now, ?_, ?_⟩
      · rw [holding_eq mode _ key 0 now, receiving, Finmap.lookup_insert, Option.getD_some,
          ManaPool.reading_eq (ManaPool.applyRegenerationIn_of_le hlast), hholding]
        rfl
      · intro hcaps _
        exact ⟨regenerated', Finmap.lookup_insert _, hlast, hcapped (hcaps key pool hpool),
          hholding.le⟩

theorem isSome_balanceIn_iff (hcaps : manager.WithinCaps) (key : ScopeKey) (amount : UInt64) :
    (manager.balanceIn mode key now).isSome ↔
      (mode = .stop → (manager.receiving key amount now).uncapped now < 2 ^ 64) := by
  rw [← ManaPool.isSome_applyRegenerationIn_iff (hcaps.receiving key amount now), balanceIn,
    receiving]
  cases manager.pools.lookup key with
  | none =>
      rw [Option.getD_none, ManaPool.applyRegenerationIn_of_le (UInt64.le_refl now)]
      rfl
  | some pool =>
      simp only [Option.getD_some, ManaPool.availableIn]
      cases pool.applyRegenerationIn mode now with
      | none => rfl
      | some regenerated => rfl

section Transfer

variable {manager' : ManaManager} {budget : ℕ} {result : Except ManaError Unit}

/-- A transfer that the budget covers is accepted unless it is stopped, and it credits the
pool of the destination. -/
theorem of_transferIn (hready : manager.Ready src now (budget + amount.toNat))
    (hhalf : amount.toNat < 2 ^ 63)
    (h : manager.transferIn mode src dst amount (.const now) = some (result, manager')) :
    result = .ok () ∧ manager'.Ready src now budget ∧
      ∀ key, key ≠ src → some (manager'.receiving key amount now) =
        if key = dst then (manager.receiving key amount now).creditIn mode amount now
        else some (manager.receiving key amount now) := by
  obtain ⟨pool, hpool, hlast, hcap, hbudget⟩ := hready
  have hamount : amount ≤ pool.current := UInt64.le_iff_toNat_le.mpr (by omega)
  by_cases hdst : dst = src
  · subst hdst
    rw [transferIn_self hpool hlast hamount hhalf hcap] at h
    obtain ⟨rfl, rfl⟩ := Prod.mk.inj (Option.some.inj h)
    refine ⟨rfl, ⟨pool, hpool, hlast, hcap, by omega⟩, fun key hkey => ?_⟩
    rw [if_neg hkey]
  · rw [transferIn_of_ne hpool hlast hamount hhalf hdst] at h
    obtain ⟨credited, hcredit, hpair⟩ := Option.map_eq_some_iff.mp h
    obtain ⟨rfl, rfl⟩ := Prod.mk.inj hpair
    refine ⟨rfl, ⟨{ pool with current := pool.current - amount }, ?_, hlast, ?_, ?_⟩,
      fun key hkey => ?_⟩
    · exact (Finmap.lookup_insert_of_ne _ (Ne.symm hdst)).trans (Finmap.lookup_insert _)
    · rw [UInt64.le_iff_toNat_le] at hcap ⊢
      dsimp only
      rw [UInt64.toNat_sub_of_le _ _ hamount]
      omega
    · dsimp only
      rw [UInt64.toNat_sub_of_le _ _ hamount]
      omega
    · split
      · next heq =>
        subst heq
        rw [hcredit, receiving, Finmap.lookup_insert]
        rfl
      · next hne =>
        refine congrArg some (receiving_eq_of_lookup ?_ amount now)
        exact (Finmap.lookup_insert_of_ne _ hne).trans (Finmap.lookup_insert_of_ne _ hkey)

theorem isSome_transferIn (hready : manager.Ready src now (budget + amount.toNat))
    (hhalf : amount.toNat < 2 ^ 63)
    (hcredit : dst ≠ src →
      ((manager.receiving dst amount now).creditIn mode amount now).isSome) :
    (manager.transferIn mode src dst amount (.const now)).isSome := by
  obtain ⟨pool, hpool, hlast, hcap, hbudget⟩ := hready
  have hamount : amount ≤ pool.current := UInt64.le_iff_toNat_le.mpr (by omega)
  by_cases hdst : dst = src
  · subst hdst
    rw [transferIn_self hpool hlast hamount hhalf hcap]
    rfl
  · rw [transferIn_of_ne hpool hlast hamount hhalf hdst, Option.isSome_map]
    exact hcredit hdst

end Transfer

end ManaManager

end Economics

end Icn

import Icn.Foundation.Run.Budget
import Icn.Economics.Mana.Manager
import Icn.Economics.Mana.Regeneration

/-!
# The manager as a rate limit

What mana is for: a scope may spend in bursts, but over a stretch of time no more
than its cap, what it regenerates in that time, and what it is given. Here this is
shown of any group of scopes and of any stretch of a run, for an optimised build and
for clock readings in any order. A sum that wraps around loses mana, it never makes
any, and a clock that runs backwards does not regenerate the same seconds twice.

A pool is counted at what it could hold at some instant, the horizon, if there were
no cap (`ManaPool.uncapped`). Regeneration before the horizon never raises that.
-/

open Foundation

namespace Icn

namespace Economics

open Identity

namespace ManaPool

/-- What a full pool could hold at an instant if there were no cap. -/
def ceiling (pool : ManaPool) (horizon : UInt64) : ℕ :=
  pool.max.toNat + (horizon.toNat - pool.lastUpdated.toNat) * pool.regenPerSec.toNat

variable {pool pool' : ManaPool} {now horizon : UInt64}

theorem uncapped_le_ceiling (h : pool.current ≤ pool.max) (horizon : UInt64) :
    pool.uncapped horizon ≤ pool.ceiling horizon :=
  Nat.add_le_add_right (UInt64.le_iff_toNat_le.mp h) _

theorem Evolves.ceiling_le (h : Evolves pool pool') (horizon : UInt64) :
    pool'.ceiling horizon ≤ pool.ceiling horizon := by
  have hlast := UInt64.le_iff_toNat_le.mp h.lastUpdated_le
  rw [ceiling, ceiling, h.max_eq, h.regenPerSec_eq]
  exact Nat.add_le_add_left (Nat.mul_le_mul_right _ (by omega)) _

/-- What has regenerated is not expected any more, also where the product or the sum
wraps around. -/
theorem uncapped_applyRegeneration_le (pool : ManaPool) (hnow : now ≤ horizon) :
    (pool.applyRegeneration now).uncapped horizon ≤ pool.uncapped horizon := by
  rw [applyRegeneration]
  split
  · next hlt =>
    have hlt := UInt64.lt_iff_toNat_lt.mp hlt
    have hnow := UInt64.le_iff_toNat_le.mp hnow
    have helapsed : (now - pool.lastUpdated).toNat = now.toNat - pool.lastUpdated.toNat :=
      UInt64.toNat_sub_of_le _ _ (UInt64.le_iff_toNat_le.mpr hlt.le)
    have hproduct : ((now - pool.lastUpdated) * pool.regenPerSec).toNat ≤
        (now.toNat - pool.lastUpdated.toNat) * pool.regenPerSec.toNat := by
      rw [UInt64.toNat_mul, helapsed]
      exact Nat.mod_le _ _
    have hsum := Word.toNat_add_le pool.current ((now - pool.lastUpdated) * pool.regenPerSec)
    have hsplit : (now.toNat - pool.lastUpdated.toNat) * pool.regenPerSec.toNat +
        (horizon.toNat - now.toNat) * pool.regenPerSec.toNat =
        (horizon.toNat - pool.lastUpdated.toNat) * pool.regenPerSec.toNat := by
      rw [← Nat.add_mul]
      congr 1
      omega
    simp only [uncapped, Word.toNat_min]
    omega
  · exact le_rfl

theorem uncapped_consume_add_le (pool : ManaPool) (amount : UInt64) (hnow : now ≤ horizon) :
    (pool.consume amount now).2.uncapped horizon +
        (if (pool.consume amount now).1.isOk then amount.toNat else 0) ≤
      pool.uncapped horizon := by
  have hregen := uncapped_applyRegeneration_le pool hnow
  by_cases hle : amount ≤ (pool.applyRegeneration now).current
  · have hcurrent := UInt64.le_iff_toNat_le.mp hle
    rw [consume_of_le hle]
    simp only [Except.isOk, Except.toBool, if_true, uncapped,
      UInt64.toNat_sub_of_le _ _ hle] at hregen ⊢
    omega
  · rw [consume_of_not_le hle]
    simpa only [Except.isOk, Except.toBool, Bool.false_eq_true, if_false, Nat.add_zero] using hregen

/-- A credit raises the expectation by its amount at most. -/
theorem uncapped_credit_le (pool : ManaPool) (amount : UInt64) (hnow : now ≤ horizon) :
    (pool.credit amount now).uncapped horizon ≤ pool.uncapped horizon + amount.toNat := by
  have hregen := uncapped_applyRegeneration_le pool hnow
  have hsum := Word.toNat_add_le (pool.applyRegeneration now).current amount
  rw [credit, available]
  simp only [uncapped, Word.toNat_min] at hregen ⊢
  omega

end ManaPool

namespace ManaManager

def Operation.readings : Operation → List UInt64
  | .ensurePool _ _ _ nowCreate now => [nowCreate, now]
  | .balance _ now => [now]
  | .spend _ _ now => [now]
  | .transfer _ _ _ clock => [clock.spend, clock.create, clock.ensure, clock.credit]
  | .consumeMut _ _ now => [now]
  | .creditMut _ _ now => [now]

/-- No reading of the operation is later than the horizon. -/
def Operation.ReadBy (horizon : UInt64) (operation : Operation) : Prop :=
  ∀ reading ∈ operation.readings, reading ≤ horizon

instance (horizon : UInt64) (operation : Operation) : Decidable (operation.ReadBy horizon) :=
  inferInstanceAs (Decidable (∀ reading ∈ operation.readings, reading ≤ horizon))

variable (group : ScopeKey → Bool) (horizon : UInt64)

/-- What the pools of a group could hold at the horizon if there were no caps. -/
def worth (manager : ManaManager) : ℕ :=
  HashMap.weight (fun key pool => if group key then pool.uncapped horizon else 0) manager.pools

def ceiling (manager : ManaManager) : ℕ :=
  HashMap.weight (fun key pool => if group key then pool.ceiling horizon else 0) manager.pools

/-- What an operation takes out of a group: accepted debits, and accepted transfers to
a scope outside. -/
def leaves (manager : ManaManager) : Operation → ℕ
  | .spend key amount now =>
      if group key ∧ (manager.spend key amount now).1.isOk then amount.toNat else 0
  | .consumeMut key amount now =>
      if group key ∧
          (manager.poolMut key fun pool => pool.consume amount now).1.any Except.isOk
      then amount.toNat else 0
  | .transfer src dst amount clock =>
      if group src ∧ ¬ group dst ∧ (manager.transfer src dst amount clock).1.isOk
      then amount.toNat else 0
  | _ => 0

/-- What an operation gives to a group: credits of its pools, accepted transfers from a
scope outside, and the pools it opens, with what they could regenerate. -/
def enters (manager : ManaManager) : Operation → ℕ
  | .ensurePool key max regenPerSec nowCreate _ =>
      if group key ∧ key ∉ manager.pools
      then (ManaPool.new max regenPerSec nowCreate).uncapped horizon else 0
  | .creditMut key amount _ => if group key ∧ key ∈ manager.pools then amount.toNat else 0
  | .transfer src dst amount clock =>
      if group dst ∧ (manager.transfer src dst amount clock).1.isOk then
        (if group src then 0 else amount.toNat) +
          if dst ∈ manager.pools then 0 else horizon.toNat - clock.create.toNat
      else 0
  | _ => 0

variable {group horizon}

theorem worth_insert_add_le {manager : ManaManager} {key : ScopeKey} {pool' : ManaPool}
    (out into : ℕ)
    (h : (if group key then pool'.uncapped horizon else 0) + out ≤
      (manager.pools.lookup key).elim 0
        (fun pool => if group key then pool.uncapped horizon else 0) + into) :
    worth group horizon ⟨manager.pools.insert key pool'⟩ + out ≤
      worth group horizon manager + into := by
  have hweight := HashMap.weight_insert
    (fun key pool => if group key then pool.uncapped horizon else 0) manager.pools key pool'
  simp only [worth]
  omega

theorem worth_consume_add_le (manager : ManaManager) (key : ScopeKey) (amount : UInt64)
    {now : UInt64} (hnow : now ≤ horizon) :
    worth group horizon (manager.poolMut key fun pool => pool.consume amount now).2 +
        (if group key ∧
            (manager.poolMut key fun pool => pool.consume amount now).1.any Except.isOk
          then amount.toNat else 0) ≤
      worth group horizon manager := by
  rw [poolMut]
  cases hpool : manager.pools.lookup key with
  | none => simp
  | some pool =>
      have hconsume := ManaPool.uncapped_consume_add_le pool amount hnow
      refine worth_insert_add_le _ 0 ?_
      rw [hpool, Option.elim_some, Option.any_some]
      cases group key with
      | false => simp
      | true => simpa using hconsume

theorem worth_available_le (manager : ManaManager) (key : ScopeKey) {now : UInt64}
    (hnow : now ≤ horizon) :
    worth group horizon (manager.balance key now).2 ≤ worth group horizon manager := by
  rw [balance, poolMut]
  cases hpool : manager.pools.lookup key with
  | none => exact le_rfl
  | some pool =>
      refine worth_insert_add_le 0 0 ?_
      rw [hpool, Option.elim_some]
      split
      · exact ManaPool.uncapped_applyRegeneration_le pool hnow
      · exact le_rfl

theorem spend_isOk_eq_poolMut (manager : ManaManager) (key : ScopeKey) (amount now : UInt64) :
    (manager.spend key amount now).1.isOk =
      (manager.poolMut key fun pool => pool.consume amount now).1.any Except.isOk := by
  rw [spend, poolMut]
  cases manager.pools.lookup key with
  | none => rfl
  | some pool => rfl

variable (group) in
theorem worth_spend_add_le (manager : ManaManager) (key : ScopeKey) (amount : UInt64)
    {now : UInt64} (hnow : now ≤ horizon) :
    worth group horizon (manager.spend key amount now).2 +
        (if group key ∧ (manager.spend key amount now).1.isOk then amount.toNat else 0) ≤
      worth group horizon manager := by
  rw [spend_snd_eq_poolMut, spend_isOk_eq_poolMut]
  exact worth_consume_add_le manager key amount hnow

variable (group) in
theorem worth_credit_le (manager : ManaManager) (key : ScopeKey) (amount : UInt64)
    {now : UInt64} (hnow : now ≤ horizon) :
    worth group horizon (manager.poolMut key fun pool => ((), pool.credit amount now)).2 ≤
      worth group horizon manager +
        if group key ∧ key ∈ manager.pools then amount.toNat else 0 := by
  rw [poolMut]
  cases hpool : manager.pools.lookup key with
  | none => exact Nat.le_add_right _ _
  | some pool =>
      have hmem : key ∈ manager.pools := Finmap.lookup_isSome.mp (by rw [hpool]; rfl)
      have hcredit := ManaPool.uncapped_credit_le pool amount hnow
      refine worth_insert_add_le 0 _ ?_
      rw [hpool, Option.elim_some]
      cases group key with
      | false => simp
      | true => simpa [hmem] using hcredit

variable (group) in
theorem worth_ensurePool_le (manager : ManaManager) (key : ScopeKey)
    (max regenPerSec nowCreate : UInt64) {now : UInt64} (hnow : now ≤ horizon) :
    worth group horizon (manager.ensurePool key max regenPerSec nowCreate now) ≤
      worth group horizon manager +
        if group key ∧ key ∉ manager.pools
        then (ManaPool.new max regenPerSec nowCreate).uncapped horizon else 0 := by
  refine worth_insert_add_le 0 _ ?_
  cases hpool : manager.pools.lookup key with
  | none =>
      have hmem : key ∉ manager.pools := Finmap.lookup_eq_none.mp hpool
      have hregen := ManaPool.uncapped_applyRegeneration_le
        (ManaPool.new max regenPerSec nowCreate) hnow
      cases group key with
      | false => simp
      | true => simpa [hmem, ManaPool.available] using hregen
  | some pool =>
      have hregen := ManaPool.uncapped_applyRegeneration_le pool hnow
      cases group key with
      | false => simp
      | true => simpa [ManaPool.available] using Nat.le_add_right_of_le hregen

/-- A destination without a pool gets one that is full with the amount, and is not
credited beyond it. -/
theorem worth_open_le {manager : ManaManager} {dst : ScopeKey} (hmem : dst ∉ manager.pools)
    (amount : UInt64) (clock : TransferClock) :
    worth group horizon ((manager.ensurePool dst amount 1 clock.create clock.ensure).poolMut dst
        fun pool => ((), pool.credit amount clock.credit)).2 ≤
      worth group horizon manager + if group dst then
        amount.toNat + (horizon.toNat - clock.create.toNat) else 0 := by
  have hnone : manager.pools.lookup dst = none := Finmap.lookup_eq_none.mpr hmem
  rw [ensurePool, hnone, Option.getD_none, ManaPool.available, poolMut]
  simp only [Finmap.lookup_insert]
  have hevolves : ManaPool.Evolves (ManaPool.new amount 1 clock.create)
      (((ManaPool.new amount 1 clock.create).applyRegeneration clock.ensure).credit amount
        clock.credit) :=
    (ManaPool.applyRegeneration_evolves _ _).trans (ManaPool.credit_evolves _ _ _)
  have hworth := (ManaPool.uncapped_le_ceiling
    (ManaPool.current_le_max_credit _ _ _) horizon).trans (hevolves.ceiling_le horizon)
  have hceiling : (ManaPool.new amount 1 clock.create).ceiling horizon =
      amount.toNat + (horizon.toNat - clock.create.toNat) := by
    rw [ManaPool.ceiling]
    exact congrArg (amount.toNat + ·) (Nat.mul_one _)
  rw [hceiling] at hworth
  rw [Finmap.insert_insert]
  refine worth_insert_add_le 0 _ ?_
  rw [hnone, Option.elim_none, Nat.add_zero, Nat.zero_add]
  split
  · exact hworth
  · exact le_rfl

variable (group) in
theorem worth_receive_le (manager : ManaManager) (dst : ScopeKey) (amount : UInt64)
    {clock : TransferClock} (hensure : clock.ensure ≤ horizon) (hcredit : clock.credit ≤ horizon) :
    worth group horizon ((manager.ensurePool dst amount 1 clock.create clock.ensure).poolMut dst
        fun pool => ((), pool.credit amount clock.credit)).2 ≤
      worth group horizon manager + if group dst then amount.toNat +
        (if dst ∈ manager.pools then 0 else horizon.toNat - clock.create.toNat) else 0 := by
  by_cases hmem : dst ∈ manager.pools
  · have hopened := worth_ensurePool_le group manager dst amount 1 clock.create hensure
    have hcredited := worth_credit_le group
      (manager.ensurePool dst amount 1 clock.create clock.ensure) dst amount hcredit
    have hstill : dst ∈ (manager.ensurePool dst amount 1 clock.create clock.ensure).pools :=
      Finmap.mem_insert.mpr (.inl rfl)
    rw [if_neg (fun h => h.2 hmem), Nat.add_zero] at hopened
    simp only [hstill, and_true] at hcredited
    rw [if_pos hmem, Nat.add_zero]
    exact hcredited.trans (Nat.add_le_add_right hopened _)
  · rw [if_neg hmem]
    exact worth_open_le hmem amount clock

/-- What goes from one scope of the group to another does not count. -/
theorem worth_transfer_add_le (manager : ManaManager) (src dst : ScopeKey) (amount : UInt64)
    {clock : TransferClock} (hspend : clock.spend ≤ horizon) (hensure : clock.ensure ≤ horizon)
    (hcredit : clock.credit ≤ horizon) :
    worth group horizon (manager.transfer src dst amount clock).2 +
        leaves group manager (.transfer src dst amount clock) ≤
      worth group horizon manager +
        enters group horizon manager (.transfer src dst amount clock) := by
  have hdebit := worth_spend_add_le group manager src amount hspend
  have hsound := sound_consume manager src amount clock.spend
  rw [← spend_snd_eq_poolMut] at hsound
  cases hresult : manager.spend src amount clock.spend with
  | mk result manager' =>
      rw [hresult] at hdebit hsound
      cases result with
      | error e =>
          have hfailed : manager.transfer src dst amount clock = (.error e, manager') :=
            transfer_of_spend_error hresult
          simp only [leaves, enters, hfailed, Except.isOk, Except.toBool, Bool.false_eq_true,
            and_false, if_false, Nat.add_zero]
          exact le_of_add_le_left hdebit
      | ok _ =>
          have hreceive := worth_receive_le group manager' dst amount hensure hcredit
          have hopening : (if dst ∈ manager'.pools then 0
              else horizon.toNat - clock.create.toNat) ≤
              if dst ∈ manager.pools then 0 else horizon.toNat - clock.create.toNat := by
            by_cases hmem : dst ∈ manager.pools
            · obtain ⟨pool, hpool⟩ := Finmap.mem_iff.mp hmem
              obtain ⟨pool', hpool', -⟩ := hsound.evolves dst pool hpool
              rw [if_pos (Finmap.mem_iff.mpr ⟨pool', hpool'⟩)]
              exact Nat.zero_le _
            · rw [if_neg hmem]
              split
              · exact Nat.zero_le _
              · exact le_rfl
          rw [leaves, enters, transfer_of_spend_ok hresult]
          simp only [Except.isOk, Except.toBool, and_true] at hdebit ⊢
          cases hsrc : group src <;> cases hdst : group dst <;>
            simp only [hsrc, hdst, Bool.false_eq_true, not_false_eq_true, not_true_eq_false,
              and_true, and_false, if_true, if_false] at hdebit hreceive ⊢ <;> omega

theorem worth_step_add_le {manager : ManaManager} {operation : Operation}
    (h : operation.ReadBy horizon) :
    worth group horizon (manager.step operation) + leaves group manager operation ≤
      worth group horizon manager + enters group horizon manager operation := by
  cases operation with
  | ensurePool key max regenPerSec nowCreate now =>
      exact worth_ensurePool_le group manager key max regenPerSec nowCreate
        (h now (by simp [Operation.readings]))
  | balance key now =>
      exact worth_available_le manager key (h now (by simp [Operation.readings]))
  | spend key amount now =>
      exact worth_spend_add_le group manager key amount (h now (by simp [Operation.readings]))
  | transfer src dst amount clock =>
      exact worth_transfer_add_le manager src dst amount (h _ (by simp [Operation.readings]))
        (h _ (by simp [Operation.readings])) (h _ (by simp [Operation.readings]))
  | consumeMut key amount now =>
      exact worth_consume_add_le manager key amount (h now (by simp [Operation.readings]))
  | creditMut key amount now =>
      exact worth_credit_le group manager key amount (h now (by simp [Operation.readings]))

theorem WithinCaps.worth_le_ceiling {manager : ManaManager} (h : manager.WithinCaps) :
    worth group horizon manager ≤ ceiling group horizon manager := by
  rw [worth, ceiling, HashMap.weight_eq_sum_keys, HashMap.weight_eq_sum_keys]
  refine Finset.sum_le_sum fun key _ => ?_
  cases hpool : manager.pools.lookup key with
  | none => exact le_rfl
  | some pool =>
      simp only [Option.elim_some]
      split
      · exact ManaPool.uncapped_le_ceiling (h key pool hpool) horizon
      · exact le_rfl

/-- **A group of scopes is rate limited.** Let any operations run on an empty manager, and
then any more, none of which reads the clock after the horizon. What these take out of a
group, and what the pools of the group could still hold at the horizon, is no more than the
caps of its pools, what these regenerate from the last time they were brought up to date,
and what the group is given. -/
theorem worth_add_leaves_le_ceiling (before operations : List Operation)
    (h : ∀ operation ∈ operations, operation.ReadBy horizon) :
    worth group horizon (Run.run step new (before ++ operations)) +
        Run.total step (leaves group) (Run.run step new before) operations ≤
      ceiling group horizon (Run.run step new before) +
        Run.total step (enters group horizon) (Run.run step new before) operations := by
  have hempty : new.WithinCaps := by
    intro key pool hpool
    cases hpool
  have hcaps := (sound_run new before).withinCaps hempty
  rw [Run.run_append]
  refine (Run.store_add_total_le (P := fun _ operation => operation.ReadBy horizon)
    (fun _ _ => worth_step_add_le) (Run.along_of_forall_mem h)).trans ?_
  exact Nat.add_le_add_right hcaps.worth_le_ceiling _

/-- A pool of ten that regenerates one a second spends fifteen in five seconds. -/
theorem worth_add_leaves_le_ceiling_burst :
    worth (fun key => decide (key = .individual "a")) 5
          (Run.run step new [.ensurePool (.individual "a") 10 1 0 0, .spend (.individual "a") 10 0,
            .spend (.individual "a") 6 5, .spend (.individual "a") 5 5]) + 15 ≤
        ceiling (fun key => decide (key = .individual "a")) 5
          (Run.run step new [.ensurePool (.individual "a") 10 1 0 0]) ∧
      ceiling (fun key => decide (key = .individual "a")) 5
        (Run.run step new [.ensurePool (.individual "a") 10 1 0 0]) = 15 :=
  ⟨worth_add_leaves_le_ceiling [.ensurePool (.individual "a") 10 1 0 0]
    [.spend (.individual "a") 10 0, .spend (.individual "a") 6 5, .spend (.individual "a") 5 5]
    (by simp [Operation.ReadBy, Operation.readings]), by decide⟩

end ManaManager

end Economics

end Icn

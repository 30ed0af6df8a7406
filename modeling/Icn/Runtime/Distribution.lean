import Icn.Types.Dag.Store
import Icn.Economics.Mana.EitherBuild

/-!
# The distribution of mana

A worker pays a tenth of the node's mana to the originators of the receipts of the last
interval, in equal shares and by one transfer for each receipt.

The node always has the shares, so every transfer of a tick that is not stopped is accepted
(`distribute_eq_some`). What an originator gains from them is bounded by the cap of its pool,
and a pool that the first of them opens is full at once: a tick pays fairly exactly if the
caps leave room for all the shares (`paysFairly_iff`).
-/

open Foundation

namespace Icn

namespace Runtime

open Identity Economics Dag

def extractOriginatorDid {Cid : Type} (node : DagNode Cid) : String :=
  String.ofList ((node.scopeId.toList.splitOn '/').getLast?.getD [])

/-- The nodes of a type that are listed and not older than an instant. A failed listing
counts as an empty one. -/
def queryEvents {Cid : Type} (listed : Except String (List (DagNode Cid)))
    (eventType : DagEventType) (sinceMs : UInt64) : List (DagNode Cid) :=
  (listed.toOption.getD []).filter fun node =>
    decide (node.eventType = eventType ∧ sinceMs ≤ node.timestamp)

structure IdentityIndex where
  didToCoop : HashMap Did String
  coopToCommunity : HashMap String String
  communityToFederation : HashMap String String

def IdentityIndex.resolveScopeKey (index : IdentityIndex) (did : Did) : ScopeKey :=
  match index.didToCoop.lookup did with
  | some coop =>
      match index.coopToCommunity.lookup coop with
      | some comm =>
          match index.communityToFederation.lookup comm with
          | some fid => .federation fid
          | none => .community comm
      | none => .cooperative coop
  | none => .individual did.asStr

structure DistributionWorker where
  nodeScope : ScopeKey
  fractionPercent : UInt64
  identityIndex : Option IdentityIndex
  intervalSecs : UInt64

/-- One instant, in milliseconds for the receipts and in seconds for the pools. -/
structure Instant where
  millis : UInt64
  secs : UInt64

namespace DistributionWorker

def new (nodeScope : ScopeKey) (identityIndex : Option IdentityIndex) (intervalSecs : UInt64) :
    DistributionWorker where
  nodeScope := nodeScope
  fractionPercent := 10
  identityIndex := identityIndex
  intervalSecs := intervalSecs

variable {Cid : Type} (lib : DidLibrary) (mode : Overflow) (worker : DistributionWorker)

def periodMillis : UInt64 := UInt64.ofNat (worker.intervalSecs.toNat * 1000)

def originScope (node : DagNode Cid) : ScopeKey :=
  let did := extractOriginatorDid node
  match worker.identityIndex with
  | some index =>
      match Did.fromStr lib did with
      | .ok didParsed => index.resolveScopeKey didParsed
      | .error _ => .individual did
  | none => .individual did

def pay (now sharePer : UInt64) (state : ℕ × ManaManager) (node : DagNode Cid) :
    Option (ℕ × ManaManager) := do
  match ← state.2.transferIn mode worker.nodeScope (worker.originScope lib node) sharePer
      (.const now) with
  | (.ok (), manager) => return (state.1 + 1, manager)
  | (.error _, manager) => return (state.1, manager)

def tick (instant : Instant) (listed : Except String (List (DagNode Cid)))
    (manager : ManaManager) : Option (ℕ × ManaManager) := do
  let (balance, manager) ← manager.balanceIn mode worker.nodeScope instant.secs
  let nodeBalance := balance.getD 0
  if nodeBalance = 0 then return (0, manager)
  let product ← mode.mul nodeBalance worker.fractionPercent
  let payout := product / 100
  if payout = 0 then return (0, manager)
  let since ← mode.sub instant.millis worker.periodMillis
  let receipts := queryEvents listed .receipt since
  let totalReceipts := UInt64.ofNat receipts.length
  if totalReceipts = 0 then return (0, manager)
  let sharePer := payout / totalReceipts
  receipts.foldlM (worker.pay lib mode instant.secs sharePer) (0, manager)

section Specification

def succeeded (now sharePer : UInt64) : ManaManager → List (DagNode Cid) → List ScopeKey
  | _, [] => []
  | manager, node :: receipts =>
      match manager.transferIn mode worker.nodeScope (worker.originScope lib node) sharePer
          (.const now) with
      | some (.ok (), manager) =>
          worker.originScope lib node :: succeeded now sharePer manager receipts
      | some (.error _, manager) => succeeded now sharePer manager receipts
      | none => []

variable (instant : Instant) (listed : Except String (List (DagNode Cid)))
  (manager : ManaManager)

def receipts : List (DagNode Cid) :=
  queryEvents listed .receipt (instant.millis - worker.periodMillis)

def nodeBalance : ℕ := manager.holding mode worker.nodeScope instant.secs

def payout : UInt64 :=
  UInt64.ofNat (worker.nodeBalance mode instant manager) * worker.fractionPercent / 100

def sharePer : UInt64 :=
  worker.payout mode instant manager / UInt64.ofNat (worker.receipts instant listed).length

def reached : List (DagNode Cid) :=
  if worker.payout mode instant manager = 0 then [] else worker.receipts instant listed

def paid : List ScopeKey :=
  match manager.balanceIn mode worker.nodeScope instant.secs with
  | some (_, manager') =>
      worker.succeeded lib mode instant.secs (worker.sharePer mode instant listed manager)
        manager' (worker.reached mode instant listed manager)
  | none => []

/-- A tenth of the balance is the most that the node loses, every other originator gains an
equal share for each of its receipts, and the transfers are counted. -/
def PaysFairly : Prop :=
  ∃ count after, worker.tick lib mode instant listed manager = some (count, after) ∧
    worker.nodeBalance mode instant manager ≤ worker.nodeBalance mode instant after +
      10 * worker.nodeBalance mode instant manager / 100 ∧
    (∀ scope ∈ (worker.receipts instant listed).map (worker.originScope lib),
      scope ≠ worker.nodeScope →
        after.holding mode scope instant.secs = manager.holding mode scope instant.secs +
          10 * worker.nodeBalance mode instant manager / 100 /
            (worker.receipts instant listed).length *
              (worker.paid lib mode instant listed manager).count scope) ∧
    count = (worker.paid lib mode instant listed manager).length

/-- What a build with overflow checks forms before the transfers fits its word. -/
structure Starts : Prop where
  balance : (manager.receiving worker.nodeScope 0 instant.secs).uncapped instant.secs < 2 ^ 64
  payout : 10 * worker.nodeBalance mode instant manager < 2 ^ 64
  since : worker.payout mode instant manager ≠ 0 → worker.periodMillis ≤ instant.millis

/-- The tick is not stopped before the transfers, and the pools of the originators leave room
for the shares. -/
structure LeavesRoom : Prop where
  starts : mode = .stop → worker.Starts mode instant manager
  room : ∀ scope ∈ (worker.reached mode instant listed manager).map (worker.originScope lib),
    scope ≠ worker.nodeScope →
      (worker.sharePer mode instant listed manager).toNat =
          10 * worker.nodeBalance mode instant manager / 100 /
            (worker.receipts instant listed).length ∧
        (manager.receiving scope (worker.sharePer mode instant listed manager)
          instant.secs).HasRoom mode instant.secs
            ((worker.sharePer mode instant listed manager).toNat *
              ((worker.reached mode instant listed manager).map
                (worker.originScope lib)).count scope)

end Specification

variable {lib mode worker} {now share : UInt64} {receipts : List (DagNode Cid)} {count : ℕ}
  {manager after : ManaManager} {budget : ℕ}

theorem pay_eq_some {state : ℕ × ManaManager} {node : DagNode Cid}
    (hready : state.2.Ready worker.nodeScope now (budget + share.toNat))
    (hhalf : share.toNat < 2 ^ 63) {state' : ℕ × ManaManager}
    (h : worker.pay lib mode now share state node = some state') :
    state'.1 = state.1 + 1 ∧ state.2.transferIn mode worker.nodeScope
      (worker.originScope lib node) share (.const now) = some (.ok (), state'.2) := by
  obtain ⟨⟨result, manager'⟩, htransfer, h⟩ := Option.bind_eq_some_iff.mp h
  obtain ⟨rfl, -, -⟩ := ManaManager.of_transferIn hready hhalf htransfer
  obtain rfl := Option.some.inj h
  exact ⟨rfl, htransfer⟩

/-- **Payment.** Every receipt is paid for, the rest of the budget stays with the node, and
the pool of another scope has been credited once for each of its receipts. -/
theorem of_foldlM_pay (hhalf : share.toNat < 2 ^ 63)
    (hready : manager.Ready worker.nodeScope now (budget + share.toNat * receipts.length))
    {state : ℕ × ManaManager}
    (h : receipts.foldlM (worker.pay lib mode now share) (count, manager) = some state) :
    state.1 = count + receipts.length ∧
      worker.succeeded lib mode now share manager receipts =
        receipts.map (worker.originScope lib) ∧
      state.2.Ready worker.nodeScope now budget ∧
      ∀ scope, scope ≠ worker.nodeScope →
        ManaPool.credits mode share now ((receipts.map (worker.originScope lib)).count scope)
          (manager.receiving scope share now) = some (state.2.receiving scope share now) := by
  induction receipts generalizing count manager with
  | nil =>
      obtain rfl := Option.some.inj h
      exact ⟨rfl, rfl, hready, fun scope _ => rfl⟩
  | cons node receipts ih =>
      rw [List.length_cons, Nat.mul_succ, ← Nat.add_assoc] at hready
      rw [List.foldlM_cons] at h
      obtain ⟨⟨count', manager'⟩, hpay, h⟩ := Option.bind_eq_some_iff.mp h
      obtain ⟨hcount, htransfer⟩ := pay_eq_some hready hhalf hpay
      obtain ⟨-, hready', hreceiving⟩ := ManaManager.of_transferIn hready hhalf htransfer
      obtain ⟨hstate, hsucceeded, hrest, hcredits⟩ := ih hready' h
      refine ⟨?_, ?_, hrest, fun scope hscope => ?_⟩
      · rw [hstate, List.length_cons]
        dsimp only at hcount
        omega
      · rw [succeeded, htransfer, List.map_cons, ← hsucceeded]
      · have hfirst := hreceiving scope hscope
        rw [List.map_cons, List.count_cons]
        by_cases heq : scope = worker.originScope lib node
        · rw [if_pos heq] at hfirst
          rw [if_pos (beq_iff_eq.mpr heq.symm), ManaPool.credits, ← hfirst, Option.bind_some]
          exact hcredits scope hscope
        · rw [if_neg heq, Option.some_inj] at hfirst
          rw [if_neg fun hbeq => heq (beq_iff_eq.mp hbeq).symm, ← hfirst]
          exact hcredits scope hscope

/-- The payments are stopped by nothing but a credit. -/
theorem isSome_foldlM_pay (hhalf : share.toNat < 2 ^ 63)
    (hready : manager.Ready worker.nodeScope now (budget + share.toNat * receipts.length))
    (hcredits : ∀ scope, scope ≠ worker.nodeScope →
      (ManaPool.credits mode share now ((receipts.map (worker.originScope lib)).count scope)
        (manager.receiving scope share now)).isSome) :
    (receipts.foldlM (worker.pay lib mode now share) (count, manager)).isSome := by
  induction receipts generalizing count manager with
  | nil => rfl
  | cons node receipts ih =>
      rw [List.length_cons, Nat.mul_succ, ← Nat.add_assoc] at hready
      have hself : ∀ scope, scope ≠ worker.nodeScope → scope = worker.originScope lib node →
          (((manager.receiving scope share now).creditIn mode share now).bind
            (ManaPool.credits mode share now
              ((receipts.map (worker.originScope lib)).count scope))).isSome := by
        intro scope hscope heq
        have := hcredits scope hscope
        rw [List.map_cons, List.count_cons, if_pos (beq_iff_eq.mpr heq.symm)] at this
        exact this
      have hfirst : (manager.transferIn mode worker.nodeScope (worker.originScope lib node) share
          (.const now)).isSome := ManaManager.isSome_transferIn hready hhalf
        fun hne => Option.isSome_of_isSome_bind (hself _ hne rfl)
      obtain ⟨⟨result, manager'⟩, htransfer⟩ := Option.isSome_iff_exists.mp hfirst
      obtain ⟨rfl, hready', hreceiving⟩ := ManaManager.of_transferIn hready hhalf htransfer
      rw [List.foldlM_cons, pay, htransfer]
      refine ih hready' fun scope hscope => ?_
      have hfirst := hreceiving scope hscope
      by_cases heq : scope = worker.originScope lib node
      · rw [if_pos heq] at hfirst
        have := hself scope hscope heq
        rw [← hfirst, Option.bind_some] at this
        exact this
      · rw [if_neg heq, Option.some_inj] at hfirst
        have := hcredits scope hscope
        rw [List.map_cons, List.count_cons,
          if_neg fun hbeq => heq (beq_iff_eq.mp hbeq).symm, ← hfirst] at this
        exact this

section Tick

variable {instant : Instant} {listed : Except String (List (DagNode Cid))}

theorem toNat_payout_le (hfraction : worker.fractionPercent = 10) :
    (worker.payout mode instant manager).toNat ≤
      10 * worker.nodeBalance mode instant manager / 100 := by
  rw [payout, hfraction, UInt64.toNat_div, UInt64.toNat_mul, UInt64.toNat_ofNat']
  refine Nat.div_le_div_right ((Nat.mod_le _ _).trans ?_)
  rw [Nat.mul_comm]
  exact Nat.mul_le_mul_left _ (Nat.mod_le _ _)

theorem toNat_sharePer_le (hfraction : worker.fractionPercent = 10)
    (hlength : (worker.receipts instant listed).length < 2 ^ 64) :
    (worker.sharePer mode instant listed manager).toNat ≤
      10 * worker.nodeBalance mode instant manager / 100 /
        (worker.receipts instant listed).length := by
  rw [sharePer, UInt64.toNat_div, UInt64.toNat_ofNat', Nat.mod_eq_of_lt hlength]
  exact Nat.div_le_div_right (toNat_payout_le hfraction)

theorem sharePer_mul_le (hlength : (worker.receipts instant listed).length < 2 ^ 64) :
    (worker.sharePer mode instant listed manager).toNat *
        (worker.receipts instant listed).length ≤
      (worker.payout mode instant manager).toNat := by
  rw [sharePer, UInt64.toNat_div, UInt64.toNat_ofNat', Nat.mod_eq_of_lt hlength]
  exact Nat.div_mul_le_self _ _

variable (lib mode) in
theorem pay_receipts_eq (hlength : (worker.receipts instant listed).length < 2 ^ 64)
    (paidOut : UInt64) (start : ℕ × ManaManager) :
    (if UInt64.ofNat (worker.receipts instant listed).length = 0 then some start
      else (worker.receipts instant listed).foldlM (worker.pay lib mode instant.secs
        (paidOut / UInt64.ofNat (worker.receipts instant listed).length)) start) =
      (worker.receipts instant listed).foldlM (worker.pay lib mode instant.secs
        (paidOut / UInt64.ofNat (worker.receipts instant listed).length)) start := by
  split
  · next hempty =>
    have hzero := congrArg UInt64.toNat hempty
    rw [UInt64.toNat_ofNat', Nat.mod_eq_of_lt hlength] at hzero
    rw [List.length_eq_zero_iff.mp hzero]
    rfl
  · rfl

theorem forms_iff (hfraction : worker.fractionPercent = 10)
    (hlength : (worker.receipts instant listed).length < 2 ^ 64) {word : UInt64}
    (hword : word.toNat = worker.nodeBalance mode instant manager)
    {state start : ℕ × ManaManager} :
    (if word = 0 then some start
      else (mode.mul word worker.fractionPercent).bind fun product =>
        if product / 100 = 0 then some start
        else (mode.sub instant.millis worker.periodMillis).bind fun since =>
          if UInt64.ofNat (queryEvents listed .receipt since).length = 0 then some start
          else (queryEvents listed .receipt since).foldlM (worker.pay lib mode instant.secs
            (product / 100 / UInt64.ofNat (queryEvents listed .receipt since).length)) start) =
        some state ↔
      (mode = .stop → 10 * worker.nodeBalance mode instant manager < 2 ^ 64 ∧
          (worker.payout mode instant manager ≠ 0 → worker.periodMillis ≤ instant.millis)) ∧
        (worker.reached mode instant listed manager).foldlM (worker.pay lib mode instant.secs
          (worker.sharePer mode instant listed manager)) start = some state := by
  have hpayout : worker.payout mode instant manager = word * 10 / 100 := by
    rw [payout, ← hword, hfraction, UInt64.ofNat_toNat]
  have hten : (10 : UInt64).toNat = 10 := rfl
  rw [← hword, reached, sharePer, hpayout, hfraction]
  by_cases hzero : word = 0
  · subst hzero
    have hnothing : (0 : UInt64) * 10 / 100 = 0 := rfl
    rw [if_pos rfl, if_pos hnothing]
    exact ⟨fun h => ⟨fun _ => ⟨Nat.two_pow_pos 64, fun hne => absurd hnothing hne⟩, h⟩,
      fun h => h.2⟩
  · rw [if_neg hzero, Option.bind_eq_some_iff]
    simp only [Overflow.mul_eq_some_iff, hten]
    by_cases hpaid : word * 10 / 100 = 0
    · rw [if_pos hpaid]
      constructor
      · rintro ⟨product, ⟨hfits, rfl⟩, h⟩
        rw [if_pos hpaid] at h
        exact ⟨fun hmode => ⟨by have := hfits hmode; omega, fun hne => absurd hpaid hne⟩, h⟩
      · rintro ⟨hforms, h⟩
        refine ⟨word * 10, ⟨fun hmode => by have := (hforms hmode).1; omega, rfl⟩, ?_⟩
        rw [if_pos hpaid]
        exact h
    · rw [if_neg hpaid]
      have hlast := pay_receipts_eq lib mode hlength (word * 10 / 100) start
      constructor
      · rintro ⟨product, ⟨hfits, rfl⟩, h⟩
        rw [if_neg hpaid] at h
        obtain ⟨since, hsince, h⟩ := Option.bind_eq_some_iff.mp h
        obtain ⟨hle, rfl⟩ := Overflow.sub_eq_some_iff.mp hsince
        rw [← receipts, hlast] at h
        exact ⟨fun hmode => ⟨by have := hfits hmode; omega, fun _ => hle hmode⟩, h⟩
      · rintro ⟨hforms, h⟩
        refine ⟨word * 10, ⟨fun hmode => by have := (hforms hmode).1; omega, rfl⟩, ?_⟩
        rw [if_neg hpaid]
        refine Option.bind_eq_some_iff.mpr ⟨_, Overflow.sub_eq_some_iff.mpr
          ⟨fun hmode => (hforms hmode).2 hpaid, rfl⟩, ?_⟩
        rw [← receipts, hlast]
        exact h

/-- A tick is stopped before the transfers, or it makes them for the receipts that are
reached. -/
theorem tick_eq_some_iff (hfraction : worker.fractionPercent = 10) (hcaps : manager.WithinCaps)
    (hlength : (worker.receipts instant listed).length < 2 ^ 64) {state : ℕ × ManaManager} :
    worker.tick lib mode instant listed manager = some state ↔
      (mode = .stop → worker.Starts mode instant manager) ∧ ∃ balance manager',
        manager.balanceIn mode worker.nodeScope instant.secs = some (balance, manager') ∧
          (worker.reached mode instant listed manager).foldlM
            (worker.pay lib mode instant.secs (worker.sharePer mode instant listed manager))
              (0, manager') = some state := by
  have hsome : (manager.balanceIn mode worker.nodeScope instant.secs).isSome ↔
      (mode = .stop → (manager.receiving worker.nodeScope 0 instant.secs).uncapped instant.secs <
        2 ^ 64) := ManaManager.isSome_balanceIn_iff hcaps worker.nodeScope 0
  refine Option.bind_eq_some_iff.trans ?_
  constructor
  · rintro ⟨⟨balance, manager'⟩, hbalance, h⟩
    obtain ⟨hword, -⟩ := ManaManager.of_balanceIn hbalance
    obtain ⟨hforms, h⟩ := (forms_iff hfraction hlength hword).mp h
    rw [hbalance] at hsome
    exact ⟨fun hmode => ⟨hsome.mp rfl hmode, (hforms hmode).1, (hforms hmode).2⟩,
      balance, manager', hbalance, h⟩
  · rintro ⟨hstarts, balance, manager', hbalance, h⟩
    obtain ⟨hword, -⟩ := ManaManager.of_balanceIn hbalance
    exact ⟨(balance, manager'), hbalance, (forms_iff hfraction hlength hword).mpr
      ⟨fun hmode => ⟨(hstarts hmode).payout, (hstarts hmode).since⟩, h⟩⟩

theorem toNat_sharePer_lt (hfraction : worker.fractionPercent = 10) :
    (worker.sharePer mode instant listed manager).toNat < 2 ^ 63 := by
  have hle : (worker.sharePer mode instant listed manager).toNat ≤
      (worker.payout mode instant manager).toNat := by
    rw [sharePer, UInt64.toNat_div]
    exact Nat.div_le_self _ _
  have hpayout : (worker.payout mode instant manager).toNat ≤
      10 * worker.nodeBalance mode instant manager / 100 := toNat_payout_le hfraction
  have hlt := ManaManager.holding_lt mode manager worker.nodeScope instant.secs
  rw [← nodeBalance] at hlt
  omega

theorem exists_budget (hfraction : worker.fractionPercent = 10) (hcaps : manager.WithinCaps)
    (hlength : (worker.receipts instant listed).length < 2 ^ 64)
    (hpayout : worker.payout mode instant manager ≠ 0) {balance : Option UInt64}
    (hbalance : manager.balanceIn mode worker.nodeScope instant.secs = some (balance, after)) :
    ∃ budget, worker.nodeBalance mode instant manager ≤
        budget + 10 * worker.nodeBalance mode instant manager / 100 ∧
      after.Ready worker.nodeScope instant.secs (budget +
        (worker.sharePer mode instant listed manager).toNat *
          (worker.receipts instant listed).length) := by
  have hshares : (worker.sharePer mode instant listed manager).toNat *
      (worker.receipts instant listed).length ≤ (worker.payout mode instant manager).toNat :=
    sharePer_mul_le hlength
  have htenth : (worker.payout mode instant manager).toNat ≤
      10 * worker.nodeBalance mode instant manager / 100 := toNat_payout_le hfraction
  have hpos : 0 < worker.nodeBalance mode instant manager := by
    refine Nat.pos_of_ne_zero fun hzero => hpayout ?_
    rw [← UInt64.toNat_inj]
    rw [hzero] at htenth
    exact Nat.le_zero.mp htenth
  obtain ⟨-, -, -, hready⟩ := ManaManager.of_balanceIn hbalance
  refine ⟨worker.nodeBalance mode instant manager -
    (worker.sharePer mode instant listed manager).toNat *
      (worker.receipts instant listed).length, by omega, ?_⟩
  refine (hready hcaps hpos).mono ?_
  rw [nodeBalance] at htenth ⊢
  omega

/-- A tick that makes its transfers: all are accepted and counted, the node keeps nine
tenths, and the pools of the others have been credited. -/
theorem of_tick (hfraction : worker.fractionPercent = 10) (hcaps : manager.WithinCaps)
    (hlength : (worker.receipts instant listed).length < 2 ^ 64)
    (h : worker.tick lib mode instant listed manager = some (count, after)) :
    worker.paid lib mode instant listed manager =
        (worker.reached mode instant listed manager).map (worker.originScope lib) ∧
      count = (worker.paid lib mode instant listed manager).length ∧
      worker.nodeBalance mode instant manager ≤ worker.nodeBalance mode instant after +
        10 * worker.nodeBalance mode instant manager / 100 ∧
      ∀ scope, scope ≠ worker.nodeScope →
        ManaPool.credits mode (worker.sharePer mode instant listed manager) instant.secs
            ((worker.paid lib mode instant listed manager).count scope)
            (manager.receiving scope (worker.sharePer mode instant listed manager) instant.secs) =
          some (after.receiving scope (worker.sharePer mode instant listed manager)
            instant.secs) := by
  obtain ⟨-, balance, manager', hbalance, h⟩ := (tick_eq_some_iff hfraction hcaps hlength).mp h
  obtain ⟨-, hreceiving, hholding, -⟩ := ManaManager.of_balanceIn hbalance
  rw [paid, hbalance]
  dsimp only
  by_cases hpayout : worker.payout mode instant manager = 0
  · rw [reached, if_pos hpayout] at h ⊢
    obtain ⟨rfl, rfl⟩ := Prod.mk.inj (Option.some.inj h)
    refine ⟨rfl, rfl, ?_, fun scope hscope => congrArg some (hreceiving scope _ hscope).symm⟩
    rw [nodeBalance, nodeBalance, hholding]
    exact Nat.le_add_right _ _
  · obtain ⟨budget, hbudget, hready⟩ :=
      exists_budget hfraction hcaps hlength hpayout hbalance
    rw [reached, if_neg hpayout] at h ⊢
    obtain ⟨hcount, hsucceeded, hrest, hcredits⟩ :=
      of_foldlM_pay (toNat_sharePer_lt hfraction) hready h
    rw [hsucceeded]
    refine ⟨rfl, ?_, hbudget.trans (Nat.add_le_add_right (hrest.le_holding mode) _), ?_⟩
    · rw [List.length_map]
      exact hcount.trans (Nat.zero_add _)
    · intro scope hscope
      rw [← hreceiving scope _ hscope]
      exact hcredits scope hscope

theorem LeavesRoom.isSome_tick (hfraction : worker.fractionPercent = 10)
    (hcaps : manager.WithinCaps) (hlength : (worker.receipts instant listed).length < 2 ^ 64)
    (h : worker.LeavesRoom lib mode instant listed manager) :
    ∃ count after, worker.tick lib mode instant listed manager = some (count, after) := by
  have hbalance : (manager.balanceIn mode worker.nodeScope instant.secs).isSome :=
    (ManaManager.isSome_balanceIn_iff hcaps worker.nodeScope 0).mpr fun hmode =>
      (h.starts hmode).balance
  obtain ⟨⟨balance, manager'⟩, hbalance⟩ := Option.isSome_iff_exists.mp hbalance
  obtain ⟨-, hreceiving, -⟩ := ManaManager.of_balanceIn hbalance
  have hpaid : ((worker.reached mode instant listed manager).foldlM
      (worker.pay lib mode instant.secs (worker.sharePer mode instant listed manager))
        (0, manager')).isSome := by
    have hroom := h.room
    rw [reached] at hroom ⊢
    by_cases hpayout : worker.payout mode instant manager = 0
    · rw [if_pos hpayout]
      rfl
    · rw [if_neg hpayout] at hroom ⊢
      obtain ⟨budget, -, hready⟩ := exists_budget hfraction hcaps hlength hpayout hbalance
      refine isSome_foldlM_pay (toNat_sharePer_lt hfraction) hready fun scope hscope => ?_
      rw [hreceiving scope _ hscope]
      by_cases hmem : scope ∈ (worker.receipts instant listed).map (worker.originScope lib)
      · obtain ⟨pool', hcredits, -⟩ := ManaPool.exists_credits (hroom scope hmem hscope).2
        exact Option.isSome_iff_exists.mpr ⟨pool', hcredits⟩
      · rw [List.count_eq_zero_of_not_mem hmem]
        rfl
  obtain ⟨⟨count, after⟩, hpaid⟩ := Option.isSome_iff_exists.mp hpaid
  exact ⟨count, after, (tick_eq_some_iff hfraction hcaps hlength).mpr
    ⟨h.starts, balance, manager', hbalance, hpaid⟩⟩

theorem LeavesRoom.paysFairly (hfraction : worker.fractionPercent = 10)
    (hcaps : manager.WithinCaps) (hlength : (worker.receipts instant listed).length < 2 ^ 64)
    (h : worker.LeavesRoom lib mode instant listed manager) :
    worker.PaysFairly lib mode instant listed manager := by
  obtain ⟨count, after, htick⟩ := h.isSome_tick hfraction hcaps hlength
  obtain ⟨hpaid, hcount, hnode, hcredits⟩ := of_tick hfraction hcaps hlength htick
  refine ⟨count, after, htick, hnode, fun scope hmem hscope => ?_, hcount⟩
  have hscoped := hcredits scope hscope
  rw [ManaManager.holding_eq mode after scope (worker.sharePer mode instant listed manager),
    ManaManager.holding_eq mode manager scope (worker.sharePer mode instant listed manager)]
  by_cases hreached : scope ∈
      (worker.reached mode instant listed manager).map (worker.originScope lib)
  · obtain ⟨hshare, hroom⟩ := h.room scope hreached hscope
    obtain ⟨pool', hpool', hreading⟩ := ManaPool.exists_credits hroom
    rw [hpaid, hpool', Option.some_inj] at hscoped
    rw [← hscoped, hreading, hshare, hpaid]
  · rw [hpaid, List.count_eq_zero_of_not_mem hreached] at hscoped ⊢
    rw [← Option.some.inj hscoped, Nat.mul_zero, Nat.add_zero]

theorem PaysFairly.leavesRoom (hfraction : worker.fractionPercent = 10)
    (hcaps : manager.WithinCaps) (hlength : (worker.receipts instant listed).length < 2 ^ 64)
    (h : worker.PaysFairly lib mode instant listed manager) :
    worker.LeavesRoom lib mode instant listed manager := by
  obtain ⟨count, after, htick, -, hgains, -⟩ := h
  obtain ⟨hpaid, -, -, hcredits⟩ := of_tick hfraction hcaps hlength htick
  refine ⟨((tick_eq_some_iff hfraction hcaps hlength).mp htick).1, fun scope hmem hscope => ?_⟩
  have hscoped := hcredits scope hscope
  have hreceipts : scope ∈ (worker.receipts instant listed).map (worker.originScope lib) := by
    rw [reached] at hmem
    split at hmem
    · cases hmem
    · exact hmem
  have hgain := hgains scope hreceipts hscope
  have hcount := List.count_pos_iff.mpr hmem
  rw [hpaid] at hscoped hgain
  rw [ManaManager.holding_eq mode after scope (worker.sharePer mode instant listed manager),
    ManaManager.holding_eq mode manager scope (worker.sharePer mode instant listed manager)]
    at hgain
  have hle := ManaPool.reading_credits_le hscoped
  have hshare : (worker.sharePer mode instant listed manager).toNat =
      10 * worker.nodeBalance mode instant manager / 100 /
        (worker.receipts instant listed).length := by
    exact le_antisymm (toNat_sharePer_le hfraction hlength)
      (Nat.le_of_mul_le_mul_right (by omega) hcount)
  exact ⟨hshare, ManaPool.hasRoom_of_credits (hcaps.receiving scope _ _) hcount hscoped
    (by rw [hgain, hshare])⟩

end Tick

theorem length_receipts_le (worker : DistributionWorker) (instant : Instant)
    (listed : Except String (List (DagNode Cid))) :
    (worker.receipts instant listed).length ≤ (listed.toOption.getD []).length :=
  List.length_filter_le _ _

/-- **Distribution.** Whatever is listed and whatever the pools hold, within their caps: a
tick pays fairly exactly if it is not stopped before the transfers and the caps of the
originators leave room for their shares. -/
theorem paysFairly_iff (lib : DidLibrary) (mode : Overflow) (nodeScope : ScopeKey)
    (identityIndex : Option IdentityIndex) (intervalSecs : UInt64) (instant : Instant)
    (listed : Except String (List (DagNode Cid)))
    (hlisted : (listed.toOption.getD []).length < 2 ^ 64) (manager : ManaManager)
    (hcaps : manager.WithinCaps) :
    (new nodeScope identityIndex intervalSecs).PaysFairly lib mode instant listed manager ↔
      (new nodeScope identityIndex intervalSecs).LeavesRoom lib mode instant listed manager := by
  have hlength := (length_receipts_le (new nodeScope identityIndex intervalSecs) instant
    listed).trans_lt hlisted
  exact ⟨fun h => h.leavesRoom rfl hcaps hlength, fun h => h.paysFairly rfl hcaps hlength⟩

def hundred : ManaManager := ManaManager.new.ensurePool (.cooperative "coopA") 100 1 0 0

theorem withinCaps_hundred : hundred.WithinCaps :=
  (ManaManager.sound_ensurePool .new _ 100 1 0 0).withinCaps fun _ _ h => by cases h

def userReceipt : DagNode String := ⟨"", none, .receipt, 1000, "fedA/coopA/did:icn:user1"⟩

theorem paysFairly_userReceipt :
    (new (.cooperative "coopA") none 60).PaysFairly base16Library .stop ⟨60000, 60⟩
      (.ok [userReceipt]) hundred := by
  have horigins : ((new (.cooperative "coopA") none 60).reached .stop ⟨60000, 60⟩
      (.ok [userReceipt]) hundred).map
        ((new (.cooperative "coopA") none 60).originScope base16Library) =
      [.individual "did:icn:user1"] := by decide
  refine (paysFairly_iff _ _ _ _ _ _ _ (by decide) _ withinCaps_hundred).mpr
    ⟨fun _ => ⟨by decide, by decide, by decide⟩, fun scope hmem hscope => ?_⟩
  rw [horigins] at hmem
  obtain rfl := List.mem_singleton.mp hmem
  exact ⟨by decide, by decide, by decide⟩

/-- The second receipt of an originator without a pool is worth nothing: the first one opened
a pool that is full. -/
theorem userReceipt_twice_not_paysFairly :
    ¬ (new (.cooperative "coopA") none 60).PaysFairly base16Library .stop ⟨60000, 60⟩
        (.ok [userReceipt, userReceipt]) hundred ∧
      ¬ (new (.cooperative "coopA") none 60).PaysFairly base16Library .wrap ⟨60000, 60⟩
        (.ok [userReceipt, userReceipt]) hundred := by
  constructor
  · intro h
    have hleaves := h.leavesRoom rfl withinCaps_hundred (by decide)
    exact absurd (hleaves.room (.individual "did:icn:user1") (by decide) (by decide)).2.2
      (by decide)
  · intro h
    have hleaves := h.leavesRoom rfl withinCaps_hundred (by decide)
    exact absurd (hleaves.room (.individual "did:icn:user1") (by decide) (by decide)).2.2
      (by decide)

end DistributionWorker

end Runtime

end Icn

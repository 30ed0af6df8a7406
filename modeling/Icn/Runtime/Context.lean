import Icn.Foundation.Map.Heap
import Icn.Foundation.Run.Sequential
import Icn.Foundation.Run.Simulation
import Icn.Economics.ManaLedger.Adapter

/-!
# The ledgers of a runtime context

A runtime context holds three components over a mana ledger: the regenerator,
the repository and the policy enforcer. Each has its own handle of a ledger, and
the ledgers live in a heap, so whether two components share one is a property of
their handles. The builder makes the repository and the enforcer over a new
ledger of its own when none is given, whatever ledger the regenerator has.

What a shared ledger would show is `sharedStep`: ticks and spends on one map.
-/

open Foundation

namespace Icn

namespace Runtime

open Identity Economics

abbrev Ledgers := Heap (HashMap Did ManaState)

structure Regenerator where
  ledger : ℕ
  policy : RegenerationPolicy
deriving DecidableEq, Repr

/-- A mana repository over the ledger behind a handle. -/
structure ManaRepository where
  ledger : ℕ
deriving DecidableEq, Repr

namespace ManaRepository

def recordUsage (repository : ManaRepository) (ledgers : Ledgers) (now : UInt64) (did : Did)
    (token : ScopedResourceToken) : Except String Unit × Ledgers :=
  let (result, inner) := ManaRepositoryAdapter.recordUsage inMemoryManaLedger
    (ledgers.read repository.ledger) now did token
  (result, ledgers.write repository.ledger inner)

def getUsage (repository : ManaRepository) (ledgers : Ledgers) (did : Did)
    (resourceType scope : String) : Except String UInt64 :=
  ManaRepositoryAdapter.getUsage inMemoryManaLedger (ledgers.read repository.ledger) did
    resourceType scope

end ManaRepository

/-- The components of a context that hold a ledger. The enforcer is known by the
repository boxed into it. -/
structure RuntimeContext where
  manaRegenerator : Option Regenerator
  policyEnforcer : ManaRepository
  manaRepository : ManaRepository
deriving DecidableEq, Repr

structure RuntimeContextBuilder where
  manaRegenerator : Option Regenerator
  policyEnforcer : Option ManaRepository
  manaRepository : Option ManaRepository
deriving DecidableEq, Repr

namespace RuntimeContextBuilder

def new : RuntimeContextBuilder where
  manaRegenerator := none
  policyEnforcer := none
  manaRepository := none

def withManaRegenerator (builder : RuntimeContextBuilder) (regen : Regenerator) :
    RuntimeContextBuilder :=
  { builder with manaRegenerator := some regen }

def withPolicyEnforcer (builder : RuntimeContextBuilder) (enforcer : ManaRepository) :
    RuntimeContextBuilder :=
  { builder with policyEnforcer := some enforcer }

def withManaRepository (builder : RuntimeContextBuilder) (repository : ManaRepository) :
    RuntimeContextBuilder :=
  { builder with manaRepository := some repository }

/-- The default repository and the default enforcer share a ledger that nothing
else refers to. -/
def build (builder : RuntimeContextBuilder) (ledgers : Ledgers) : RuntimeContext × Ledgers :=
  let (defaultLedgerForBuilder, ledgers) := ledgers.alloc ∅
  ({ manaRegenerator := builder.manaRegenerator
     policyEnforcer := builder.policyEnforcer.getD ⟨defaultLedgerForBuilder⟩
     manaRepository := builder.manaRepository.getD ⟨defaultLedgerForBuilder⟩ }, ledgers)

end RuntimeContextBuilder

end Runtime

structure Runtime where
  context : Runtime.RuntimeContext
deriving DecidableEq, Repr

namespace Runtime

open Identity Economics

def new (ledgers : Ledgers) : Runtime × Ledgers :=
  let (ledger, ledgers) := ledgers.alloc ∅
  let policy := RegenerationPolicy.fixedRatePerTick 10
  let regenerator : Regenerator := ⟨ledger, policy⟩
  let (context, ledgers) :=
    (RuntimeContextBuilder.new.withManaRegenerator regenerator).build ledgers
  (⟨context⟩, ledgers)

def tickMana (runtime : Runtime) (order : Finset Did → List Did) (ledgers : Ledgers) :
    Except String Unit × Ledgers :=
  match runtime.context.manaRegenerator with
  | some regenerator =>
      let (result, inner) := ManaRegenerator.tick inMemoryManaLedger regenerator.policy order
        (ledgers.read regenerator.ledger)
      match result with
      | .ok _ => (.ok (), ledgers.write regenerator.ledger inner)
      | .error e =>
          (.error s!"Mana regeneration tick failed: {e}",
            ledgers.write regenerator.ledger inner)
  | none => (.ok (), ledgers)

/-- A call that changes mana. A tick lists its ledger in some order. -/
inductive ManaCall where
  | tickMana (order : Finset Did → List Did) (h : ManaRegenerator.Lists order)
  | recordUsage (now : UInt64) (did : Did) (token : ScopedResourceToken)

def step (runtime : Runtime) (ledgers : Ledgers) : ManaCall → Ledgers
  | .tickMana order _ => (runtime.tickMana order ledgers).2
  | .recordUsage now did token =>
      (runtime.context.manaRepository.recordUsage ledgers now did token).2

def sharedStep (policy : RegenerationPolicy) (inner : HashMap Did ManaState) :
    ManaCall → HashMap Did ManaState
  | .tickMana order _ => (ManaRegenerator.tick inMemoryManaLedger policy order inner).2
  | .recordUsage now did token =>
      (ManaRepositoryAdapter.recordUsage inMemoryManaLedger inner now did token).2

/-- After every sequence of calls the repository shows the mana that the DID has
on one ledger, begun as the regenerator's. -/
def Reflects (runtime : Runtime) (regenerator : Regenerator) (ledgers : Ledgers)
    (did : Did) : Prop :=
  ∀ calls scope, runtime.context.manaRepository.getUsage
      (Run.run runtime.step ledgers calls) did "mana" scope =
    .ok (currentMana (Run.run (sharedStep regenerator.policy)
      (ledgers.read regenerator.ledger) calls) did)

/-- The DID has no mana and no tick can give it any. -/
def Idle (policy : RegenerationPolicy) (inner : HashMap Did ManaState) (did : Did) : Prop :=
  currentMana inner did = 0 ∧ (policy.regenAmount = 0 ∨ maxMana inner did = 0)

theorem currentMana_recordUsage_eq_zero {inner : HashMap Did ManaState} {did : Did}
    (h : currentMana inner did = 0) (now : UInt64) (spender : Did)
    (token : ScopedResourceToken) :
    currentMana (ManaRepositoryAdapter.recordUsage inMemoryManaLedger inner now spender token).2
      did = 0 := by
  rcases hrecord : ManaRepositoryAdapter.recordUsage inMemoryManaLedger inner now spender token
    with ⟨result, inner'⟩
  rcases ManaRepositoryAdapter.recordUsage_cases now hrecord with
    ⟨e, -, rfl⟩ | ⟨state, -, rfl, hsum⟩
  · exact h
  · by_cases hspender : did = spender
    · subst hspender
      rw [h, UInt64.toNat_zero] at hsum
      rw [currentMana_insert_self, ← UInt64.toNat_inj, UInt64.toNat_zero]
      omega
    · rw [currentMana_insert_of_ne inner state hspender]
      exact h

theorem currentMana_tick_eq_zero_iff {policy : RegenerationPolicy}
    {inner : HashMap Did ManaState} {did : Did} (h : currentMana inner did = 0)
    {order : Finset Did → List Did} (horder : ManaRegenerator.Lists order) :
    currentMana (ManaRegenerator.tick inMemoryManaLedger policy order inner).2 did = 0 ↔
      policy.regenAmount = 0 ∨ maxMana inner did = 0 := by
  rw [currentMana_tick policy horder, h, UInt64.zero_add, Word.min_eq_zero_iff]

theorem Idle.sharedStep {policy : RegenerationPolicy} {inner : HashMap Did ManaState} {did : Did}
    (h : Idle policy inner did) (call : ManaCall) :
    Idle policy (Runtime.sharedStep policy inner call) did := by
  cases call with
  | tickMana order horder =>
      refine ⟨(currentMana_tick_eq_zero_iff h.1 horder).mpr h.2, ?_⟩
      simp only [Runtime.sharedStep, maxMana_tick policy horder]
      exact h.2
  | recordUsage now spender token =>
      refine ⟨currentMana_recordUsage_eq_zero h.1 now spender token, ?_⟩
      simp only [Runtime.sharedStep, ManaRepositoryAdapter.maxMana_recordUsage]
      exact h.2

variable {runtime : Runtime} {regenerator : Regenerator} {ledgers : Ledgers} {did : Did}

theorem getUsage_eq (repository : ManaRepository) (ledgers : Ledgers) (did : Did)
    (scope : String) : repository.getUsage ledgers did "mana" scope =
      .ok (currentMana (ledgers.read repository.ledger) did) := rfl

theorem tickMana_eq (hregenerator : runtime.context.manaRegenerator = some regenerator)
    (order : Finset Did → List Did) (ledgers : Ledgers) :
    (runtime.tickMana order ledgers).2 = ledgers.write regenerator.ledger
      (ManaRegenerator.tick inMemoryManaLedger regenerator.policy order
        (ledgers.read regenerator.ledger)).2 := by
  simp only [tickMana, hregenerator]
  split
  · rfl
  · rfl

/-- Over one ledger for both, the repository shows every tick and every spend. -/
theorem reflects_of_shared_ledger
    (hregenerator : runtime.context.manaRegenerator = some regenerator)
    (hshared : runtime.context.manaRepository.ledger = regenerator.ledger) (ledgers : Ledgers)
    (did : Did) : runtime.Reflects regenerator ledgers did := by
  intro calls scope
  have hread : (Run.run runtime.step ledgers calls).read regenerator.ledger =
      Run.run (sharedStep regenerator.policy) (ledgers.read regenerator.ledger) calls := by
    refine Run.run_of_simulation
      (fun (ledgers : Ledgers) inner => ledgers.read regenerator.ledger = inner) ?_ rfl calls
    rintro ledgers inner call rfl
    cases call with
    | tickMana order horder =>
        rw [step, tickMana_eq hregenerator, Heap.read_write_self]
        rfl
    | recordUsage now spender token =>
        rw [step, ManaRepository.recordUsage, hshared, Heap.read_write_self]
        rfl
  rw [getUsage_eq, hshared, hread]

/-- A repository over a ledger of its own that begins empty shows no mana, so it
shows what the regenerator's ledger would exactly when there is none to show. -/
theorem reflects_iff_idle (runtime : Runtime)
    (hregenerator : runtime.context.manaRegenerator = some regenerator)
    (hown : runtime.context.manaRepository.ledger ≠ regenerator.ledger)
    (hempty : currentMana (ledgers.read runtime.context.manaRepository.ledger) did = 0) :
    runtime.Reflects regenerator ledgers did ↔
      Idle regenerator.policy (ledgers.read regenerator.ledger) did := by
  have husage : ∀ calls, currentMana
      ((Run.run runtime.step ledgers calls).read runtime.context.manaRepository.ledger)
        did = 0 := by
    intro calls
    refine Run.invariant (I := fun ledgers : Ledgers =>
      currentMana (ledgers.read runtime.context.manaRepository.ledger) did = 0) ?_ hempty calls
    intro ledgers call h
    cases call with
    | tickMana order horder =>
        rw [step, tickMana_eq hregenerator, Heap.read_write_of_ne _ _ hown]
        exact h
    | recordUsage now spender token =>
        rw [step, ManaRepository.recordUsage, Heap.read_write_self]
        exact currentMana_recordUsage_eq_zero h now spender token
  constructor
  · intro h
    have hlists := ManaRegenerator.lists_toList
    have hstart := h [] ""
    have htick := h [.tickMana Finset.toList hlists] ""
    rw [getUsage_eq, husage] at hstart htick
    have hzero := (Except.ok.inj hstart).symm
    exact ⟨hzero, (currentMana_tick_eq_zero_iff hzero hlists).mp (Except.ok.inj htick).symm⟩
  · intro h calls scope
    have hidle := Run.invariant (I := fun inner => Idle regenerator.policy inner did)
      (fun _ call hidle => hidle.sharedStep call) h calls
    rw [getUsage_eq, husage, hidle.1]

/-- A repository made by the builder shows the regenerated and spent mana of a DID
exactly when the regenerator's ledger has none for it and never will. -/
theorem reflects_build_iff (builder : RuntimeContextBuilder) {regenerator : Regenerator}
    (hregenerator : builder.manaRegenerator = some regenerator)
    (hrepository : builder.manaRepository = none) (ledgers : Ledgers)
    (hledger : regenerator.ledger < ledgers.next) (inner : HashMap Did ManaState) (did : Did) :
    Reflects ⟨(builder.build ledgers).1⟩ regenerator
        ((builder.build ledgers).2.write regenerator.ledger inner) did ↔
      Idle regenerator.policy inner did := by
  have hrepo : (builder.build ledgers).1.manaRepository = ⟨ledgers.next⟩ := by
    rw [RuntimeContextBuilder.build, hrepository]
    rfl
  have hown : (builder.build ledgers).1.manaRepository.ledger ≠ regenerator.ledger := by
    rw [hrepo]
    exact hledger.ne'
  have hfresh : (builder.build ledgers).2.read ledgers.next = ∅ := Heap.read_alloc ledgers ∅
  have hempty : currentMana (((builder.build ledgers).2.write regenerator.ledger inner).read
      (builder.build ledgers).1.manaRepository.ledger) did = 0 := by
    rw [Heap.read_write_of_ne _ _ hown, hrepo, hfresh]
    rfl
  have hiff := reflects_iff_idle ⟨(builder.build ledgers).1⟩ hregenerator hown hempty
  rwa [Heap.read_write_self] at hiff

/-- Over every builder with a regenerator and no repository, and over every new
runtime: the repository reflects the ticks and the spends of a DID exactly when
it has no mana on the regenerator's ledger and no tick can give it any. -/
theorem repository_reflects_iff_idle (ledgers : Ledgers) (inner : HashMap Did ManaState)
    (did : Did) :
    (∀ (builder : RuntimeContextBuilder) (regenerator : Regenerator),
        builder.manaRegenerator = some regenerator → builder.manaRepository = none →
        regenerator.ledger < ledgers.next →
        (Reflects ⟨(builder.build ledgers).1⟩ regenerator
            ((builder.build ledgers).2.write regenerator.ledger inner) did ↔
          Idle regenerator.policy inner did)) ∧
      ∀ regenerator : Regenerator,
        (new ledgers).1.context.manaRegenerator = some regenerator →
        ((new ledgers).1.Reflects regenerator
            ((new ledgers).2.write regenerator.ledger inner) did ↔
          currentMana inner did = 0 ∧ maxMana inner did = 0) := by
  constructor
  · intro builder regenerator hregenerator hrepository hledger
    exact reflects_build_iff builder hregenerator hrepository ledgers hledger inner did
  · intro regenerator hregenerator
    obtain rfl : (⟨ledgers.next, .fixedRatePerTick 10⟩ : Regenerator) = regenerator :=
      Option.some.inj hregenerator
    have hiff := reflects_build_iff (RuntimeContextBuilder.new.withManaRegenerator
      ⟨ledgers.next, .fixedRatePerTick 10⟩) rfl rfl (ledgers.alloc ∅).2
      (Nat.lt_succ_self ledgers.next) inner did
    have hrate : (RegenerationPolicy.fixedRatePerTick 10).regenAmount ≠ 0 := by decide
    exact hiff.trans (and_congr_right' (or_iff_right hrate))

def noLedgers : Ledgers := ⟨0, fun _ => ∅⟩

def drainedMana : HashMap Did ManaState :=
  (∅ : HashMap Did ManaState).insert ⟨"did:icn:alice"⟩ ⟨0, 100, 0, 0⟩

theorem repository_reflects_iff_idle_drainedMana :
    (RuntimeContextBuilder.new.withManaRegenerator ⟨0, .fixedRatePerTick 0⟩).manaRegenerator =
        some ⟨0, .fixedRatePerTick 0⟩ ∧
      (0 : ℕ) < (noLedgers.alloc ∅).2.next ∧
      Reflects ⟨((RuntimeContextBuilder.new.withManaRegenerator
          ⟨0, .fixedRatePerTick 0⟩).build (noLedgers.alloc ∅).2).1⟩ ⟨0, .fixedRatePerTick 0⟩
        (((RuntimeContextBuilder.new.withManaRegenerator
          ⟨0, .fixedRatePerTick 0⟩).build (noLedgers.alloc ∅).2).2.write 0 drainedMana)
        ⟨"did:icn:alice"⟩ :=
  ⟨rfl, by decide,
    ((repository_reflects_iff_idle (noLedgers.alloc ∅).2 drainedMana ⟨"did:icn:alice"⟩).1
      (RuntimeContextBuilder.new.withManaRegenerator ⟨0, .fixedRatePerTick 0⟩)
      ⟨0, .fixedRatePerTick 0⟩ rfl rfl (by decide)).mpr ⟨rfl, .inl rfl⟩⟩

/-- After a tick of a new runtime its ledger shows ten mana and its repository
none. -/
theorem not_reflects_drainedMana :
    ¬ (new noLedgers).1.Reflects ⟨0, .fixedRatePerTick 10⟩
      ((new noLedgers).2.write 0 drainedMana) ⟨"did:icn:alice"⟩ := by
  intro h
  have hiff := reflects_build_iff (RuntimeContextBuilder.new.withManaRegenerator
    ⟨0, .fixedRatePerTick 10⟩) rfl rfl (noLedgers.alloc ∅).2
    (Nat.lt_succ_self 0) drainedMana ⟨"did:icn:alice"⟩
  rcases (hiff.mp h).2 with hrate | hmax
  · exact absurd hrate (by decide)
  · exact absurd hmax (by decide)

end Runtime

end Icn

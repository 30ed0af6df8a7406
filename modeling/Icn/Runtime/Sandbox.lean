import Icn.Foundation.Run.Budget
import Icn.Foundation.Run.Simulation
import Icn.Runtime.HostInterface

/-!
# Programs in the sandbox

Between two calls a program stores into its memory and lets it grow as it likes, and it
may call the host with any numbers. `guestStep` is one of these steps.

The host keeps a program to itself: its job has one open section at most, only its
caller pays, and exactly what was granted, and only the identifier of a submitted job is
written into its memory (`confined_run`). Several programs over the ledger of one runtime
do not notice each other if their callers are not the same (`alone_run`).
-/

open Foundation

namespace Icn

namespace Runtime

open Codec Wasm Ccl Identity Economics
open Effect ConcreteHostEnvironment

inductive GuestStep where
  | store (address : ℕ) (bytes : List UInt8)
  | grow (size : ℕ)
  | call (c : HostCall)
deriving DecidableEq

def HostState.withMemory (s : HostState) (f : Linear → Linear) : HostState :=
  { s with memory := s.memory.map f }

def guestStep (lib : HostLibrary) (host : ConcreteHostEnvironment) (s : HostState) :
    GuestStep → Option (Except HostAbiError Int32) × HostState
  | .store address bytes => (none, s.withMemory fun m => (m.write address bytes).getD m)
  | .grow size => (none, s.withMemory fun m => m ++ List.replicate size 0)
  | .call c => (some (exec (call lib host c) s).1, (exec (call lib host c) s).2)

def HostCommand.cost : HostCommand → ℕ
  | .useResource _ amount => amount.toNat
  | _ => 0

def HostCall.cost : HostCall → ℕ
  | .useResource _ _ amount => amount.toNat
  | _ => 0

def granted (lib : HostLibrary) (host : ConcreteHostEnvironment) (s : HostState) :
    GuestStep → ℕ
  | .call c =>
      match (exec (call lib host c) s).1 with
      | .ok _ => c.cost
      | .error _ => 0
  | _ => 0

/-- The address is one that the step may write to. -/
def GuestStep.Writes (i : ℕ) : GuestStep → Prop
  | .store address bytes => address ≤ i ∧ i < address + bytes.length
  | .call (.submitMeshJob _ _ jobIdBufferPtr _) =>
      jobIdBufferPtr.toNat ≤ i ∧ i < jobIdBufferPtr.toNat + (utf8 jobId).length
  | _ => False

/-- The byte is in the memory of the program, at an address. -/
def ByteAt (s : HostState) (i : ℕ) (byte : UInt8) : Prop :=
  ∃ m, s.memory = some m ∧ m[i]? = some byte

section Performed

variable {lib : HostLibrary} {host : ConcreteHostEnvironment} {command : HostCommand}
  {c : HostCall} {answer : Int32} {s s' : HostState}

theorem cost_of_passes (h : Passes lib s.memory command c) : command.cost = c.cost := by
  cases c <;> grind [Passes, HostCommand.cost, HostCall.cost]

theorem exists_call_of_passes {cborPayload : List UInt8} {jobIdBufferPtr jobIdBufferLen : UInt32}
    (h : Passes lib s.memory (.submitMeshJob cborPayload jobIdBufferPtr jobIdBufferLen) c) :
    ∃ cborPayloadPtr cborPayloadLen,
      c = .submitMeshJob cborPayloadPtr cborPayloadLen jobIdBufferPtr jobIdBufferLen := by
  cases c <;> grind [Passes]

theorem Performed.length_sectionStack_le (h : Performed host s command answer s')
    (hs : s.ctx.sectionStack.length ≤ 1) : s'.ctx.sectionStack.length ≤ 1 := by
  cases h with
  | noted _ _ => exact hs
  | beginSection _ => exact le_rfl
  | endSection =>
      rw [List.length_tail]
      omega
  | setProperty hstack =>
      rw [hstack] at hs
      exact hs
  | useResource _ => exact hs
  | submitMeshJob _ _ _ => exact hs

theorem Performed.lookup_of_ne (h : Performed host s command answer s') {did : Did}
    (hne : did ≠ host.callerDid) : s'.ledger.lookup did = s.ledger.lookup did := by
  cases h with
  | useResource _ => exact Finmap.lookup_insert_of_ne _ hne
  | _ => rfl

theorem Performed.currentMana_add_cost (h : Performed host s command answer s') :
    (currentMana s'.ledger host.callerDid).toNat + command.cost =
      (currentMana s.ledger host.callerDid).toNat := by
  cases h with
  | noted hacts _ => cases command <;> first | rfl | cases hacts
  | @useResource amount hle =>
      have hsub := UInt64.toNat_sub_of_le _ _ hle
      rw [UInt64.le_iff_toNat_le] at hle
      rw [currentMana_insert_self, HostCommand.cost, debited, hsub]
      omega
  | _ => rfl

theorem Performed.maxMana_eq (h : Performed host s command answer s') (did : Did) :
    maxMana s'.ledger did = maxMana s.ledger did := by
  cases h with
  | useResource _ =>
      rw [maxMana, maxMana, HashMap.lookup_insert_eq_ite]
      split
      · next heq =>
        rw [heq, debited]
        cases s.ledger.lookup host.callerDid <;> rfl
      · rfl
  | _ => rfl

theorem Performed.byteAt (h : Performed host s command answer s')
    (hpasses : Passes lib s.memory command c) {i : ℕ} {byte : UInt8}
    (hi : ¬ (GuestStep.call c).Writes i) (hbyte : ByteAt s i byte) : ByteAt s' i byte := by
  cases h with
  | @submitMeshJob cborPayload jobIdBufferPtr jobIdBufferLen m m' hmemory hfits hwrite =>
      obtain ⟨cborPayloadPtr, cborPayloadLen, rfl⟩ := exists_call_of_passes hpasses
      obtain ⟨m, hm, hbyte⟩ := hbyte
      obtain rfl := Option.some.inj (hm.symm.trans hmemory)
      refine ⟨m', rfl, ?_⟩
      rw [Linear.getElem?_of_write hwrite, hbyte]
      unfold GuestStep.Writes at hi
      omega
  | _ => exact hbyte

end Performed

section Confined

variable (lib : HostLibrary) (host : ConcreteHostEnvironment)

/-- What one step of the program changes. -/
structure Confined (s s' : HostState) (step : GuestStep) (amount : ℕ) : Prop where
  oneSection : s.ctx.sectionStack.length ≤ 1 → s'.ctx.sectionStack.length ≤ 1
  others : ∀ did, did ≠ host.callerDid → s'.ledger.lookup did = s.ledger.lookup did
  paid : (currentMana s'.ledger host.callerDid).toNat + amount =
    (currentMana s.ledger host.callerDid).toNat
  limits : ∀ did, maxMana s'.ledger did = maxMana s.ledger did
  bytes : ∀ i byte, ¬ step.Writes i → ByteAt s i byte → ByteAt s' i byte

theorem confined_withMemory (s : HostState) (step : GuestStep) {f : Linear → Linear}
    (hf : ∀ (m : Linear) i byte, ¬ step.Writes i → m[i]? = some byte → (f m)[i]? = some byte) :
    Confined host s (s.withMemory f) step 0 where
  oneSection := id
  others _ _ := rfl
  paid := rfl
  limits _ := rfl
  bytes := by
    rintro i byte hi ⟨m, hm, hbyte⟩
    refine ⟨f m, ?_, hf m i byte hi hbyte⟩
    rw [HostState.withMemory, hm]
    rfl

theorem confined_guestStep (s : HostState) (step : GuestStep) :
    Confined host s (guestStep lib host s step).2 step (granted lib host s step) := by
  cases step with
  | store address bytes =>
      refine confined_withMemory host s _ fun m i byte hi hbyte => ?_
      cases hwrite : m.write address bytes with
      | none => exact hbyte
      | some m' =>
          rw [Option.getD_some, Linear.getElem?_of_write hwrite, hbyte]
          unfold GuestStep.Writes at hi
          omega
  | grow size =>
      refine confined_withMemory host s _ fun m i byte _ hbyte => ?_
      rw [List.getElem?_append_left (List.getElem?_eq_some_iff.mp hbyte).1, hbyte]
  | call c =>
      rw [guestStep, granted]
      rcases h : exec (call lib host c) s with ⟨e | answer, s'⟩
      · obtain rfl := atomic_call lib host c s e s' h
        exact ⟨id, fun _ _ => rfl, rfl, fun _ => rfl, fun _ _ _ hbyte => hbyte⟩
      · obtain ⟨command, hpasses, hperformed⟩ := (exec_call_eq_ok_iff lib host c).mp h
        refine ⟨hperformed.length_sectionStack_le, fun did => hperformed.lookup_of_ne, ?_,
          hperformed.maxMana_eq, fun i byte => hperformed.byteAt hpasses⟩
        rw [← cost_of_passes hpasses]
        exact hperformed.currentMana_add_cost

def guestRun (s : HostState) (steps : List GuestStep) : HostState :=
  Run.run (fun s step => (guestStep lib host s step).2) s steps

def grantedIn (s : HostState) (steps : List GuestStep) : ℕ :=
  Run.total (fun s step => (guestStep lib host s step).2) (granted lib host) s steps

/-- **A program stays in its sandbox.** Whatever a program stores and however it calls the
host, its job has at most one open section; no mana but its caller's changes, and the
caller pays exactly what the program was granted; no limit changes; and a byte of its
memory that neither the program stores to nor lies in the buffer of a submitted job stays
what it was. -/
theorem confined_run {s : HostState} (hs : s.ctx.sectionStack.length ≤ 1)
    (steps : List GuestStep) :
    (guestRun lib host s steps).ctx.sectionStack.length ≤ 1 ∧
      (∀ did, did ≠ host.callerDid →
        (guestRun lib host s steps).ledger.lookup did = s.ledger.lookup did) ∧
      (currentMana (guestRun lib host s steps).ledger host.callerDid).toNat +
          grantedIn lib host s steps = (currentMana s.ledger host.callerDid).toNat ∧
      (∀ did, maxMana (guestRun lib host s steps).ledger did = maxMana s.ledger did) ∧
      ∀ i byte, (∀ step ∈ steps, ¬ step.Writes i) → ByteAt s i byte →
        ByteAt (guestRun lib host s steps) i byte := by
  have hstep := confined_guestStep lib host
  refine ⟨?_, ?_, ?_, ?_, ?_⟩
  · exact Run.invariant (fun s step => (hstep s step).oneSection) hs steps
  · intro did hne
    exact Run.invariant (I := fun s' => s'.ledger.lookup did = s.ledger.lookup did)
      (fun s step h => ((hstep s step).others did hne).trans h) rfl steps
  · have htotal := fun store : HostState → ℕ => @Run.store_add_total_eq _ _ _ _
      (fun s step => (guestStep lib host s step).2) (fun _ => True) store (granted lib host)
    exact htotal (fun s => (currentMana s.ledger host.callerDid).toNat) (fun _ _ _ => trivial)
      (fun s step _ => (hstep s step).paid) trivial steps
  · intro did
    exact Run.invariant (I := fun s' => maxMana s'.ledger did = maxMana s.ledger did)
      (fun s step h => ((hstep s step).limits did).trans h) rfl steps
  · intro i byte hwrites hbyte
    exact Run.invariant_of_along (P := fun _ step => ¬ step.Writes i)
      (I := fun s' => ByteAt s' i byte)
      (fun s step h hi => (hstep s step).bytes i byte hi h) hbyte
      (Run.along_of_forall_mem hwrites)

def plainLibrary : HostLibrary where
  did := base16Library
  accessError := "out of bounds memory access"
  utf8Error _ := "invalid utf-8 sequence"
  debug _ := "Individual"

def individualHost (did : Did) : ConcreteHostEnvironment :=
  ⟨did, none, none, none, none⟩

def fundedState : HostState :=
  ⟨some (List.replicate 32 0), .new, (∅ : HashMap Did ManaState).insert ⟨"did:icn:alice"⟩
    ⟨100, 100, 0, 0⟩⟩

def spendingSteps : List GuestStep :=
  [.store 0 (utf8 "mana"), .call (.useResource 0 4 30), .call (.useResource 0 4 80),
    .call (.submitMeshJob 0 0 8 20)]

theorem confined_run_spendingSteps :
    fundedState.ctx.sectionStack.length ≤ 1 ∧
      (guestRun plainLibrary (individualHost ⟨"did:icn:alice"⟩) fundedState
        spendingSteps).ctx.sectionStack.length ≤ 1 ∧
      (currentMana (guestRun plainLibrary (individualHost ⟨"did:icn:alice"⟩) fundedState
          spendingSteps).ledger ⟨"did:icn:alice"⟩).toNat +
        grantedIn plainLibrary (individualHost ⟨"did:icn:alice"⟩) fundedState spendingSteps =
          100 := by
  have hrun := confined_run plainLibrary (individualHost ⟨"did:icn:alice"⟩)
    (show fundedState.ctx.sectionStack.length ≤ 1 from Nat.zero_le 1) spendingSteps
  exact ⟨Nat.zero_le 1, hrun.1, hrun.2.2.1⟩

end Confined

section Alone

variable (lib : HostLibrary)

/-- Two states that a program cannot tell apart, if its caller has the identifier. -/
structure AlikeFor (did : Did) (s t : HostState) : Prop where
  memory : s.memory = t.memory
  ctx : s.ctx = t.ctx
  mana : s.ledger.lookup did = t.ledger.lookup did

variable {did : Did}

theorem respects_getMemory : Respects (AlikeFor did) getMemory := by
  intro s t h
  rw [getMemory, exec_bind_of_ok (exec_get s), exec_bind_of_ok (exec_get t), h.memory]
  cases t.memory <;> exact ⟨rfl, h⟩

theorem respects_method
    (method : JobExecutionContext → Except HostAbiError JobExecutionContext) :
    Respects (AlikeFor did) (do
      withContext method
      return (0 : Int32)) := by
  refine .bind (fun s t h => ?_) fun _ => respects_pure 0
  rw [withContext, exec_bind_of_ok (exec_get s), exec_bind_of_ok (exec_get t), h.ctx]
  cases method t.ctx with
  | error e => exact ⟨rfl, h⟩
  | ok ctx => exact ⟨rfl, h.memory, rfl, h.mana⟩

theorem respects_writeStringToMemCtx (memory : Linear) (text : String) (ptr len : UInt32) :
    Respects (AlikeFor did) (writeStringToMemCtx lib memory text ptr len) := by
  rw [writeStringToMemCtx]
  split
  · exact respects_throw _
  · split
    · exact .bind (respects_modify fun s t h => ⟨rfl, h.ctx, h.mana⟩) fun _ => respects_pure _
    · exact respects_throw _

theorem recordUsage_alike {ledger ledger' : HashMap Did ManaState}
    (h : ledger.lookup did = ledger'.lookup did) (token : ScopedResourceToken) :
    (ManaRepositoryAdapter.recordUsage inMemoryManaLedger ledger 0 did token).1 =
        (ManaRepositoryAdapter.recordUsage inMemoryManaLedger ledger' 0 did token).1 ∧
      (ManaRepositoryAdapter.recordUsage inMemoryManaLedger ledger 0 did token).2.lookup did =
        (ManaRepositoryAdapter.recordUsage inMemoryManaLedger ledger' 0 did token).2.lookup
          did := by
  have hread : inMemoryManaLedger.getManaState ledger did =
      inMemoryManaLedger.getManaState ledger' did := congrArg Except.ok h
  simp only [ManaRepositoryAdapter.recordUsage, ManaRepositoryAdapter.spend, hread]
  cases ManaRepositoryAdapter.checkResourceType token.resourceType with
  | error e => exact ⟨rfl, h⟩
  | ok u =>
      cases ManaRepositoryAdapter.debit did token (inMemoryManaLedger.getManaState ledger' did) with
      | error e => exact ⟨rfl, h⟩
      | ok state =>
          refine ⟨rfl, ?_⟩
          exact (Finmap.lookup_insert ledger).trans (Finmap.lookup_insert ledger').symm

theorem respects_useMana (host : ConcreteHostEnvironment) (resourceType : String)
    (amount : UInt64) :
    Respects (AlikeFor host.callerDid) (do
      host.recordUsage resourceType (host.manaToken lib amount)
      return (0 : Int32)) := by
  refine .bind (fun s t h => ?_) fun _ => respects_pure 0
  obtain ⟨hresult, hmana⟩ := recordUsage_alike h.mana (host.manaToken lib amount)
  rcases hs : ManaRepositoryAdapter.recordUsage inMemoryManaLedger s.ledger 0 host.callerDid
    (host.manaToken lib amount) with ⟨result, ledger⟩
  rcases ht : ManaRepositoryAdapter.recordUsage inMemoryManaLedger t.ledger 0 host.callerDid
    (host.manaToken lib amount) with ⟨result', ledger'⟩
  rw [hs, ht] at hresult hmana
  obtain rfl : result = result' := hresult
  rw [exec_recordUsage host hs, exec_recordUsage host ht]
  exact ⟨rfl, h.memory, h.ctx, hmana⟩

theorem respects_call (host : ConcreteHostEnvironment) (c : HostCall) :
    Respects (AlikeFor host.callerDid) (call lib host c) := by
  cases c with
  | beginSection kindPtr kindLen titlePtr titleLen =>
      exact .bind respects_getMemory fun _ => .liftM_bind fun _ => .liftM_bind fun _ =>
        respects_method _
  | endSection => exact respects_method _
  | setProperty keyPtr keyLen valueJsonPtr valueJsonLen =>
      exact .bind respects_getMemory fun _ => .liftM_bind fun _ => .liftM_bind fun _ =>
        respects_method _
  | anchorData pathPtr pathLen dataRefPtr dataRefLen =>
      exact .bind respects_getMemory fun _ => .liftM_bind fun _ => .liftM_bind fun _ =>
        respects_method _
  | genericCall fnNamePtr fnNameLen argsPayloadPtr argsPayloadLen =>
      exact .bind respects_getMemory fun _ => .liftM_bind fun _ => .liftM_bind fun _ =>
        respects_method _
  | createProposal idPtr idLen titlePtr titleLen versionPtr versionLen =>
      exact .bind respects_getMemory fun _ => .liftM_bind fun _ => .liftM_bind fun _ =>
        .liftM_bind fun _ => respects_method _
  | mintToken resourceTypePtr resourceTypeLen amount recipientDidPtr recipientDidLen dataJsonPtr
      dataJsonLen =>
      exact .bind respects_getMemory fun _ => .liftM_bind fun _ => .liftM_bind fun _ =>
        .liftM_bind fun _ => .liftM_bind fun _ => respects_method _
  | ifConditionEval conditionStrPtr conditionStrLen =>
      exact .bind respects_getMemory fun _ => .liftM_bind fun _ => respects_method _
  | elseHandler => exact respects_method _
  | endifHandler => exact respects_method _
  | logTodo msgPtr msgLen =>
      exact .bind respects_getMemory fun _ => .liftM_bind fun _ => respects_pure _
  | onEvent eventPtr eventLen =>
      exact .bind respects_getMemory fun _ => .liftM_bind fun _ => respects_method _
  | logDebugDeprecated messagePtr messageLen =>
      exact .bind respects_getMemory fun _ => .liftM_bind fun _ => respects_pure _
  | rangeCheck value minVal maxVal =>
      rw [call, hostRangeCheck]
      split
      · exact respects_pure _
      · exact respects_throw _
  | useResource resourceTypePtr resourceTypeLen amount =>
      refine .bind respects_getMemory fun memory => .liftM_bind fun resourceType => ?_
      split
      · exact respects_useMana lib host _ _
      · exact respects_throw _
  | transferToken tokenTypePtr tokenTypeLen amount senderDidPtr senderDidLen recipientDidPtr
      recipientDidLen =>
      exact .bind respects_getMemory fun _ => .liftM_bind fun _ => .liftM_bind fun _ =>
        .liftM_bind fun _ => .liftM_bind fun _ => .liftM_bind fun _ => respects_method _
  | submitMeshJob cborPayloadPtr cborPayloadLen jobIdBufferPtr jobIdBufferLen =>
      exact .bind respects_getMemory fun _ => .liftM_bind fun _ =>
        respects_writeStringToMemCtx lib _ _ _ _

theorem alike_guestStep (host : ConcreteHostEnvironment) {s t : HostState}
    (h : AlikeFor host.callerDid s t) (step : GuestStep) :
    (guestStep lib host s step).1 = (guestStep lib host t step).1 ∧
      AlikeFor host.callerDid (guestStep lib host s step).2 (guestStep lib host t step).2 := by
  have hmemory : ∀ f, AlikeFor host.callerDid (s.withMemory f) (t.withMemory f) := fun f =>
    ⟨congrArg (Option.map f) h.memory, h.ctx, h.mana⟩
  cases step with
  | store address bytes => exact ⟨rfl, hmemory _⟩
  | grow size => exact ⟨rfl, hmemory _⟩
  | call c =>
      obtain ⟨hanswer, hnext⟩ := respects_call lib host c s t h
      exact ⟨congrArg some hanswer, hnext⟩

variable {ι : Type} [DecidableEq ι]

/-- Programs that are run by one runtime, each with a memory and a context of its own. -/
structure Site (ι : Type) where
  guests : ι → Option Linear × JobExecutionContext
  ledger : HashMap Did ManaState

def Site.hostState (site : Site ι) (i : ι) : HostState :=
  ⟨(site.guests i).1, (site.guests i).2, site.ledger⟩

def Site.step (hosts : ι → ConcreteHostEnvironment) (site : Site ι) (op : ι × GuestStep) :
    Option (Except HostAbiError Int32) × Site ι :=
  let (answer, s) := guestStep lib (hosts op.1) (site.hostState op.1) op.2
  (answer, ⟨Function.update site.guests op.1 (s.memory, s.ctx), s.ledger⟩)

def Site.view (hosts : ι → ConcreteHostEnvironment) (i : ι) (site : Site ι) :
    (Option Linear × JobExecutionContext) × Option ManaState :=
  (site.guests i, site.ledger.lookup (hosts i).callerDid)

variable {lib} {hosts : ι → ConcreteHostEnvironment}

theorem Site.view_step_self {site site' : Site ι} {i : ι}
    (h : site.view hosts i = site'.view hosts i) (step : GuestStep) :
    (site.step lib hosts (i, step)).1 = (site'.step lib hosts (i, step)).1 ∧
      (site.step lib hosts (i, step)).2.view hosts i =
        (site'.step lib hosts (i, step)).2.view hosts i := by
  obtain ⟨hguest, hmana⟩ := Prod.mk.inj h
  have halike : AlikeFor (hosts i).callerDid (site.hostState i) (site'.hostState i) :=
    ⟨congrArg Prod.fst hguest, congrArg Prod.snd hguest, hmana⟩
  obtain ⟨hanswer, hnext⟩ := alike_guestStep lib (hosts i) halike step
  refine ⟨hanswer, ?_⟩
  simp only [Site.step, Site.view, Function.update_self, hnext.memory, hnext.ctx, hnext.mana]

/-- The steps of a program are not seen by programs with other callers. -/
theorem Site.view_step_of_ne (hcallers : Function.Injective fun i => (hosts i).callerDid)
    (site : Site ι) {i : ι} {op : ι × GuestStep} (hne : op.1 ≠ i) :
    (site.step lib hosts op).2.view hosts i = site.view hosts i := by
  have hothers := (confined_guestStep lib (hosts op.1) (site.hostState op.1) op.2).others
    (hosts i).callerDid fun heq => hne (hcallers heq.symm)
  simp only [Site.step, Site.view, Function.update_of_ne hne.symm, hothers]
  rfl

/-- **Programs do not notice each other.** Programs whose callers differ run over one
ledger, in any order of their steps. Each of them gets the answers that it gets when the
others take no step at all, and is left with the same memory, context and mana. -/
theorem alone_run (lib : HostLibrary) {hosts : ι → ConcreteHostEnvironment}
    (hcallers : Function.Injective fun i => (hosts i).callerDid) (site : Site ι)
    (ops : List (ι × GuestStep)) (i : ι) :
    ((ops.zip (Run.trace (Site.step lib hosts) site ops)).filter
        fun e => decide (e.1.1 = i)).map Prod.snd =
        Run.trace (Site.step lib hosts) site (ops.filter fun op => decide (op.1 = i)) ∧
      (Run.run (fun site op => (Site.step lib hosts site op).2) site ops).view hosts i =
        (Run.run (fun site op => (Site.step lib hosts site op).2) site
          (ops.filter fun op => decide (op.1 = i))).view hosts i := by
  have hkeep : ∀ (site site' : Site ι) (op : ι × GuestStep), decide (op.1 = i) = true →
      site.view hosts i = site'.view hosts i →
      (site.step lib hosts op).1 = (site'.step lib hosts op).1 ∧
        (site.step lib hosts op).2.view hosts i = (site'.step lib hosts op).2.view hosts i := by
    rintro site site' ⟨j, step⟩ hop hview
    obtain rfl : j = i := of_decide_eq_true hop
    exact Site.view_step_self hview step
  have hdrop : ∀ (site : Site ι) (op : ι × GuestStep), decide (op.1 = i) = false →
      (site.step lib hosts op).2.view hosts i = site.view hosts i :=
    fun site op hop => site.view_step_of_ne hcallers (of_decide_eq_false hop)
  exact ⟨Run.trace_filter_of_view (Site.view hosts i) _ hkeep hdrop rfl ops,
    Run.view_run_filter (Site.view hosts i) _
      (fun site site' op hop hview => (hkeep site site' op hop hview).2) hdrop rfl ops⟩

def aliceAndBob : Bool → ConcreteHostEnvironment
  | false => individualHost ⟨"did:icn:alice"⟩
  | true => individualHost ⟨"did:icn:bob"⟩

def aliceAndBobSite : Site Bool :=
  ⟨fun _ => (some (List.replicate 32 0), .new),
    fundedState.ledger.insert ⟨"did:icn:bob"⟩ ⟨100, 100, 0, 0⟩⟩

def aliceAndBobSteps : List (Bool × GuestStep) :=
  spendingSteps.flatMap fun step => [(false, step), (true, step)]

theorem alone_run_aliceAndBob :
    ((aliceAndBobSteps.zip (Run.trace (Site.step plainLibrary aliceAndBob) aliceAndBobSite
        aliceAndBobSteps)).filter fun e => decide (e.1.1 = true)).map Prod.snd =
        Run.trace (Site.step plainLibrary aliceAndBob) aliceAndBobSite
          (spendingSteps.map (Prod.mk true)) ∧
      (Run.run (fun site op => (Site.step plainLibrary aliceAndBob site op).2) aliceAndBobSite
          aliceAndBobSteps).view aliceAndBob true =
        (Run.run (fun site op => (Site.step plainLibrary aliceAndBob site op).2) aliceAndBobSite
          (spendingSteps.map (Prod.mk true))).view aliceAndBob true := by
  have hcallers : Function.Injective fun i => (aliceAndBob i).callerDid := by
    intro i j h
    cases i <;> cases j <;> first | rfl | exact absurd h (by decide)
  exact alone_run plainLibrary hcallers aliceAndBobSite aliceAndBobSteps true

end Alone

end Runtime

end Icn

import Icn.Foundation.Run.Effect
import Icn.Foundation.Run.Fallible
import Icn.Runtime.HostEnvironment

/-!
# What a host call comes to

A call is a handful of numbers. `Passes` says which command it comes to over a memory:
the texts are those whose bytes lie at its pointers, and identifiers are texts that
parse. `Performed` says what a command does and answers, if it is accepted.

A call is accepted exactly if it comes to a command that is, and it does and answers what
that command does (`call_eq_ok_iff`). A call that is refused has done nothing
(`atomic_call`).
-/

open Foundation

namespace Icn

namespace Runtime

open Codec Wasm Ccl Identity Economics
open Effect ConcreteHostEnvironment

/-- The text lies in the memory, at a pointer and with a length. -/
def Holds (memory : Linear) (ptr len : UInt32) (text : String) : Prop :=
  memory.read ptr.toNat len.toNat = some (utf8 text)

/-- A text of length zero is none. -/
def HoldsOptional (memory : Linear) (ptr len : UInt32) : Option String → Prop
  | some text => 0 < len ∧ Holds memory ptr len text
  | none => len = 0

/-- The command that a call comes to over a memory. -/
def Passes (lib : HostLibrary) (memory : Option Linear) (command : HostCommand) :
    HostCall → Prop
  | .beginSection kindPtr kindLen titlePtr titleLen =>
      ∃ m, memory = some m ∧ ∃ kind, Holds m kindPtr kindLen kind ∧
        ∃ title, HoldsOptional m titlePtr titleLen title ∧ command = .beginSection kind title
  | .endSection => command = .endSection
  | .setProperty keyPtr keyLen valueJsonPtr valueJsonLen =>
      ∃ m, memory = some m ∧ ∃ key, Holds m keyPtr keyLen key ∧
        ∃ valueJson, Holds m valueJsonPtr valueJsonLen valueJson ∧
          command = .setProperty key valueJson
  | .anchorData pathPtr pathLen dataRefPtr dataRefLen =>
      ∃ m, memory = some m ∧ ∃ path, Holds m pathPtr pathLen path ∧
        ∃ dataRef, Holds m dataRefPtr dataRefLen dataRef ∧ command = .anchorData path dataRef
  | .genericCall fnNamePtr fnNameLen argsPayloadPtr argsPayloadLen =>
      ∃ m, memory = some m ∧ ∃ fnName, Holds m fnNamePtr fnNameLen fnName ∧
        ∃ argsPayload, Holds m argsPayloadPtr argsPayloadLen argsPayload ∧
          command = .genericCall fnName argsPayload
  | .createProposal idPtr idLen titlePtr titleLen versionPtr versionLen =>
      ∃ m, memory = some m ∧ ∃ id, Holds m idPtr idLen id ∧
        ∃ title, Holds m titlePtr titleLen title ∧
          ∃ version, Holds m versionPtr versionLen version ∧
            command = .createProposal id title version
  | .mintToken resourceTypePtr resourceTypeLen amount recipientDidPtr recipientDidLen
      dataJsonPtr dataJsonLen =>
      ∃ m, memory = some m ∧ ∃ resourceType, Holds m resourceTypePtr resourceTypeLen resourceType ∧
        ∃ recipientStr, Holds m recipientDidPtr recipientDidLen recipientStr ∧
          ∃ dataJson, HoldsOptional m dataJsonPtr dataJsonLen dataJson ∧
            ∃ recipient, Did.fromStr lib.did recipientStr = .ok recipient ∧
              command = .mintToken resourceType amount recipient dataJson
  | .ifConditionEval conditionStrPtr conditionStrLen =>
      ∃ m, memory = some m ∧ ∃ conditionStr,
        Holds m conditionStrPtr conditionStrLen conditionStr ∧
          command = .ifConditionEval conditionStr
  | .elseHandler => command = .elseHandler
  | .endifHandler => command = .endifHandler
  | .logTodo msgPtr msgLen =>
      ∃ m, memory = some m ∧ ∃ msg, Holds m msgPtr msgLen msg ∧ command = .logTodo msg
  | .onEvent eventPtr eventLen =>
      ∃ m, memory = some m ∧ ∃ eventName, Holds m eventPtr eventLen eventName ∧
        command = .onEvent eventName
  | .logDebugDeprecated messagePtr messageLen =>
      ∃ m, memory = some m ∧ ∃ message, Holds m messagePtr messageLen message ∧
        command = .logDebugDeprecated message
  | .rangeCheck value minVal maxVal => command = .rangeCheck value minVal maxVal
  | .useResource resourceTypePtr resourceTypeLen amount =>
      ∃ m, memory = some m ∧ ∃ resourceType, Holds m resourceTypePtr resourceTypeLen resourceType ∧
        command = .useResource resourceType amount
  | .transferToken tokenTypePtr tokenTypeLen amount senderDidPtr senderDidLen recipientDidPtr
      recipientDidLen =>
      ∃ m, memory = some m ∧ ∃ tokenType, Holds m tokenTypePtr tokenTypeLen tokenType ∧
        ∃ senderStr, Holds m senderDidPtr senderDidLen senderStr ∧
          ∃ recipientStr, Holds m recipientDidPtr recipientDidLen recipientStr ∧
            ∃ sender, Did.fromStr lib.did senderStr = .ok sender ∧
              ∃ recipient, Did.fromStr lib.did recipientStr = .ok recipient ∧
                command = .transferToken tokenType amount sender recipient
  | .submitMeshJob cborPayloadPtr cborPayloadLen jobIdBufferPtr jobIdBufferLen =>
      ∃ m, memory = some m ∧ ∃ cborPayload,
        m.read cborPayloadPtr.toNat cborPayloadLen.toNat = some cborPayload ∧
          command = .submitMeshJob cborPayload jobIdBufferPtr jobIdBufferLen

@[reducible] def HostCommand.acts : HostCommand → Bool
  | .beginSection _ _ => true
  | .endSection => true
  | .setProperty _ _ => true
  | .useResource _ _ => true
  | .submitMeshJob _ _ _ => true
  | _ => false

/-- When a command that changes nothing is accepted. -/
def Noted (ctx : JobExecutionContext) : HostCommand → Prop
  | .createProposal _ _ _ => ctx.sectionStack = []
  | .mintToken _ _ _ _ => ctx.sectionStack = []
  | .rangeCheck value minVal maxVal => minVal ≤ value ∧ value ≤ maxVal
  | _ => True

def debited (ledger : HashMap Did ManaState) (did : Did) (amount : UInt64) : ManaState :=
  { (ledger.lookup did).getD ManaRepositoryAdapter.defaultState with
    currentMana := currentMana ledger did - amount }

def jobId : String := "dummy_mesh_job_123"

inductive Performed (host : ConcreteHostEnvironment) (s : HostState) :
    HostCommand → Int32 → HostState → Prop
  | noted {command : HostCommand} (hacts : command.acts = false) (h : Noted s.ctx command) :
      Performed host s command 0 s
  | beginSection {kind : String} {title : Option String} (h : s.ctx.sectionStack = []) :
      Performed host s (.beginSection kind title) 0 { s with ctx := ⟨[⟨kind, title, ∅⟩]⟩ }
  | endSection : Performed host s .endSection 0 { s with ctx := ⟨s.ctx.sectionStack.tail⟩ }
  | setProperty {key valueJson : String} {current : SectionContext}
      {stack : List SectionContext} (h : s.ctx.sectionStack = current :: stack) :
      Performed host s (.setProperty key valueJson) 0
        { s with ctx :=
            ⟨{ current with properties := current.properties.insert key valueJson } :: stack⟩ }
  | useResource {amount : UInt64} (h : amount ≤ currentMana s.ledger host.callerDid) :
      Performed host s (.useResource "mana" amount) 0
        { s with ledger :=
            s.ledger.insert host.callerDid (debited s.ledger host.callerDid amount) }
  | submitMeshJob {cborPayload : List UInt8} {jobIdBufferPtr jobIdBufferLen : UInt32}
      {memory memory' : Linear} (hmemory : s.memory = some memory)
      (hfits : (utf8 jobId).length ≤ jobIdBufferLen.toNat)
      (hwrite : memory.write jobIdBufferPtr.toNat (utf8 jobId) = some memory') :
      Performed host s (.submitMeshJob cborPayload jobIdBufferPtr jobIdBufferLen) 18
        { s with memory := some memory' }

section Reading

variable {lib : HostLibrary} {memory : Linear} {ptr len : UInt32}

theorem readBytesFromMemCtx_eq_ok_iff {buffer : List UInt8} :
    readBytesFromMemCtx lib memory ptr len = .ok buffer ↔
      memory.read ptr.toNat len.toNat = some buffer := by
  rw [readBytesFromMemCtx]
  cases memory.read ptr.toNat len.toNat <;> simp

theorem readStringFromMemCtx_eq_ok_iff {text : String} :
    readStringFromMemCtx lib memory ptr len = .ok text ↔ Holds memory ptr len text := by
  rw [readStringFromMemCtx, Fallible.bind_eq_ok_iff, Holds]
  constructor
  · rintro ⟨buffer, hbuffer, htext⟩
    rw [readBytesFromMemCtx_eq_ok_iff] at hbuffer
    split at htext
    · next s hs =>
      rw [hbuffer, ← Except.ok.inj htext, ofUtf8_eq_some_iff.mp hs]
    · cases htext
  · intro h
    refine ⟨utf8 text, readBytesFromMemCtx_eq_ok_iff.mpr h, ?_⟩
    rw [ofUtf8_utf8]

theorem readOptionalString_eq_ok_iff {text : Option String} :
    readOptionalString lib memory ptr len = .ok text ↔ HoldsOptional memory ptr len text := by
  rw [readOptionalString]
  split
  · next hpos =>
    rw [Fallible.map_eq_ok_iff]
    cases text with
    | none =>
        have hne : len ≠ 0 := by
          rintro rfl
          exact absurd hpos (by decide)
        simp [HoldsOptional, hne]
    | some text => simpa [HoldsOptional, readStringFromMemCtx_eq_ok_iff] using fun _ => hpos
  · next hpos =>
    have hzero : len = 0 := by
      rw [← UInt32.toNat_inj]
      rw [gt_iff_lt, UInt32.lt_iff_toNat_lt] at hpos
      exact Nat.eq_zero_of_not_pos hpos
    cases text with
    | none => simp [HoldsOptional, hzero]
    | some text => simp [HoldsOptional, hzero]

theorem parseDid_eq_ok_iff {role separator s : String} {did : Did} :
    parseDid lib role separator s = .ok did ↔ Did.fromStr lib.did s = .ok did := by
  rw [parseDid]
  cases Did.fromStr lib.did s <;> simp

theorem exec_getMemory_bind_eq_ok_iff {α : Type} {f : Linear → HostM α} {s s' : HostState}
    {a : α} : exec (getMemory >>= f) s = (.ok a, s') ↔
      ∃ memory, s.memory = some memory ∧ exec (f memory) s = (.ok a, s') := by
  rw [exec_bind_eq_ok_iff, getMemory, exec_bind_of_ok (exec_get s)]
  cases s.memory <;> simp

theorem exec_withContext_eq_ok_iff
    {method : JobExecutionContext → Except HostAbiError JobExecutionContext} {s s' : HostState}
    {u : Unit} : exec (withContext method) s = (.ok u, s') ↔
      ∃ ctx, method s.ctx = .ok ctx ∧ { s with ctx := ctx } = s' := by
  rw [withContext, exec_bind_of_ok (exec_get s), exec_bind_eq_ok_iff]
  simp

end Reading

section Methods

variable {lib : HostLibrary} (host : ConcreteHostEnvironment) {s s' : HostState} {answer : Int32}

variable {host} in
theorem performed_iff_noted {command : HostCommand} (hacts : command.acts = false) :
    Performed host s command answer s' ↔ Noted s.ctx command ∧ answer = 0 ∧ s' = s := by
  constructor
  · intro h
    cases h with
    | noted _ hnoted => exact ⟨hnoted, rfl, rfl⟩
    | beginSection _ => cases hacts
    | endSection => cases hacts
    | setProperty _ => cases hacts
    | useResource _ => cases hacts
    | submitMeshJob _ _ _ => cases hacts
  · rintro ⟨h, rfl, rfl⟩
    exact .noted hacts h

theorem exec_method_eq_ok_iff
    {method : JobExecutionContext → Except HostAbiError JobExecutionContext} :
    exec (do
      withContext method
      return (0 : Int32)) s = (.ok answer, s') ↔
      ∃ ctx, method s.ctx = .ok ctx ∧ answer = 0 ∧ s' = { s with ctx := ctx } := by
  simp only [exec_bind_eq_ok_iff, exec_withContext_eq_ok_iff, exec_pure, Prod.mk.injEq,
    Except.ok.injEq]
  constructor
  · rintro ⟨u, t, ⟨ctx, hctx, rfl⟩, rfl, rfl⟩
    exact ⟨ctx, hctx, rfl, rfl⟩
  · rintro ⟨ctx, hctx, rfl, rfl⟩
    exact ⟨⟨⟩, _, ⟨ctx, hctx, rfl⟩, rfl, rfl⟩

theorem exec_stub_eq_ok_iff : exec (do
      withContext fun ctx => ctx.stub
      return (0 : Int32)) s = (.ok answer, s') ↔ answer = 0 ∧ s' = s := by
  rw [exec_method_eq_ok_iff]
  simp [JobExecutionContext.stub]

theorem createProposal_eq_ok_iff {ctx ctx' : JobExecutionContext} {id title version : String} :
    ctx.createProposal id title version = .ok ctx' ↔ ctx.sectionStack = [] ∧ ctx = ctx' := by
  rw [JobExecutionContext.createProposal]
  cases ctx.sectionStack <;> simp

theorem mintToken_eq_ok_iff {ctx ctx' : JobExecutionContext} {resType : String} {amount : Int64}
    {recipient dataJson : Option String} :
    ctx.mintToken resType amount recipient dataJson = .ok ctx' ↔
      ctx.sectionStack = [] ∧ ctx = ctx' := by
  rw [JobExecutionContext.mintToken]
  cases ctx.sectionStack <;> simp

theorem exec_createProposal_eq_ok_iff {id title version : String} :
    exec (do
      withContext fun ctx => ctx.createProposal id title version
      return (0 : Int32)) s = (.ok answer, s') ↔
      s.ctx.sectionStack = [] ∧ answer = 0 ∧ s' = s := by
  rw [exec_method_eq_ok_iff]
  simp [createProposal_eq_ok_iff, and_assoc]

theorem exec_mintToken_eq_ok_iff {resType : String} {amount : Int64}
    {recipient dataJson : Option String} :
    exec (do
      withContext fun ctx => ctx.mintToken resType amount recipient dataJson
      return (0 : Int32)) s = (.ok answer, s') ↔
      s.ctx.sectionStack = [] ∧ answer = 0 ∧ s' = s := by
  rw [exec_method_eq_ok_iff]
  simp [mintToken_eq_ok_iff, and_assoc]

theorem exec_beginSection_eq_ok_iff {kind : String} {title : Option String} :
    exec (do
      withContext fun ctx => ctx.beginSection kind title
      return (0 : Int32)) s = (.ok answer, s') ↔
      Performed host s (.beginSection kind title) answer s' := by
  rw [exec_method_eq_ok_iff]
  constructor
  · rintro ⟨ctx, hctx, rfl, rfl⟩
    unfold JobExecutionContext.beginSection at hctx
    split at hctx
    · next hstack =>
      rw [← Except.ok.inj hctx]
      exact .beginSection hstack
    · cases hctx
  · intro h
    cases h with
    | noted hacts _ => cases hacts
    | beginSection hstack =>
        refine ⟨_, ?_, rfl, rfl⟩
        rw [JobExecutionContext.beginSection, hstack]

theorem exec_endSection_eq_ok_iff :
    exec (do
      withContext fun ctx => ctx.endSection
      return (0 : Int32)) s = (.ok answer, s') ↔ Performed host s .endSection answer s' := by
  rw [exec_method_eq_ok_iff]
  constructor
  · rintro ⟨ctx, hctx, rfl, rfl⟩
    rw [← Except.ok.inj hctx]
    exact .endSection
  · intro h
    cases h with
    | noted hacts _ => cases hacts
    | endSection => exact ⟨_, rfl, rfl, rfl⟩

theorem exec_setProperty_eq_ok_iff {key valueJson : String} :
    exec (do
      withContext fun ctx => ctx.setProperty key valueJson
      return (0 : Int32)) s = (.ok answer, s') ↔
      Performed host s (.setProperty key valueJson) answer s' := by
  rw [exec_method_eq_ok_iff]
  constructor
  · rintro ⟨ctx, hctx, rfl, rfl⟩
    unfold JobExecutionContext.setProperty at hctx
    split at hctx
    · cases hctx
    · next current stack hstack =>
      rw [← Except.ok.inj hctx]
      exact .setProperty hstack
  · intro h
    cases h with
    | noted hacts _ => cases hacts
    | setProperty hstack =>
        refine ⟨_, ?_, rfl, rfl⟩
        rw [JobExecutionContext.setProperty, hstack]

theorem recordUsage_manaToken (lib : HostLibrary) (ledger : HashMap Did ManaState)
    (amount : UInt64) :
    (∃ e, ManaRepositoryAdapter.recordUsage inMemoryManaLedger ledger 0 host.callerDid
        (host.manaToken lib amount) = (.error e, ledger) ∧
      ¬ amount ≤ currentMana ledger host.callerDid) ∨
    ManaRepositoryAdapter.recordUsage inMemoryManaLedger ledger 0 host.callerDid
        (host.manaToken lib amount) =
        (.ok (), ledger.insert host.callerDid (debited ledger host.callerDid amount)) ∧
      amount ≤ currentMana ledger host.callerDid := by
  have hcurrent : currentMana ledger host.callerDid =
      ((ledger.lookup host.callerDid).getD ManaRepositoryAdapter.defaultState).currentMana := by
    rw [currentMana]
    cases ledger.lookup host.callerDid <;> rfl
  rw [ManaRepositoryAdapter.recordUsage, debited, hcurrent]
  simp only [ManaRepositoryAdapter.checkResourceType, manaToken, ManaRepositoryAdapter.spend,
    ManaRepositoryAdapter.debit, inMemoryManaLedger, ManaRepositoryAdapter.writeBack]
  by_cases hlt : ((ledger.lookup host.callerDid).getD
      ManaRepositoryAdapter.defaultState).currentMana < amount
  · left
    simp [hlt]
  · right
    simp [hlt, UInt64.not_lt.mp hlt]

/-- The mana repository is asked once, and its answer is passed on. -/
theorem exec_recordUsage {resourceType : String} {token : ScopedResourceToken}
    {result : Except String Unit} {ledger : HashMap Did ManaState}
    (h : ManaRepositoryAdapter.recordUsage inMemoryManaLedger s.ledger 0 host.callerDid token =
      (result, ledger)) :
    exec (host.recordUsage resourceType token) s =
      (result.mapError fun e => .resourceManagementError
        ("Failed to record usage for resource '" ++ resourceType ++ "': " ++ e),
        { s with ledger := ledger }) := by
  rw [ConcreteHostEnvironment.recordUsage, exec_bind_of_ok (exec_get s), h]
  cases result with
  | error e => exact exec_bind_of_ok (exec_set s _) _
  | ok u => exact exec_bind_of_ok (exec_set s _) _

theorem exec_useResource_eq_ok_iff {resourceType : String} {amount : UInt64} :
    exec (if resourceType = "mana" then do
        host.recordUsage resourceType (host.manaToken lib amount)
        return (0 : Int32)
      else throw (.invalidParameter
        ("Unsupported resource type string for host_use_resource: " ++ resourceType))) s =
        (.ok answer, s') ↔
      Performed host s (.useResource resourceType amount) answer s' := by
  by_cases htype : resourceType = "mana"
  · rw [if_pos htype, htype]
    rcases recordUsage_manaToken host lib s.ledger amount with
      ⟨e, hrecord, hle⟩ | ⟨hrecord, hle⟩
    · rw [exec_bind_of_error (exec_recordUsage host hrecord)]
      constructor
      · intro h
        cases (Prod.mk.inj h).1
      · intro h
        cases h with
        | noted hacts _ => cases hacts
        | useResource hamount => exact absurd hamount hle
    · rw [exec_bind_of_ok (exec_recordUsage host hrecord), exec_pure]
      constructor
      · rintro ⟨⟩
        exact .useResource hle
      · intro h
        cases h with
        | noted hacts _ => cases hacts
        | useResource _ => rfl
  · rw [if_neg htype]
    constructor
    · intro h
      cases h
    · intro h
      cases h with
      | noted hacts _ => cases hacts
      | useResource _ => exact absurd rfl htype

theorem length_jobId : (utf8 jobId).length = 18 := by decide

theorem exec_submitMeshJob_eq_ok_iff {cborPayload : List UInt8}
    {jobIdBufferPtr jobIdBufferLen : UInt32} {memory : Linear} (hmemory : s.memory = some memory) :
    exec (submitMeshJob cborPayload fun jobId =>
      writeStringToMemCtx lib memory jobId jobIdBufferPtr jobIdBufferLen) s = (.ok answer, s') ↔
      Performed host s (.submitMeshJob cborPayload jobIdBufferPtr jobIdBufferLen) answer s' := by
  rw [submitMeshJob, ← jobId, writeStringToMemCtx]
  by_cases hfits : (utf8 jobId).length ≤ jobIdBufferLen.toNat
  · rw [if_neg (Nat.not_lt.mpr hfits)]
    cases hwrite : memory.write jobIdBufferPtr.toNat (utf8 jobId) with
    | none =>
        constructor
        · intro h
          cases h
        · intro h
          cases h with
          | noted hacts _ => cases hacts
          | submitMeshJob hmemory' _ hwrite' =>
              obtain rfl := Option.some.inj (hmemory.symm.trans hmemory')
              cases hwrite.symm.trans hwrite'
    | some memory' =>
        rw [exec_bind_of_ok (exec_modify _ s), exec_pure, length_jobId]
        constructor
        · rintro ⟨⟩
          exact .submitMeshJob hmemory hfits hwrite
        · intro h
          cases h with
          | noted hacts _ => cases hacts
          | submitMeshJob hmemory' _ hwrite' =>
              obtain rfl := Option.some.inj (hmemory.symm.trans hmemory')
              obtain rfl := Option.some.inj (hwrite.symm.trans hwrite')
              rfl
  · rw [if_pos (Nat.lt_of_not_le hfits)]
    constructor
    · intro h
      cases h
    · intro h
      cases h with
      | noted hacts _ => cases hacts
      | submitMeshJob _ hfits' _ => exact absurd hfits' hfits

end Methods

section Call

variable (lib : HostLibrary) (host : ConcreteHostEnvironment) {s s' : HostState} {answer : Int32}

theorem exists_command_iff {α : Type} {Q : α → Prop} {R : α → HostCommand → Prop}
    {P : HostCommand → Prop} : (∃ command, (∃ a, Q a ∧ R a command) ∧ P command) ↔
      ∃ a, Q a ∧ ∃ command, R a command ∧ P command := by
  constructor
  · rintro ⟨command, ⟨a, hQ, hR⟩, hP⟩
    exact ⟨a, hQ, command, hR, hP⟩
  · rintro ⟨a, hQ, command, hR, hP⟩
    exact ⟨command, ⟨a, hQ, hR⟩, hP⟩

/-- A call is accepted exactly if it comes to a command that is, and it answers and
leaves what that command does. -/
theorem exec_call_eq_ok_iff (c : HostCall) :
    exec (call lib host c) s = (.ok answer, s') ↔
      ∃ command, Passes lib s.memory command c ∧ Performed host s command answer s' := by
  -- The arguments are read in the order in which `Passes` names them.
  cases c <;>
    simp only [call, hostBeginSection, hostEndSection, hostSetProperty, hostAnchorData,
      hostGenericCall, hostCreateProposal, hostMintToken, hostIfConditionEval, hostElseHandler,
      hostEndifHandler, hostLogTodo, hostOnEvent, hostLogDebugDeprecated, hostRangeCheck,
      hostUseResource, hostTransferToken, hostSubmitMeshJob, Passes, exists_command_iff,
      exists_eq_left, exec_getMemory_bind_eq_ok_iff, exec_liftM_bind_eq_ok_iff,
      readBytesFromMemCtx_eq_ok_iff, readStringFromMemCtx_eq_ok_iff,
      readOptionalString_eq_ok_iff, parseDid_eq_ok_iff, exec_beginSection_eq_ok_iff host,
      exec_endSection_eq_ok_iff host, exec_setProperty_eq_ok_iff host,
      exec_useResource_eq_ok_iff, exec_createProposal_eq_ok_iff, exec_mintToken_eq_ok_iff,
      JobExecutionContext.anchorData, JobExecutionContext.genericCall,
      JobExecutionContext.ifConditionEval, JobExecutionContext.elseHandler,
      JobExecutionContext.endifHandler, JobExecutionContext.onEvent,
      JobExecutionContext.transferToken, exec_stub_eq_ok_iff, exec_pure_eq_ok_iff,
      performed_iff_noted, Noted, true_and]
  case rangeCheck value minVal maxVal =>
      split
      · next hrange => simp [hrange, eq_comm]
      · next hrange => simp [hrange]
  case submitMeshJob cborPayloadPtr cborPayloadLen jobIdBufferPtr jobIdBufferLen =>
      refine exists_congr fun m => and_congr_right fun hmemory => ?_
      simp only [exec_submitMeshJob_eq_ok_iff host hmemory]

theorem reads_getMemory : Reads getMemory := by
  refine fun s => ?_
  rw [getMemory, exec_bind_of_ok (exec_get s)]
  cases s.memory <;> rfl

/-- A method that fails has not been written back. -/
theorem atomic_method
    (method : JobExecutionContext → Except HostAbiError JobExecutionContext) :
    Atomic (do
      withContext method
      return (0 : Int32)) := by
  refine .bind_pure (.bind_of_reads reads_get fun state => .liftM_bind fun ctx => ?_) 0
  intro s e s' h
  cases h

theorem atomic_writeStringToMemCtx (memory : Linear) (text : String) (ptr len : UInt32) :
    Atomic (writeStringToMemCtx lib memory text ptr len) := by
  rw [writeStringToMemCtx]
  split
  · exact (reads_throw _).atomic
  · split
    · intro s e s' h
      cases h
    · exact (reads_throw _).atomic

theorem atomic_useMana (resourceType : String) (amount : UInt64) :
    Atomic (do
      host.recordUsage resourceType (host.manaToken lib amount)
      return (0 : Int32)) := by
  refine .bind_pure (fun s e s' h => ?_) 0
  rcases recordUsage_manaToken host lib s.ledger amount with
    ⟨e', hrecord, -⟩ | ⟨hrecord, -⟩
  · rw [exec_recordUsage host hrecord] at h
    exact (Prod.mk.inj h).2.symm
  · rw [exec_recordUsage host hrecord] at h
    cases (Prod.mk.inj h).1

theorem atomic_call (c : HostCall) : Atomic (call lib host c) := by
  cases c with
  | beginSection kindPtr kindLen titlePtr titleLen =>
      exact .bind_of_reads reads_getMemory fun _ => .liftM_bind fun _ => .liftM_bind fun _ =>
        atomic_method _
  | endSection => exact atomic_method _
  | setProperty keyPtr keyLen valueJsonPtr valueJsonLen =>
      exact .bind_of_reads reads_getMemory fun _ => .liftM_bind fun _ => .liftM_bind fun _ =>
        atomic_method _
  | anchorData pathPtr pathLen dataRefPtr dataRefLen =>
      exact .bind_of_reads reads_getMemory fun _ => .liftM_bind fun _ => .liftM_bind fun _ =>
        atomic_method _
  | genericCall fnNamePtr fnNameLen argsPayloadPtr argsPayloadLen =>
      exact .bind_of_reads reads_getMemory fun _ => .liftM_bind fun _ => .liftM_bind fun _ =>
        atomic_method _
  | createProposal idPtr idLen titlePtr titleLen versionPtr versionLen =>
      exact .bind_of_reads reads_getMemory fun _ => .liftM_bind fun _ => .liftM_bind fun _ =>
        .liftM_bind fun _ => atomic_method _
  | mintToken resourceTypePtr resourceTypeLen amount recipientDidPtr recipientDidLen dataJsonPtr
      dataJsonLen =>
      exact .bind_of_reads reads_getMemory fun _ => .liftM_bind fun _ => .liftM_bind fun _ =>
        .liftM_bind fun _ => .liftM_bind fun _ => atomic_method _
  | ifConditionEval conditionStrPtr conditionStrLen =>
      exact .bind_of_reads reads_getMemory fun _ => .liftM_bind fun _ => atomic_method _
  | elseHandler => exact atomic_method _
  | endifHandler => exact atomic_method _
  | logTodo msgPtr msgLen =>
      exact .bind_of_reads reads_getMemory fun _ => .liftM_bind fun _ => (reads_pure _).atomic
  | onEvent eventPtr eventLen =>
      exact .bind_of_reads reads_getMemory fun _ => .liftM_bind fun _ => atomic_method _
  | logDebugDeprecated messagePtr messageLen =>
      exact .bind_of_reads reads_getMemory fun _ => .liftM_bind fun _ => (reads_pure _).atomic
  | rangeCheck value minVal maxVal =>
      rw [call, hostRangeCheck]
      split
      · exact (reads_pure _).atomic
      · exact (reads_throw _).atomic
  | useResource resourceTypePtr resourceTypeLen amount =>
      refine .bind_of_reads reads_getMemory fun memory => .liftM_bind fun resourceType => ?_
      split
      · exact atomic_useMana lib host _ _
      · exact (reads_throw _).atomic
  | transferToken tokenTypePtr tokenTypeLen amount senderDidPtr senderDidLen recipientDidPtr
      recipientDidLen =>
      exact .bind_of_reads reads_getMemory fun _ => .liftM_bind fun _ => .liftM_bind fun _ =>
        .liftM_bind fun _ => .liftM_bind fun _ => .liftM_bind fun _ => atomic_method _
  | submitMeshJob cborPayloadPtr cborPayloadLen jobIdBufferPtr jobIdBufferLen =>
      exact .bind_of_reads reads_getMemory fun _ => .liftM_bind fun _ =>
        atomic_writeStringToMemCtx lib _ _ _ _

/-- **A host call does what its arguments say, or nothing.** A call is accepted exactly if
its pointers lead to texts and identifiers in the memory of the program, and the command
with these arguments is accepted in the state; then it answers and leaves what the command
does. In every other case it is refused, and has changed neither the memory nor the
context nor the ledger. -/
theorem call_iff_performed (c : HostCall) (s s' : HostState) :
    (∀ answer, exec (call lib host c) s = (.ok answer, s') ↔
        ∃ command, Passes lib s.memory command c ∧ Performed host s command answer s') ∧
      ((∃ e, exec (call lib host c) s = (.error e, s')) ↔
        s' = s ∧ ¬ ∃ command answer t,
          Passes lib s.memory command c ∧ Performed host s command answer t) := by
  refine ⟨fun answer => exec_call_eq_ok_iff lib host c, ?_⟩
  constructor
  · rintro ⟨e, he⟩
    refine ⟨atomic_call lib host c s e s' he, ?_⟩
    rintro ⟨command, answer, t, hcommand⟩
    have hok := (exec_call_eq_ok_iff lib host c).mpr ⟨command, hcommand⟩
    cases (Prod.mk.inj (he.symm.trans hok)).1
  · rintro ⟨rfl, hrefused⟩
    rcases h : exec (call lib host c) s' with ⟨e | answer, t⟩
    · exact ⟨e, by rw [atomic_call lib host c s' e t h]⟩
    · obtain ⟨command, hcommand⟩ := (exec_call_eq_ok_iff lib host c).mp h
      exact absurd ⟨command, answer, t, hcommand⟩ hrefused

end Call

end Runtime

end Icn

import Icn.Foundation.Codec.Bytes
import Icn.Foundation.Wasm.Linear
import Icn.Ccl.Host
import Icn.Economics.ManaLedger.Adapter
import Icn.Runtime.Distribution

/-!
# The host environment of a job

A program calls the host with numbers, most of them pointers into its own memory and
lengths. A host function looks up the memory, reads its arguments there, and hands them
to the context of the job or to the mana repository of the runtime. What it has done
before it fails stays done, so a host function is a computation over `HostState` whose
errors do not undo anything.

`HostCommand` is a call with its arguments read, and `Passes` says which command a call
comes to over a memory. `Performed` is what an accepted command does. A host function
does what the command does that the call comes to, or nothing (`call_eq_ok_iff`).
-/

open Foundation

namespace Icn

namespace Runtime

open Codec Wasm Ccl Identity Economics

/-- The texts that come from libraries, and the parser of identifiers. -/
structure HostLibrary where
  did : DidLibrary
  accessError : String
  utf8Error : List UInt8 → String
  debug : ScopeKey → String

structure ConcreteHostEnvironment where
  callerDid : Did
  coopId : Option String
  communityId : Option String
  identityIndex : Option IdentityIndex
  federationId : Option String

/-- What host functions change: the memory of the program, if it exports one, the context
of the job, and the ledger behind the mana repository. -/
structure HostState where
  memory : Option Linear
  ctx : JobExecutionContext
  ledger : HashMap Did ManaState

abbrev HostM := ExceptT HostAbiError (StateM HostState)

/-- The arguments of a host function, as the program passes them. -/
inductive HostCall where
  | beginSection (kindPtr kindLen titlePtr titleLen : UInt32)
  | endSection
  | setProperty (keyPtr keyLen valueJsonPtr valueJsonLen : UInt32)
  | anchorData (pathPtr pathLen dataRefPtr dataRefLen : UInt32)
  | genericCall (fnNamePtr fnNameLen argsPayloadPtr argsPayloadLen : UInt32)
  | createProposal (idPtr idLen titlePtr titleLen versionPtr versionLen : UInt32)
  | mintToken (resourceTypePtr resourceTypeLen : UInt32) (amount : UInt64)
      (recipientDidPtr recipientDidLen dataJsonPtr dataJsonLen : UInt32)
  | ifConditionEval (conditionStrPtr conditionStrLen : UInt32)
  | elseHandler
  | endifHandler
  | logTodo (msgPtr msgLen : UInt32)
  | onEvent (eventPtr eventLen : UInt32)
  | logDebugDeprecated (messagePtr messageLen : UInt32)
  | rangeCheck (value minVal maxVal : Int64)
  | useResource (resourceTypePtr resourceTypeLen : UInt32) (amount : UInt64)
  | transferToken (tokenTypePtr tokenTypeLen : UInt32) (amount : UInt64)
      (senderDidPtr senderDidLen recipientDidPtr recipientDidLen : UInt32)
  | submitMeshJob (cborPayloadPtr cborPayloadLen jobIdBufferPtr jobIdBufferLen : UInt32)
deriving DecidableEq

inductive HostCommand where
  | beginSection (kind : String) (title : Option String)
  | endSection
  | setProperty (key valueJson : String)
  | anchorData (path dataRef : String)
  | genericCall (fnName argsPayload : String)
  | createProposal (id title version : String)
  | mintToken (resourceType : String) (amount : UInt64) (recipient : Did)
      (dataJson : Option String)
  | ifConditionEval (conditionStr : String)
  | elseHandler
  | endifHandler
  | logTodo (msg : String)
  | onEvent (eventName : String)
  | logDebugDeprecated (message : String)
  | rangeCheck (value minVal maxVal : Int64)
  | useResource (resourceType : String) (amount : UInt64)
  | transferToken (tokenType : String) (amount : UInt64) (sender recipient : Did)
  | submitMeshJob (cborPayload : List UInt8) (jobIdBufferPtr jobIdBufferLen : UInt32)
deriving DecidableEq

section Memory

variable (lib : HostLibrary) (memory : Linear)

def getMemory : HostM Linear := do
  match (← get).memory with
  | some memory => return memory
  | none => throw (.memoryAccessError "Memory export not found")

def readBytesFromMemCtx (ptr len : UInt32) : Except HostAbiError (List UInt8) :=
  match memory.read ptr.toNat len.toNat with
  | some buffer => .ok buffer
  | none => .error (.memoryAccessError ("Memory read failed: " ++ lib.accessError))

def readStringFromMemCtx (ptr len : UInt32) : Except HostAbiError String := do
  let buffer ← readBytesFromMemCtx lib memory ptr len
  match ofUtf8 buffer with
  | some s => .ok s
  | none => .error (.dataEncodingError ("UTF-8 conversion failed: " ++ lib.utf8Error buffer))

def readOptionalString (ptr len : UInt32) : Except HostAbiError (Option String) :=
  if len > 0 then (readStringFromMemCtx lib memory ptr len).map some else .ok none

def writeStringToMemCtx (s : String) (ptr len : UInt32) : HostM Int32 := do
  let bytes := utf8 s
  if bytes.length > len.toNat then
    throw (.bufferTooSmall "String too large for buffer")
  else
    match memory.write ptr.toNat bytes with
    | some memory =>
        modify fun state => { state with memory := some memory }
        return Int32.ofNat bytes.length
    | none => throw (.memoryAccessError ("Memory write failed: " ++ lib.accessError))

def parseDid (role separator s : String) : Except HostAbiError Did :=
  match Did.fromStr lib.did s with
  | .ok did => .ok did
  | .error e =>
      .error (.invalidDid ("Invalid " ++ role ++ " DID: " ++ s ++ separator ++ e.toString))

end Memory

def withContext (method : JobExecutionContext → Except HostAbiError JobExecutionContext) :
    HostM Unit := do
  let state ← get
  let ctx ← method state.ctx
  set { state with ctx := ctx }

namespace ConcreteHostEnvironment

variable (lib : HostLibrary) (host : ConcreteHostEnvironment)

def scopeKey : ScopeKey :=
  match host.coopId, host.communityId, host.identityIndex, host.federationId with
  | some coop, _, _, _ => .cooperative coop
  | none, some comm, _, _ => .community comm
  | none, none, some index, _ => index.resolveScopeKey host.callerDid
  | none, none, none, some fid => .federation fid
  | none, none, none, none => .individual host.callerDid.asStr

def hostBeginSection (kindPtr kindLen titlePtr titleLen : UInt32) : HostM Int32 := do
  let memory ← getMemory
  let kind ← readStringFromMemCtx lib memory kindPtr kindLen
  let title ← readOptionalString lib memory titlePtr titleLen
  withContext fun ctx => ctx.beginSection kind title
  return 0

def hostEndSection : HostM Int32 := do
  withContext fun ctx => ctx.endSection
  return 0

def hostSetProperty (keyPtr keyLen valueJsonPtr valueJsonLen : UInt32) : HostM Int32 := do
  let memory ← getMemory
  let key ← readStringFromMemCtx lib memory keyPtr keyLen
  let valueJson ← readStringFromMemCtx lib memory valueJsonPtr valueJsonLen
  withContext fun ctx => ctx.setProperty key valueJson
  return 0

def hostAnchorData (pathPtr pathLen dataRefPtr dataRefLen : UInt32) : HostM Int32 := do
  let memory ← getMemory
  let path ← readStringFromMemCtx lib memory pathPtr pathLen
  let dataRef ← readStringFromMemCtx lib memory dataRefPtr dataRefLen
  withContext fun ctx => ctx.anchorData path dataRef
  return 0

def hostGenericCall (fnNamePtr fnNameLen argsPayloadPtr argsPayloadLen : UInt32) :
    HostM Int32 := do
  let memory ← getMemory
  let fnName ← readStringFromMemCtx lib memory fnNamePtr fnNameLen
  let argsPayload ← readStringFromMemCtx lib memory argsPayloadPtr argsPayloadLen
  withContext fun ctx => ctx.genericCall fnName argsPayload
  return 0

def hostCreateProposal (idPtr idLen titlePtr titleLen versionPtr versionLen : UInt32) :
    HostM Int32 := do
  let memory ← getMemory
  let id ← readStringFromMemCtx lib memory idPtr idLen
  let title ← readStringFromMemCtx lib memory titlePtr titleLen
  let version ← readStringFromMemCtx lib memory versionPtr versionLen
  withContext fun ctx => ctx.createProposal id title version
  return 0

def hostMintToken (resourceTypePtr resourceTypeLen : UInt32) (amount : UInt64)
    (recipientDidPtr recipientDidLen dataJsonPtr dataJsonLen : UInt32) : HostM Int32 := do
  let memory ← getMemory
  let resourceType ← readStringFromMemCtx lib memory resourceTypePtr resourceTypeLen
  let recipientDidStr ← readStringFromMemCtx lib memory recipientDidPtr recipientDidLen
  let dataJson ← readOptionalString lib memory dataJsonPtr dataJsonLen
  let recipientDid ← parseDid lib "recipient" ", error: " recipientDidStr
  withContext fun ctx =>
    ctx.mintToken resourceType amount.toInt64 (some recipientDid.asStr) dataJson
  return 0

def hostIfConditionEval (conditionStrPtr conditionStrLen : UInt32) : HostM Int32 := do
  let memory ← getMemory
  let conditionStr ← readStringFromMemCtx lib memory conditionStrPtr conditionStrLen
  withContext fun ctx => ctx.ifConditionEval conditionStr
  return 0

def hostElseHandler : HostM Int32 := do
  withContext fun ctx => ctx.elseHandler
  return 0

def hostEndifHandler : HostM Int32 := do
  withContext fun ctx => ctx.endifHandler
  return 0

def hostLogTodo (msgPtr msgLen : UInt32) : HostM Int32 := do
  let memory ← getMemory
  let _ ← readStringFromMemCtx lib memory msgPtr msgLen
  return 0

def hostOnEvent (eventPtr eventLen : UInt32) : HostM Int32 := do
  let memory ← getMemory
  let eventName ← readStringFromMemCtx lib memory eventPtr eventLen
  withContext fun ctx => ctx.onEvent eventName
  return 0

def hostLogDebugDeprecated (messagePtr messageLen : UInt32) : HostM Int32 := do
  let memory ← getMemory
  let _ ← readStringFromMemCtx lib memory messagePtr messageLen
  return 0

/-- The program's own numbers are checked, and nothing else is looked at. -/
def hostRangeCheck (value minVal maxVal : Int64) : HostM Int32 := do
  if minVal ≤ value ∧ value ≤ maxVal then
    return 0
  else
    throw (.invalidParameter s!"Range check failed: value {value} not in [{minVal}, {maxVal}]")

/-- The token that a use of mana is recorded with. The repository does not read its
scope. -/
def manaToken (amount : UInt64) : ScopedResourceToken where
  resourceType := "mana"
  scope := lib.debug host.scopeKey
  amount := amount
  expiresAt := none
  issuer := some host.callerDid.asStr

def recordUsage (resourceType : String) (token : ScopedResourceToken) : HostM Unit := do
  let state ← get
  let (result, ledger) :=
    ManaRepositoryAdapter.recordUsage inMemoryManaLedger state.ledger 0 host.callerDid token
  set { state with ledger := ledger }
  match result with
  | .ok () => return ()
  | .error e => throw (.resourceManagementError
      ("Failed to record usage for resource '" ++ resourceType ++ "': " ++ e))

def hostUseResource (resourceTypePtr resourceTypeLen : UInt32) (amount : UInt64) :
    HostM Int32 := do
  let memory ← getMemory
  let resourceType ← readStringFromMemCtx lib memory resourceTypePtr resourceTypeLen
  if resourceType = "mana" then
    host.recordUsage resourceType (host.manaToken lib amount)
    return 0
  else
    throw (.invalidParameter
      ("Unsupported resource type string for host_use_resource: " ++ resourceType))

def hostTransferToken (tokenTypePtr tokenTypeLen : UInt32) (amount : UInt64)
    (senderDidPtr senderDidLen recipientDidPtr recipientDidLen : UInt32) : HostM Int32 := do
  let memory ← getMemory
  let tokenType ← readStringFromMemCtx lib memory tokenTypePtr tokenTypeLen
  let senderDidStr ← readStringFromMemCtx lib memory senderDidPtr senderDidLen
  let recipientDidStr ← readStringFromMemCtx lib memory recipientDidPtr recipientDidLen
  let senderDid ← parseDid lib "sender" ", e: " senderDidStr
  let recipientDid ← parseDid lib "recipient" ", e: " recipientDidStr
  withContext fun ctx =>
    ctx.transferToken tokenType amount.toInt64 (some senderDid.asStr) recipientDid.asStr
  return 0

def submitMeshJob (_cborPayload : List UInt8) (writeBack : String → HostM Int32) :
    HostM Int32 :=
  writeBack "dummy_mesh_job_123"

def hostSubmitMeshJob (cborPayloadPtr cborPayloadLen jobIdBufferPtr jobIdBufferLen : UInt32) :
    HostM Int32 := do
  let memory ← getMemory
  let cborPayload ← readBytesFromMemCtx lib memory cborPayloadPtr cborPayloadLen
  submitMeshJob cborPayload fun jobId =>
    writeStringToMemCtx lib memory jobId jobIdBufferPtr jobIdBufferLen

def call : HostCall → HostM Int32
  | .beginSection kindPtr kindLen titlePtr titleLen =>
      hostBeginSection lib kindPtr kindLen titlePtr titleLen
  | .endSection => hostEndSection
  | .setProperty keyPtr keyLen valueJsonPtr valueJsonLen =>
      hostSetProperty lib keyPtr keyLen valueJsonPtr valueJsonLen
  | .anchorData pathPtr pathLen dataRefPtr dataRefLen =>
      hostAnchorData lib pathPtr pathLen dataRefPtr dataRefLen
  | .genericCall fnNamePtr fnNameLen argsPayloadPtr argsPayloadLen =>
      hostGenericCall lib fnNamePtr fnNameLen argsPayloadPtr argsPayloadLen
  | .createProposal idPtr idLen titlePtr titleLen versionPtr versionLen =>
      hostCreateProposal lib idPtr idLen titlePtr titleLen versionPtr versionLen
  | .mintToken resourceTypePtr resourceTypeLen amount recipientDidPtr recipientDidLen
      dataJsonPtr dataJsonLen =>
      hostMintToken lib resourceTypePtr resourceTypeLen amount recipientDidPtr recipientDidLen
        dataJsonPtr dataJsonLen
  | .ifConditionEval conditionStrPtr conditionStrLen =>
      hostIfConditionEval lib conditionStrPtr conditionStrLen
  | .elseHandler => hostElseHandler
  | .endifHandler => hostEndifHandler
  | .logTodo msgPtr msgLen => hostLogTodo lib msgPtr msgLen
  | .onEvent eventPtr eventLen => hostOnEvent lib eventPtr eventLen
  | .logDebugDeprecated messagePtr messageLen => hostLogDebugDeprecated lib messagePtr messageLen
  | .rangeCheck value minVal maxVal => hostRangeCheck value minVal maxVal
  | .useResource resourceTypePtr resourceTypeLen amount =>
      hostUseResource lib host resourceTypePtr resourceTypeLen amount
  | .transferToken tokenTypePtr tokenTypeLen amount senderDidPtr senderDidLen recipientDidPtr
      recipientDidLen =>
      hostTransferToken lib tokenTypePtr tokenTypeLen amount senderDidPtr senderDidLen
        recipientDidPtr recipientDidLen
  | .submitMeshJob cborPayloadPtr cborPayloadLen jobIdBufferPtr jobIdBufferLen =>
      hostSubmitMeshJob lib cborPayloadPtr cborPayloadLen jobIdBufferPtr jobIdBufferLen

end ConcreteHostEnvironment

end Runtime

end Icn

import Icn.Foundation.Codec.Bytes
import Icn.Foundation.Run.Metered
import Icn.Foundation.Word.Machine

/-!
# The host of the core VM

A guest calls five host functions. Each of them counts the call, looks for the exported
memory of the guest, reads one text or more from it, and puts what it has read into the
context. A refusal traps the guest.

A context has four meters (`HostContext.tally`). `adds_hostCall` says what an accepted
call adds to each of them, and it is read off the arguments of the call alone. Checking
an authorisation reads a text that is not counted as input.
-/

open Foundation

namespace Icn

namespace CoreVm

structure ExecutionMetrics where
  hostCalls : UInt64
  ioBytes : UInt64
  anchoredCidsCount : UInt64
  jobSubmissionsCount : UInt64
deriving DecidableEq, Repr

structure ResourceLimits where
  maxFuel : UInt64
  maxHostCalls : UInt32
  maxIoBytes : UInt64
  maxAnchoredCids : UInt64
  maxJobSubmissions : UInt64
deriving DecidableEq, Repr

def ResourceLimits.default : ResourceLimits where
  maxFuel := 10000000
  maxHostCalls := 1000
  maxIoBytes := 10000000
  maxAnchoredCids := 1000
  maxJobSubmissions := 1000

structure JobSubmission where
  wasmCid : String
  description : String
  resourceType : String
  resourceAmount : UInt64
  priority : String
deriving DecidableEq, Repr

structure HostContext where
  metrics : ExecutionMetrics
  logs : List String
  anchoredCids : List String
  resourceUsage : List (String × UInt64)
  jobSubmissions : List JobSubmission
deriving DecidableEq, Repr

def HostContext.default : HostContext where
  metrics := ⟨0, 0, 0, 0⟩
  logs := []
  anchoredCids := []
  resourceUsage := []
  jobSubmissions := []

inductive HostCall where
  | log (ptr len : Int32)
  | anchor (ptr len : Int32)
  | checkAuth (typePtr typeLen : Int32) (amount : Int64)
  | recordUsage (typePtr typeLen : Int32) (amount : Int64)
  | submitJob (wasmCidPtr wasmCidLen descPtr descLen rsrcTypePtr rsrcTypeLen : Int32)
      (rsrcAmount : Int64) (priorityPtr priorityLen : Int32)
deriving DecidableEq, Repr

/-- A call, with the memory that the guest exports when it is made. -/
structure Invocation where
  call : HostCall
  memory : Option (List UInt8)

section Functions

variable (mode : Overflow)

def countCall (context : HostContext) : Halting String HostContext := do
  let hostCalls ← Halting.ofOption (mode.add context.metrics.hostCalls 1)
  return { context with metrics := { context.metrics with hostCalls := hostCalls } }

/-- Adds a length, taken as an unsigned word, to the number of bytes. -/
def chargeIo (len : Int32) (context : HostContext) : Halting String HostContext := do
  let ioBytes ← Halting.ofOption (mode.add context.metrics.ioBytes len.toInt64.toUInt64)
  return { context with metrics := { context.metrics with ioBytes := ioBytes } }

def exportedMemory : Option (List UInt8) → Halting String (List UInt8)
  | some memory => return memory
  | none => throw "Failed to find memory export"

def readText (memory : List UInt8) (ptr len : Int32) (invalidAccess invalidUtf8 : String) :
    Halting String String := do
  let start := ptr.toUInt32.toNat
  let stop : UInt32 ← Halting.ofOption (mode.narrow (ptr.toUInt32.toNat + len.toUInt32.toNat))
  if start ≤ stop.toNat ∧ stop.toNat ≤ memory.length then
    match Codec.ofUtf8 ((memory.drop start).take (stop.toNat - start)) with
    | some text => return text
    | none => throw invalidUtf8
  else throw invalidAccess

def hostFunction (memory : Option (List UInt8)) (context : HostContext)
    (body : List UInt8 → HostContext → Halting String HostContext) :
    Halting String HostContext := do
  let context ← countCall mode context
  let memory ← exportedMemory memory
  body memory context

def log (ptr len : Int32) (memory : Option (List UInt8)) (context : HostContext) :
    Halting String HostContext :=
  hostFunction mode memory context fun memory context => do
    let message ← readText mode memory ptr len "Invalid memory access"
      "Invalid UTF-8 in log message"
    chargeIo mode len { context with logs := context.logs ++ [message] }

def anchor (ptr len : Int32) (memory : Option (List UInt8)) (context : HostContext) :
    Halting String HostContext :=
  hostFunction mode memory context fun memory context => do
    let cidStr ← readText mode memory ptr len "Invalid memory access" "Invalid UTF-8 in CID"
    chargeIo mode len { context with anchoredCids := context.anchoredCids ++ [cidStr] }

def checkAuth (typePtr typeLen : Int32) (_amount : Int64) (memory : Option (List UInt8))
    (context : HostContext) : Halting String HostContext :=
  hostFunction mode memory context fun memory context => do
    let _resourceType ← readText mode memory typePtr typeLen "Invalid memory access"
      "Invalid UTF-8 in resource type"
    return context

def recordUsage (typePtr typeLen : Int32) (amount : Int64) (memory : Option (List UInt8))
    (context : HostContext) : Halting String HostContext :=
  hostFunction mode memory context fun memory context => do
    let resourceType ← readText mode memory typePtr typeLen "Invalid memory access"
      "Invalid UTF-8 in resource type"
    chargeIo mode typeLen
      { context with
        resourceUsage := context.resourceUsage ++ [(resourceType, amount.toUInt64)] }

def submitJob (wasmCidPtr wasmCidLen descPtr descLen rsrcTypePtr rsrcTypeLen : Int32)
    (rsrcAmount : Int64) (priorityPtr priorityLen : Int32) (memory : Option (List UInt8))
    (context : HostContext) : Halting String HostContext :=
  hostFunction mode memory context fun memory context => do
    let wasmCid ← readText mode memory wasmCidPtr wasmCidLen "Invalid memory access for WASM CID"
      "Invalid UTF-8 in WASM CID"
    let description ← readText mode memory descPtr descLen "Invalid memory access for description"
      "Invalid UTF-8 in job description"
    let resourceType ← readText mode memory rsrcTypePtr rsrcTypeLen
      "Invalid memory access for resource type" "Invalid UTF-8 in resource type"
    let priority ← readText mode memory priorityPtr priorityLen
      "Invalid memory access for priority" "Invalid UTF-8 in job priority"
    let job : JobSubmission :=
      { wasmCid := wasmCid
        description := description
        resourceType := resourceType
        resourceAmount := rsrcAmount.toUInt64
        priority := priority }
    let len ← Halting.ofOption (mode.addInt32 wasmCidLen descLen)
    let len ← Halting.ofOption (mode.addInt32 len rsrcTypeLen)
    let len ← Halting.ofOption (mode.addInt32 len priorityLen)
    chargeIo mode len { context with jobSubmissions := context.jobSubmissions ++ [job] }

def hostCall (context : HostContext) (invocation : Invocation) : Halting String HostContext :=
  match invocation.call with
  | .log ptr len => log mode ptr len invocation.memory context
  | .anchor ptr len => anchor mode ptr len invocation.memory context
  | .checkAuth typePtr typeLen amount =>
      checkAuth mode typePtr typeLen amount invocation.memory context
  | .recordUsage typePtr typeLen amount =>
      recordUsage mode typePtr typeLen amount invocation.memory context
  | .submitJob wasmCidPtr wasmCidLen descPtr descLen rsrcTypePtr rsrcTypeLen rsrcAmount priorityPtr
      priorityLen =>
      submitJob mode wasmCidPtr wasmCidLen descPtr descLen rsrcTypePtr rsrcTypeLen rsrcAmount
        priorityPtr priorityLen invocation.memory context

end Functions

namespace HostCall

def ioBytes : HostCall → UInt64
  | log _ len => len.toInt64.toUInt64
  | anchor _ len => len.toInt64.toUInt64
  | checkAuth .. => 0
  | recordUsage _ typeLen _ => typeLen.toInt64.toUInt64
  | submitJob _ wasmCidLen _ descLen _ rsrcTypeLen _ _ priorityLen =>
      (wasmCidLen + descLen + rsrcTypeLen + priorityLen).toInt64.toUInt64

@[simp] def isAnchor : HostCall → Bool
  | anchor .. => true
  | _ => false

@[simp] def isSubmission : HostCall → Bool
  | submitJob .. => true
  | _ => false

def tally (call : HostCall) : UInt64 × UInt64 × ℕ × ℕ :=
  (1, call.ioBytes, if call.isAnchor then 1 else 0, if call.isSubmission then 1 else 0)

end HostCall

def HostContext.tally (context : HostContext) : UInt64 × UInt64 × ℕ × ℕ :=
  (context.metrics.hostCalls, context.metrics.ioBytes, context.anchoredCids.length,
    context.jobSubmissions.length)

section Tally

variable (mode : Overflow)

theorem adds_countCall : Adds HostContext.tally (countCall mode) (1, 0, 0, 0) := by
  intro context context' h
  obtain ⟨hostCalls, hadd, h⟩ := Halting.returns_bind_iff.mp h
  rw [← Halting.returns_pure_iff.mp h,
    Overflow.eq_add_of_add_eq_some (Halting.returns_ofOption_iff.mp hadd)]
  simp [HostContext.tally]

theorem adds_chargeIo (len : Int32) :
    Adds HostContext.tally (chargeIo mode len) (0, len.toInt64.toUInt64, 0, 0) := by
  intro context context' h
  obtain ⟨ioBytes, hadd, h⟩ := Halting.returns_bind_iff.mp h
  rw [← Halting.returns_pure_iff.mp h,
    Overflow.eq_add_of_add_eq_some (Halting.returns_ofOption_iff.mp hadd)]
  simp [HostContext.tally]

theorem adds_hostFunction (memory : Option (List UInt8))
    {body : List UInt8 → HostContext → Halting String HostContext} {bytes : UInt64}
    {anchors jobs : ℕ}
    (h : ∀ memory, Adds HostContext.tally (body memory) (0, bytes, anchors, jobs)) :
    Adds HostContext.tally (fun context => hostFunction mode memory context body)
      (1, bytes, anchors, jobs) := by
  have hsum : (1, bytes, anchors, jobs) =
      ((1, 0, 0, 0) + (0, bytes, anchors, jobs) : UInt64 × UInt64 × ℕ × ℕ) := by
    simp
  rw [hsum]
  exact (adds_countCall mode).bind (Adds.of_bind h)

theorem adds_store (len : Int32) {store : HostContext → HostContext} {anchors jobs : ℕ}
    (h : ∀ context, (store context).tally = context.tally + (0, 0, anchors, jobs)) :
    Adds HostContext.tally (fun context => chargeIo mode len (store context))
      (0, len.toInt64.toUInt64, anchors, jobs) := by
  intro context context' hcharge
  rw [adds_chargeIo mode len (store context) context' hcharge, h, add_assoc]
  simp

variable (memory : Option (List UInt8))

theorem adds_log (ptr len : Int32) :
    Adds HostContext.tally (log mode ptr len memory) (HostCall.log ptr len).tally :=
  adds_hostFunction mode memory fun _ => Adds.of_bind fun _ =>
    adds_store mode len fun context => by simp [HostContext.tally]

theorem adds_anchor (ptr len : Int32) :
    Adds HostContext.tally (anchor mode ptr len memory) (HostCall.anchor ptr len).tally :=
  adds_hostFunction mode memory fun _ => Adds.of_bind fun _ =>
    adds_store mode len fun context => by simp [HostContext.tally]

theorem adds_checkAuth (typePtr typeLen : Int32) (amount : Int64) :
    Adds HostContext.tally (checkAuth mode typePtr typeLen amount memory)
      (HostCall.checkAuth typePtr typeLen amount).tally :=
  adds_hostFunction mode memory fun _ => Adds.of_bind fun _ =>
    adds_pure fun _ => (add_zero _).symm

theorem adds_recordUsage (typePtr typeLen : Int32) (amount : Int64) :
    Adds HostContext.tally (recordUsage mode typePtr typeLen amount memory)
      (HostCall.recordUsage typePtr typeLen amount).tally :=
  adds_hostFunction mode memory fun _ => Adds.of_bind fun _ =>
    adds_store mode typeLen fun context => by simp [HostContext.tally]

theorem adds_submitJob (wasmCidPtr wasmCidLen descPtr descLen rsrcTypePtr rsrcTypeLen : Int32)
    (rsrcAmount : Int64) (priorityPtr priorityLen : Int32) :
    Adds HostContext.tally
      (submitJob mode wasmCidPtr wasmCidLen descPtr descLen rsrcTypePtr rsrcTypeLen rsrcAmount
        priorityPtr priorityLen memory)
      (HostCall.submitJob wasmCidPtr wasmCidLen descPtr descLen rsrcTypePtr rsrcTypeLen rsrcAmount
        priorityPtr priorityLen).tally := by
  refine adds_hostFunction mode memory fun _ => Adds.of_bind fun _ => Adds.of_bind fun _ =>
    Adds.of_bind fun _ => Adds.of_bind fun _ => ?_
  intro context context' h
  obtain ⟨len, hlen, h⟩ := Halting.returns_bind_iff.mp h
  obtain ⟨len', hlen', h⟩ := Halting.returns_bind_iff.mp h
  obtain ⟨len'', hlen'', h⟩ := Halting.returns_bind_iff.mp h
  rw [Halting.returns_ofOption_iff] at hlen hlen' hlen''
  obtain rfl := Overflow.eq_add_of_addInt32_eq_some hlen
  obtain rfl := Overflow.eq_add_of_addInt32_eq_some hlen'
  obtain rfl := Overflow.eq_add_of_addInt32_eq_some hlen''
  rw [adds_chargeIo mode _ _ context' h]
  simp [HostContext.tally, HostCall.ioBytes]

theorem adds_hostCall (invocation : Invocation) :
    Adds HostContext.tally (fun context => hostCall mode context invocation)
      invocation.call.tally := by
  obtain ⟨call, memory⟩ := invocation
  cases call with
  | log ptr len => exact adds_log mode memory ptr len
  | anchor ptr len => exact adds_anchor mode memory ptr len
  | checkAuth typePtr typeLen amount => exact adds_checkAuth mode memory typePtr typeLen amount
  | recordUsage typePtr typeLen amount => exact adds_recordUsage mode memory typePtr typeLen amount
  | submitJob wasmCidPtr wasmCidLen descPtr descLen rsrcTypePtr rsrcTypeLen rsrcAmount priorityPtr
      priorityLen =>
      exact adds_submitJob mode memory wasmCidPtr wasmCidLen descPtr descLen rsrcTypePtr
        rsrcTypeLen rsrcAmount priorityPtr priorityLen

end Tally

end CoreVm

end Icn

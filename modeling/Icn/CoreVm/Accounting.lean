import Icn.CoreVm.Host
import Icn.Foundation.Run.Keeping
import Icn.Foundation.Word.Signed

/-!
# The accounts of the core VM

The context of a guest is shared, so a host function that refuses a call leaves behind what
it has done by then. The host functions are programs that keep the context, and what they
do to it where they accept a call is what `hostCall` says (`forget_perform`).

A `Ledger` keeps the accounts in natural numbers. A refusal is a call and nothing else, and
a call that is accepted puts one record into the ledger and is charged for the bytes that
it has read. The check of an authorisation is a question: there is nothing to record.

The code reads and charges with words. It does to the context what the ledger says as long
as the ranges of the texts end within a word, the lengths add up to less than the half of
the signed words, and the counters have room (`hostCalls_accounted_iff`).
-/

open Foundation Foundation.Keeping

namespace Icn

namespace CoreVm

/-- A host function works on the context of the guest. -/
abbrev HostProgram := Keeping String HostContext

section Functions

variable (mode : Overflow)

def createLogFunction (ptr len : Int32) (memory : Option (List UInt8)) :
    HostProgram (List Int32) := do
  updating (countCall mode)
  let memory ← reading (exportedMemory memory)
  let message ← reading
    (readText mode memory ptr len "Invalid memory access" "Invalid UTF-8 in log message")
  writing fun context => { context with logs := context.logs ++ [message] }
  updating (chargeIo mode len)
  return []

def createAnchorFunction (ptr len : Int32) (memory : Option (List UInt8)) :
    HostProgram (List Int32) := do
  updating (countCall mode)
  let memory ← reading (exportedMemory memory)
  let cidStr ← reading
    (readText mode memory ptr len "Invalid memory access" "Invalid UTF-8 in CID")
  writing fun context => { context with anchoredCids := context.anchoredCids ++ [cidStr] }
  updating (chargeIo mode len)
  return []

def createCheckAuthFunction (typePtr typeLen : Int32) (_amount : Int64)
    (memory : Option (List UInt8)) : HostProgram (List Int32) := do
  updating (countCall mode)
  let memory ← reading (exportedMemory memory)
  let _resourceType ← reading
    (readText mode memory typePtr typeLen "Invalid memory access" "Invalid UTF-8 in resource type")
  return [1]

def createRecordUsageFunction (typePtr typeLen : Int32) (amount : Int64)
    (memory : Option (List UInt8)) : HostProgram (List Int32) := do
  updating (countCall mode)
  let memory ← reading (exportedMemory memory)
  let resourceType ← reading
    (readText mode memory typePtr typeLen "Invalid memory access" "Invalid UTF-8 in resource type")
  writing fun context =>
    { context with resourceUsage := context.resourceUsage ++ [(resourceType, amount.toUInt64)] }
  updating (chargeIo mode typeLen)
  return []

def createSubmitJobFunction (wasmCidPtr wasmCidLen descPtr descLen rsrcTypePtr rsrcTypeLen : Int32)
    (rsrcAmount : Int64) (priorityPtr priorityLen : Int32) (memory : Option (List UInt8)) :
    HostProgram (List Int32) := do
  updating (countCall mode)
  let memory ← reading (exportedMemory memory)
  let wasmCid ← reading
    (readText mode memory wasmCidPtr wasmCidLen "Invalid memory access for WASM CID"
      "Invalid UTF-8 in WASM CID")
  let description ← reading
    (readText mode memory descPtr descLen "Invalid memory access for description"
      "Invalid UTF-8 in job description")
  let resourceType ← reading
    (readText mode memory rsrcTypePtr rsrcTypeLen "Invalid memory access for resource type"
      "Invalid UTF-8 in resource type")
  let priority ← reading
    (readText mode memory priorityPtr priorityLen "Invalid memory access for priority"
      "Invalid UTF-8 in job priority")
  let job : JobSubmission :=
    { wasmCid := wasmCid
      description := description
      resourceType := resourceType
      resourceAmount := rsrcAmount.toUInt64
      priority := priority }
  writing fun context => { context with jobSubmissions := context.jobSubmissions ++ [job] }
  let len ← reading (Halting.ofOption (mode.addInt32 wasmCidLen descLen))
  let len ← reading (Halting.ofOption (mode.addInt32 len rsrcTypeLen))
  let len ← reading (Halting.ofOption (mode.addInt32 len priorityLen))
  updating (chargeIo mode len)
  return [1]

def perform (invocation : Invocation) : HostProgram (List Int32) :=
  match invocation.call with
  | .log ptr len => createLogFunction mode ptr len invocation.memory
  | .anchor ptr len => createAnchorFunction mode ptr len invocation.memory
  | .checkAuth typePtr typeLen amount =>
      createCheckAuthFunction mode typePtr typeLen amount invocation.memory
  | .recordUsage typePtr typeLen amount =>
      createRecordUsageFunction mode typePtr typeLen amount invocation.memory
  | .submitJob wasmCidPtr wasmCidLen descPtr descLen rsrcTypePtr rsrcTypeLen rsrcAmount priorityPtr
      priorityLen =>
      createSubmitJobFunction mode wasmCidPtr wasmCidLen descPtr descLen rsrcTypePtr rsrcTypeLen
        rsrcAmount priorityPtr priorityLen invocation.memory

theorem forget_perform (invocation : Invocation) (context : HostContext) :
    (perform mode invocation).forget context = hostCall mode context invocation := by
  obtain ⟨call, memory⟩ := invocation
  cases call with
  | log ptr len =>
      simp only [perform, createLogFunction, forget_updating_bind, forget_reading_bind,
        forget_writing_bind, forget_pure, bind_pure]
      rfl
  | anchor ptr len =>
      simp only [perform, createAnchorFunction, forget_updating_bind, forget_reading_bind,
        forget_writing_bind, forget_pure, bind_pure]
      rfl
  | checkAuth typePtr typeLen amount =>
      simp only [perform, createCheckAuthFunction, forget_updating_bind, forget_reading_bind,
        forget_pure]
      rfl
  | recordUsage typePtr typeLen amount =>
      simp only [perform, createRecordUsageFunction, forget_updating_bind, forget_reading_bind,
        forget_writing_bind, forget_pure, bind_pure]
      rfl
  | submitJob =>
      simp only [perform, createSubmitJobFunction, forget_updating_bind, forget_reading_bind,
        forget_writing_bind, forget_pure, bind_pure]
      rfl

end Functions

inductive Record where
  | logged (message : String)
  | anchored (cid : String)
  | used (resourceType : String) (amount : UInt64)
  | submitted (job : JobSubmission)
deriving DecidableEq, Repr

namespace HostContext

def withCalls (hostCalls : UInt64) (context : HostContext) : HostContext :=
  { context with metrics := { context.metrics with hostCalls := hostCalls } }

def withBytes (ioBytes : UInt64) (context : HostContext) : HostContext :=
  { context with metrics := { context.metrics with ioBytes := ioBytes } }

def append (record : Record) (context : HostContext) : HostContext :=
  match record with
  | .logged message => { context with logs := context.logs ++ [message] }
  | .anchored cid => { context with anchoredCids := context.anchoredCids ++ [cid] }
  | .used resourceType amount =>
      { context with resourceUsage := context.resourceUsage ++ [(resourceType, amount)] }
  | .submitted job => { context with jobSubmissions := context.jobSubmissions ++ [job] }

@[simp] theorem metrics_append (record : Record) (context : HostContext) :
    (context.append record).metrics = context.metrics := by
  cases record <;> rfl

end HostContext

/-- A text that a guest passes by its place in the memory, and the errors of reading it. -/
structure TextRequest where
  ptr : Int32
  len : Int32
  invalidAccess : String
  invalidUtf8 : String

def TextRequest.read (mode : Overflow) (memory : List UInt8) (request : TextRequest) :
    Halting String String :=
  readText mode memory request.ptr request.len request.invalidAccess request.invalidUtf8

namespace TextRequest

def start (request : TextRequest) : ℕ := lengthOf request.ptr

def length (request : TextRequest) : ℕ := lengthOf request.len

/-- The memory holds the text in the range that is asked for. -/
def Holds (memory : List UInt8) (request : TextRequest) (text : String) : Prop :=
  request.start + request.length ≤ memory.length ∧
    Codec.utf8 text = (memory.drop request.start).take request.length

/-- The range ends within a word. -/
def InWord (request : TextRequest) : Prop := request.start + request.length < 2 ^ 32

theorem read_eq (mode : Overflow) (memory : List UInt8) (request : TextRequest) :
    request.read mode memory = (do
      let stop : UInt32 ← Halting.ofOption (mode.narrow (request.start + request.length))
      if request.start ≤ stop.toNat ∧ stop.toNat ≤ memory.length then
        match Codec.ofUtf8 ((memory.drop request.start).take (stop.toNat - request.start)) with
        | some text => return text
        | none => throw request.invalidUtf8
      else throw request.invalidAccess) := rfl

theorem returns_read_iff {mode : Overflow} {memory : List UInt8} {request : TextRequest}
    {text : String} :
    (request.read mode memory).Returns text ↔ request.InWord ∧ request.Holds memory text := by
  have hlen : request.length < 2 ^ 32 := lengthOf_lt request.len
  rw [read_eq, Halting.returns_bind_iff]
  constructor
  · rintro ⟨stop, hstop, h⟩
    have hvalue : stop.toNat = (request.start + request.length) % 2 ^ 32 :=
      Overflow.value_of_narrow (Halting.returns_ofOption_iff.mp hstop)
    split_ifs at h with hrange
    · obtain ⟨hle, hmemory⟩ := hrange
      -- A sum that wraps around is below the start of the range.
      have hword : request.InWord := by
        rw [InWord]
        omega
      rw [Nat.mod_eq_of_lt hword] at hvalue
      rw [hvalue] at h hmemory
      split at h
      next text' htext =>
        obtain rfl := Halting.returns_pure_iff.mp h
        refine ⟨hword, hmemory, ?_⟩
        rw [Codec.ofUtf8_eq_some_iff.mp htext]
        exact congrArg (List.take · _) (Nat.add_sub_cancel_left ..)
      next => exact absurd h (Halting.not_returns_throw _ _)
    · exact absurd h (Halting.not_returns_throw _ _)
  · rintro ⟨hword, hmemory, htext⟩
    have hvalue : (MachineWord.ofValue (request.start + request.length) : UInt32).toNat =
        request.start + request.length :=
      MachineWord.value_ofValue_of_lt (W := UInt32) hword
    have htake : Codec.ofUtf8 ((memory.drop request.start).take
        (request.start + request.length - request.start)) = some text := by
      rw [Nat.add_sub_cancel_left, ← htext, Codec.ofUtf8_utf8]
    refine ⟨_, Halting.returns_ofOption_iff.mpr (Overflow.narrow_of_lt mode hword), ?_⟩
    rw [hvalue, if_pos ⟨Nat.le_add_right .., hmemory⟩, htake]
    exact Halting.returns_pure_iff.mpr rfl

/-- The end of a range is the only number that may not fit. -/
theorem stops_read_iff {mode : Overflow} {memory : List UInt8} {request : TextRequest} :
    (request.read mode memory).Stops ↔ mode = .stop ∧ ¬ request.InWord := by
  rw [read_eq, Halting.stops_bind_iff, Halting.stops_ofOption_iff,
    Overflow.narrow_eq_none_iff]
  refine or_iff_left ?_
  rintro ⟨stop, -, h⟩
  split_ifs at h with hrange
  · split at h
    next => exact Halting.not_stops_pure _ h
    next => exact Halting.not_stops_throw _ h
  · exact Halting.not_stops_throw _ h

end TextRequest

namespace HostCall

def requests : HostCall → List TextRequest
  | log ptr len => [⟨ptr, len, "Invalid memory access", "Invalid UTF-8 in log message"⟩]
  | anchor ptr len => [⟨ptr, len, "Invalid memory access", "Invalid UTF-8 in CID"⟩]
  | checkAuth typePtr typeLen _ | recordUsage typePtr typeLen _ =>
      [⟨typePtr, typeLen, "Invalid memory access", "Invalid UTF-8 in resource type"⟩]
  | submitJob wasmCidPtr wasmCidLen descPtr descLen rsrcTypePtr rsrcTypeLen _ priorityPtr
      priorityLen =>
      [⟨wasmCidPtr, wasmCidLen, "Invalid memory access for WASM CID", "Invalid UTF-8 in WASM CID"⟩,
        ⟨descPtr, descLen, "Invalid memory access for description",
          "Invalid UTF-8 in job description"⟩,
        ⟨rsrcTypePtr, rsrcTypeLen, "Invalid memory access for resource type",
          "Invalid UTF-8 in resource type"⟩,
        ⟨priorityPtr, priorityLen, "Invalid memory access for priority",
          "Invalid UTF-8 in job priority"⟩]

def entry : HostCall → List String → Option Record
  | log .., [message] => some (.logged message)
  | anchor .., [cid] => some (.anchored cid)
  | recordUsage _ _ amount, [resourceType] => some (.used resourceType amount.toUInt64)
  | submitJob _ _ _ _ _ _ rsrcAmount _ _, [wasmCid, description, resourceType, priority] =>
      some (.submitted ⟨wasmCid, description, resourceType, rsrcAmount.toUInt64, priority⟩)
  | _, _ => none

/-- The call asks a question, and there is nothing to record. -/
@[simp] def isCheck : HostCall → Bool
  | checkAuth .. => true
  | _ => false

theorem entry_eq_none_iff {call : HostCall} {texts : List String}
    (h : call.requests.length = texts.length) : call.entry texts = none ↔ call.isCheck := by
  rcases texts with _ | ⟨_, _ | ⟨_, _ | ⟨_, _ | ⟨_, _ | ⟨_, _⟩⟩⟩⟩⟩ <;>
    cases call <;> simp [requests, entry] at h ⊢

def results : HostCall → List Int32
  | checkAuth .. | submitJob .. => [1]
  | _ => []

end HostCall

section Standard

variable (mode : Overflow)

def settle (call : HostCall) (texts : List String) : HostProgram (List Int32) :=
  match call.entry texts with
  | some record => do
      writing (HostContext.append record)
      let len ← reading (Halting.ofOption (mode.sumInt32 (call.requests.map TextRequest.len)))
      updating (chargeIo mode len)
      return call.results
  | none => return call.results

def serve (call : HostCall) (memory : Option (List UInt8)) : HostProgram (List Int32) := do
  let memory ← reading (exportedMemory memory)
  let texts ← reading (call.requests.mapM (TextRequest.read mode memory))
  settle mode call texts

/-- All host functions do the same with the texts that they ask for. -/
theorem perform_eq (invocation : Invocation) :
    perform mode invocation = (do
      updating (countCall mode)
      serve mode invocation.call invocation.memory) := by
  obtain ⟨call, memory⟩ := invocation
  cases call with
  | log ptr len =>
      simp only [perform, serve, createLogFunction, HostCall.requests, List.mapM_cons,
        List.mapM_nil, reading_bind, reading_pure, bind_assoc, pure_bind]
      rfl
  | anchor ptr len =>
      simp only [perform, serve, createAnchorFunction, HostCall.requests, List.mapM_cons,
        List.mapM_nil, reading_bind, reading_pure, bind_assoc, pure_bind]
      rfl
  | checkAuth typePtr typeLen amount =>
      simp only [perform, serve, createCheckAuthFunction, HostCall.requests, List.mapM_cons,
        List.mapM_nil, reading_bind, reading_pure, bind_assoc, pure_bind]
      rfl
  | recordUsage typePtr typeLen amount =>
      simp only [perform, serve, createRecordUsageFunction, HostCall.requests, List.mapM_cons,
        List.mapM_nil, reading_bind, reading_pure, bind_assoc, pure_bind]
      rfl
  | submitJob =>
      simp only [perform, serve, settle, createSubmitJobFunction, HostCall.requests, List.mapM_cons,
        List.mapM_nil, reading_bind, reading_pure, bind_assoc, pure_bind, HostCall.entry,
        List.map_cons, List.map_nil, Overflow.sumInt32, List.foldlM_cons, List.foldlM_nil,
        Option.bind_eq_bind, Halting.ofOption_bind]
      rfl

theorem returns_countCall_iff {context context' : HostContext} :
    (countCall mode context).Returns context' ↔
      ∃ hostCalls, mode.add context.metrics.hostCalls 1 = some hostCalls ∧
        context.withCalls hostCalls = context' := by
  rw [countCall, Halting.returns_bind_iff]
  exact exists_congr fun hostCalls =>
    and_congr Halting.returns_ofOption_iff Halting.returns_pure_iff

theorem returns_chargeIo_iff {len : Int32} {context context' : HostContext} :
    (chargeIo mode len context).Returns context' ↔
      ∃ ioBytes, mode.add context.metrics.ioBytes len.toInt64.toUInt64 = some ioBytes ∧
        context.withBytes ioBytes = context' := by
  rw [chargeIo, Halting.returns_bind_iff]
  exact exists_congr fun ioBytes =>
    and_congr Halting.returns_ofOption_iff Halting.returns_pure_iff

/-- How a call ends when it has been counted, and the context that it leaves. -/
inductive Ends (invocation : Invocation) (context : HostContext) :
    Except String (List Int32) → HostContext → Prop
  | unexported (hmemory : invocation.memory = none) :
      Ends invocation context (.error "Failed to find memory export") context
  | unreadable {memory : List UInt8} {e : String} (hmemory : invocation.memory = some memory)
      (hread : (invocation.call.requests.mapM (TextRequest.read mode memory)).Fails e) :
      Ends invocation context (.error e) context
  | answered {memory : List UInt8} {texts : List String}
      (hmemory : invocation.memory = some memory)
      (hread : (invocation.call.requests.mapM (TextRequest.read mode memory)).Returns texts)
      (hrecord : invocation.call.entry texts = none) :
      Ends invocation context (.ok invocation.call.results) context
  | recorded {memory : List UInt8} {texts : List String} {record : Record} {sum : Int32}
      {ioBytes : UInt64} (hmemory : invocation.memory = some memory)
      (hread : (invocation.call.requests.mapM (TextRequest.read mode memory)).Returns texts)
      (hrecord : invocation.call.entry texts = some record)
      (hsum : mode.sumInt32 (invocation.call.requests.map TextRequest.len) = some sum)
      (hadd : mode.add context.metrics.ioBytes sum.toInt64.toUInt64 = some ioBytes) :
      Ends invocation context (.ok invocation.call.results)
        ((context.append record).withBytes ioBytes)

theorem Ends.hostCalls {mode : Overflow} {invocation : Invocation}
    {context context' : HostContext} {result : Except String (List Int32)}
    (h : Ends mode invocation context result context') :
    context'.metrics.hostCalls = context.metrics.hostCalls := by
  cases h with
  | unexported hmemory => rfl
  | unreadable hmemory hread => rfl
  | answered hmemory hread hrecord => rfl
  | recorded hmemory hread hrecord hsum hadd =>
      rw [HostContext.withBytes, HostContext.metrics_append]

variable {mode}

theorem serve_none (call : HostCall) (context : HostContext) :
    (serve mode call none).runFrom context =
      some (.error "Failed to find memory export", context) := rfl

theorem serve_some (call : HostCall) (memory : List UInt8) :
    serve mode call (some memory) =
      reading (call.requests.mapM (TextRequest.read mode memory)) >>= settle mode call := rfl

theorem runFrom_settle_of_none {call : HostCall} {texts : List String} (context : HostContext)
    (h : call.entry texts = none) :
    (settle mode call texts).runFrom context = some (.ok call.results, context) := by
  rw [settle, h]
  rfl

theorem runFrom_settle_of_some {call : HostCall} {texts : List String} {record : Record}
    (context : HostContext) (h : call.entry texts = some record) :
    (settle mode call texts).runFrom context =
      ((mode.sumInt32 (call.requests.map TextRequest.len)).bind fun sum =>
        mode.add context.metrics.ioBytes sum.toInt64.toUInt64).map fun ioBytes =>
          (.ok call.results, (context.append record).withBytes ioBytes) := by
  rw [settle, h]
  show (writing _ >>= _).runFrom context = _
  rw [runFrom_writing_bind]
  cases hsum : mode.sumInt32 (call.requests.map TextRequest.len) with
  | none => exact runFrom_reading_bind_of_stops _ _ (Halting.stops_ofOption_iff.mpr rfl)
  | some sum =>
      rw [runFrom_reading_bind_of_returns _ _ (Halting.returns_ofOption_iff.mpr rfl),
        Option.bind_some, ← HostContext.metrics_append record context]
      cases hadd : mode.add (context.append record).metrics.ioBytes sum.toInt64.toUInt64 with
      | none =>
          exact runFrom_updating_bind_of_stops _ _ (Halting.stops_bind_iff.mpr
            (Or.inl (Halting.stops_ofOption_iff.mpr hadd)))
      | some ioBytes =>
          exact runFrom_updating_bind_of_returns _ _
            ((returns_chargeIo_iff mode).mpr ⟨ioBytes, hadd, rfl⟩)

/-- The program of a call that has been counted ends in these ways and in no other. -/
theorem runFrom_serve_iff {invocation : Invocation} {context context' : HostContext}
    {result : Except String (List Int32)} :
    (serve mode invocation.call invocation.memory).runFrom context = some (result, context') ↔
      Ends mode invocation context result context' := by
  constructor
  · intro h
    cases hmemory : invocation.memory with
    | none =>
        rw [hmemory, serve_none] at h
        cases h
        exact Ends.unexported hmemory
    | some memory =>
        rw [hmemory, serve_some] at h
        rcases Halting.stops_or_fails_or_returns
          (invocation.call.requests.mapM (TextRequest.read mode memory)) with
          hread | ⟨e, hread⟩ | ⟨texts, hread⟩
        · rw [runFrom_reading_bind_of_stops _ _ hread] at h
          cases h
        · rw [runFrom_reading_bind_of_fails _ _ hread] at h
          cases h
          exact Ends.unreadable hmemory hread
        · rw [runFrom_reading_bind_of_returns _ _ hread] at h
          cases hrecord : invocation.call.entry texts with
          | none =>
              rw [runFrom_settle_of_none context hrecord] at h
              cases h
              exact Ends.answered hmemory hread hrecord
          | some record =>
              rw [runFrom_settle_of_some context hrecord] at h
              obtain ⟨ioBytes, hcharge, h⟩ := Option.map_eq_some_iff.mp h
              obtain ⟨sum, hsum, hadd⟩ := Option.bind_eq_some_iff.mp hcharge
              cases h
              exact Ends.recorded hmemory hread hrecord hsum hadd
  · intro h
    cases h with
    | unexported hmemory => rw [hmemory, serve_none]
    | unreadable hmemory hread =>
        rw [hmemory, serve_some, runFrom_reading_bind_of_fails _ _ hread]
    | answered hmemory hread hrecord =>
        rw [hmemory, serve_some, runFrom_reading_bind_of_returns _ _ hread,
          runFrom_settle_of_none context hrecord]
    | recorded hmemory hread hrecord hsum hadd =>
        rw [hmemory, serve_some, runFrom_reading_bind_of_returns _ _ hread,
          runFrom_settle_of_some context hrecord, hsum, Option.bind_some, hadd]
        rfl

end Standard

/-- The ranges end within a word, as far as they are reached: a range is reached where the
texts before it are read. -/
def ReachedInWord (memory : List UInt8) : List TextRequest → Prop
  | [] => True
  | request :: requests => request.InWord ∧
      ((∃ text, request.Holds memory text) → ReachedInWord memory requests)

theorem stops_mapM_read_iff {mode : Overflow} {memory : List UInt8}
    {requests : List TextRequest} :
    (requests.mapM (TextRequest.read mode memory)).Stops ↔
      mode = .stop ∧ ¬ ReachedInWord memory requests := by
  induction requests with
  | nil => exact iff_of_false (Halting.not_stops_pure _) fun h => h.2 trivial
  | cons request requests ih =>
      rw [Halting.stops_mapM_cons_iff, TextRequest.stops_read_iff, ih, ReachedInWord]
      simp only [TextRequest.returns_read_iff, exists_and_left]
      by_cases hword : request.InWord <;> simp [hword, and_left_comm]

structure Ledger where
  hostCalls : ℕ
  ioBytes : ℕ
  anchoredCidsCount : UInt64
  jobSubmissionsCount : UInt64
  logs : List String
  anchoredCids : List String
  resourceUsage : List (String × UInt64)
  jobSubmissions : List JobSubmission

namespace Ledger

def count (ledger : Ledger) : Ledger := { ledger with hostCalls := ledger.hostCalls + 1 }

def charge (bytes : ℕ) (ledger : Ledger) : Ledger :=
  { ledger with ioBytes := ledger.ioBytes + bytes }

def append (record : Record) (ledger : Ledger) : Ledger :=
  match record with
  | .logged message => { ledger with logs := ledger.logs ++ [message] }
  | .anchored cid => { ledger with anchoredCids := ledger.anchoredCids ++ [cid] }
  | .used resourceType amount =>
      { ledger with resourceUsage := ledger.resourceUsage ++ [(resourceType, amount)] }
  | .submitted job => { ledger with jobSubmissions := ledger.jobSubmissions ++ [job] }

@[simp] theorem hostCalls_append (record : Record) (ledger : Ledger) :
    (ledger.append record).hostCalls = ledger.hostCalls := by
  cases record <;> rfl

@[simp] theorem ioBytes_append (record : Record) (ledger : Ledger) :
    (ledger.append record).ioBytes = ledger.ioBytes := by
  cases record <;> rfl

end Ledger

def HostCall.bytesRead (call : HostCall) : ℕ := (call.requests.map TextRequest.length).sum

/-- What a call does to the ledger, and what it returns. A call that asks a question makes
no record, and it is charged for what it has read at most. -/
inductive Ledger.Step (invocation : Invocation) (ledger : Ledger) :
    Except String (List Int32) → Ledger → Prop
  | refused (e : String) : Step invocation ledger (.error e) ledger.count
  | recorded {memory : List UInt8} {texts : List String} {record : Record}
      (hmemory : invocation.memory = some memory)
      (htexts : List.Forall₂ (TextRequest.Holds memory) invocation.call.requests texts)
      (hrecord : invocation.call.entry texts = some record) :
      Step invocation ledger (.ok invocation.call.results)
        ((ledger.count.append record).charge invocation.call.bytesRead)
  | answered {memory : List UInt8} {texts : List String} {bytes : ℕ}
      (hmemory : invocation.memory = some memory)
      (htexts : List.Forall₂ (TextRequest.Holds memory) invocation.call.requests texts)
      (hcheck : invocation.call.isCheck)
      (hbytes : bytes ≤ invocation.call.bytesRead) :
      Step invocation ledger (.ok invocation.call.results) (ledger.count.charge bytes)

theorem Ledger.Step.hostCalls {invocation : Invocation} {ledger ledger' : Ledger}
    {result : Except String (List Int32)} (h : Ledger.Step invocation ledger result ledger') :
    ledger'.hostCalls = ledger.hostCalls + 1 := by
  cases h with
  | refused e => rfl
  | recorded hmemory htexts hrecord => exact Ledger.hostCalls_append _ ledger.count
  | answered hmemory htexts hcheck hbytes => rfl

/-- A call that is accepted is charged for what it has read, unless it asks a question. -/
theorem Ledger.Step.ioBytes {invocation : Invocation} {ledger ledger' : Ledger}
    {results : List Int32} (h : Ledger.Step invocation ledger (.ok results) ledger')
    (hcheck : invocation.call.isCheck = false) :
    ledger'.ioBytes = ledger.ioBytes + invocation.call.bytesRead := by
  cases h with
  | recorded hmemory htexts hrecord =>
      exact congrArg (· + _) (Ledger.ioBytes_append _ ledger.count)
  | answered hmemory htexts hcheck' hbytes =>
      rw [hcheck] at hcheck'
      cases hcheck'

namespace HostContext

def ledger (context : HostContext) : Ledger where
  hostCalls := context.metrics.hostCalls.toNat
  ioBytes := context.metrics.ioBytes.toNat
  anchoredCidsCount := context.metrics.anchoredCidsCount
  jobSubmissionsCount := context.metrics.jobSubmissionsCount
  logs := context.logs
  anchoredCids := context.anchoredCids
  resourceUsage := context.resourceUsage
  jobSubmissions := context.jobSubmissions

theorem ledger_append (record : Record) (context : HostContext) :
    (context.append record).ledger = context.ledger.append record := by
  cases record <;> rfl

theorem ledger_withCalls {context : HostContext} {hostCalls : UInt64}
    (h : hostCalls.toNat = context.metrics.hostCalls.toNat + 1) :
    (context.withCalls hostCalls).ledger = context.ledger.count := by
  rw [Ledger.count]
  show Ledger.mk .. = Ledger.mk ..
  rw [withCalls, h]
  rfl

theorem ledger_withBytes (bytes : ℕ) {context : HostContext} {ioBytes : UInt64}
    (h : ioBytes.toNat = context.metrics.ioBytes.toNat + bytes) :
    (context.withBytes ioBytes).ledger = context.ledger.charge bytes := by
  rw [Ledger.charge]
  show Ledger.mk .. = Ledger.mk ..
  rw [withBytes, h]
  rfl

end HostContext

section Accounts

variable (mode : Overflow)

/-- A call ends, and does to the context what it does to the ledger. -/
def Accounted (context : HostContext) (invocation : Invocation) : Prop :=
  ∃ result context', (perform mode invocation).runFrom context = some (result, context') ∧
    Ledger.Step invocation context.ledger result context'.ledger

/-- The numbers of a call fit the words that they are kept in. -/
def Fits (context : HostContext) (invocation : Invocation) : Prop :=
  context.metrics.hostCalls.toNat + 1 < 2 ^ 64 ∧
    ∀ memory, invocation.memory = some memory →
      (mode = .stop → ReachedInWord memory invocation.call.requests) ∧
        (invocation.call.isCheck = false →
          (∀ request ∈ invocation.call.requests,
              request.InWord ∧ ∃ text, request.Holds memory text) →
            invocation.call.bytesRead < 2 ^ 31 ∧
              context.metrics.ioBytes.toNat + invocation.call.bytesRead < 2 ^ 64)

variable {mode}

/-- The texts of a call are read exactly if their ranges end within a word and hold texts. -/
theorem exists_returns_mapM_iff {memory : List UInt8} {requests : List TextRequest} :
    (∃ texts, (requests.mapM (TextRequest.read mode memory)).Returns texts) ↔
      ∀ request ∈ requests, request.InWord ∧ ∃ text, request.Holds memory text := by
  simp only [Halting.returns_mapM_iff, TextRequest.returns_read_iff]
  induction requests with
  | nil => exact iff_of_true ⟨[], List.Forall₂.nil⟩ (List.forall_mem_nil _)
  | cons request requests ih =>
      rw [List.forall_mem_cons, ← ih]
      constructor
      · rintro ⟨texts, h⟩
        cases h with
        | cons hread hrest => exact ⟨⟨hread.1, _, hread.2⟩, _, hrest⟩
      · rintro ⟨⟨hword, text, htext⟩, texts, hrest⟩
        exact ⟨text :: texts, List.Forall₂.cons ⟨hword, htext⟩ hrest⟩

theorem forall₂_holds {memory : List UInt8} {requests : List TextRequest} {texts : List String}
    (h : (requests.mapM (TextRequest.read mode memory)).Returns texts) :
    List.Forall₂ (TextRequest.Holds memory) requests texts :=
  (Halting.returns_mapM_iff.mp h).imp fun _ _ hread => (TextRequest.returns_read_iff.mp hread).2

theorem sum_lengths (call : HostCall) :
    ((call.requests.map TextRequest.len).map lengthOf).sum = call.bytesRead := by
  rw [List.map_map]
  rfl

theorem length_requests_le (call : HostCall) :
    (call.requests.map TextRequest.len).length ≤ 4 := by
  cases call <;> simp [HostCall.requests]

theorem Ends.not_stops {invocation : Invocation} {context context' : HostContext}
    {result : Except String (List Int32)} {memory : List UInt8}
    (h : Ends mode invocation context result context')
    (hmemory : invocation.memory = some memory) :
    ¬ (invocation.call.requests.mapM (TextRequest.read mode memory)).Stops := by
  intro hstops
  cases h with
  | unexported hmemory' =>
      rw [hmemory] at hmemory'
      cases hmemory'
  | unreadable hmemory' hread | answered hmemory' hread _ | recorded hmemory' hread _ _ _ =>
      obtain rfl := Option.some.inj (hmemory.symm.trans hmemory')
      rw [Halting.Stops, hread] at hstops
      cases hstops

/-- A call that reads its texts and is no question ends with a charge. -/
theorem Ends.charged {invocation : Invocation} {context context' : HostContext}
    {result : Except String (List Int32)} {memory : List UInt8} {texts : List String}
    (h : Ends mode invocation context result context')
    (hmemory : invocation.memory = some memory)
    (hread : (invocation.call.requests.mapM (TextRequest.read mode memory)).Returns texts)
    (hcheck : invocation.call.isCheck = false) :
    result = .ok invocation.call.results ∧
      ∃ sum, mode.sumInt32 (invocation.call.requests.map TextRequest.len) = some sum ∧
        mode.add context.metrics.ioBytes sum.toInt64.toUInt64 =
          some context'.metrics.ioBytes := by
  cases h with
  | unexported hmemory' =>
      rw [hmemory] at hmemory'
      cases hmemory'
  | unreadable hmemory' hread' =>
      obtain rfl := Option.some.inj (hmemory.symm.trans hmemory')
      rw [Halting.Returns, hread'] at hread
      cases hread
  | answered hmemory' hread' hrecord =>
      obtain rfl := Option.some.inj (hmemory.symm.trans hmemory')
      rw [HostCall.entry_eq_none_iff (forall₂_holds hread').length_eq, hcheck] at hrecord
      cases hrecord
  | recorded hmemory' hread' hrecord hsum hadd => exact ⟨rfl, _, hsum, hadd⟩

theorem Fits.of_accounted {context : HostContext} {invocation : Invocation}
    (h : Accounted mode context invocation) : Fits mode context invocation := by
  obtain ⟨result, context', hrun, hstep⟩ := h
  rw [perform_eq] at hrun
  cases hadd : mode.add context.metrics.hostCalls 1 with
  | none =>
      rw [runFrom_updating_bind_of_stops _ _ (Halting.stops_bind_iff.mpr
        (Or.inl (Halting.stops_ofOption_iff.mpr hadd)))] at hrun
      cases hrun
  | some hostCalls =>
      rw [runFrom_updating_bind_of_returns _ _
        ((returns_countCall_iff mode).mpr ⟨hostCalls, hadd, rfl⟩), runFrom_serve_iff] at hrun
      constructor
      · have hcalls : hostCalls.toNat = context.metrics.hostCalls.toNat + 1 :=
          (congrArg UInt64.toNat hrun.hostCalls.symm).trans hstep.hostCalls
        rw [← hcalls]
        exact hostCalls.toNat_lt
      · intro memory hmemory
        constructor
        · intro hmode
          by_contra hreached
          exact hrun.not_stops hmemory (stops_mapM_read_iff.mpr ⟨hmode, hreached⟩)
        · intro hcheck hreads
          obtain ⟨texts, hread⟩ := exists_returns_mapM_iff.mpr hreads
          obtain ⟨rfl, sum, hsum, hcharge⟩ := hrun.charged hmemory hread hcheck
          have hexact : context'.metrics.ioBytes.toNat =
              context.metrics.ioBytes.toNat + invocation.call.bytesRead :=
            hstep.ioBytes hcheck
          rw [← sum_lengths] at hexact ⊢
          exact (mode.add_sum_lengths_iff _ (length_requests_le _)).mp
            ⟨sum, _, hsum, hcharge, hexact⟩

theorem Accounted.of_fits {context : HostContext} {invocation : Invocation}
    (h : Fits mode context invocation) : Accounted mode context invocation := by
  obtain ⟨hroom, hmemories⟩ := h
  have hone : context.metrics.hostCalls.toNat + (1 : UInt64).toNat < 2 ^ 64 := hroom
  have hcount := (returns_countCall_iff mode).mpr
    ⟨_, Overflow.add_eq_some_of_lt mode hone, rfl⟩
  have hcounted := HostContext.ledger_withCalls (Word.toNat_add_of_lt hone)
  -- It is enough to say how the call ends when it has been counted.
  suffices hends : ∃ result context', Ends mode invocation
      (context.withCalls (context.metrics.hostCalls + 1)) result context' ∧
        Ledger.Step invocation context.ledger result context'.ledger by
    obtain ⟨result, context', hend, hstep⟩ := hends
    refine ⟨result, context', ?_, hstep⟩
    rw [perform_eq, runFrom_updating_bind_of_returns _ _ hcount]
    exact runFrom_serve_iff.mpr hend
  cases hmemory : invocation.memory with
  | none =>
      refine ⟨_, _, Ends.unexported hmemory, ?_⟩
      rw [hcounted]
      exact Ledger.Step.refused _
  | some memory =>
      obtain ⟨hreached, hcharge⟩ := hmemories memory hmemory
      rcases Halting.stops_or_fails_or_returns
        (invocation.call.requests.mapM (TextRequest.read mode memory)) with
        hread | ⟨e, hread⟩ | ⟨texts, hread⟩
      · obtain ⟨hmode, hnot⟩ := stops_mapM_read_iff.mp hread
        exact absurd (hreached hmode) hnot
      · refine ⟨_, _, Ends.unreadable hmemory hread, ?_⟩
        rw [hcounted]
        exact Ledger.Step.refused e
      · have htexts := forall₂_holds hread
        have hentry := HostCall.entry_eq_none_iff htexts.length_eq
        cases hrecord : invocation.call.entry texts with
        | none =>
            refine ⟨_, _, Ends.answered hmemory hread hrecord, ?_⟩
            rw [hcounted]
            exact Ledger.Step.answered hmemory htexts (hentry.mp hrecord) (Nat.zero_le _)
        | some record =>
            have hcheck : invocation.call.isCheck = false := by
              rw [hrecord] at hentry
              simpa using hentry
            obtain ⟨hhalf, hfit⟩ := hcharge hcheck (exists_returns_mapM_iff.mp ⟨texts, hread⟩)
            rw [← sum_lengths] at hhalf hfit
            obtain ⟨sum, ioBytes, hsum, hadd, hexact⟩ :=
              (mode.add_sum_lengths_iff context.metrics.ioBytes (length_requests_le _)).mpr
                ⟨hhalf, hfit⟩
            refine ⟨_, _, Ends.recorded hmemory hread hrecord hsum hadd, ?_⟩
            rw [sum_lengths] at hexact
            rw [HostContext.ledger_withBytes invocation.call.bytesRead ?_,
              HostContext.ledger_append, hcounted]
            · exact Ledger.Step.recorded hmemory htexts hrecord
            · rw [HostContext.metrics_append]
              exact hexact

theorem accounted_iff_fits (context : HostContext) (invocation : Invocation) :
    Accounted mode context invocation ↔ Fits mode context invocation :=
  ⟨Fits.of_accounted, Accounted.of_fits⟩

/-- **The accounts.** In a run of calls, all calls do to the context what they do to the
ledger exactly if the numbers of all of them fit. -/
theorem hostCalls_accounted_iff (mode : Overflow) (context : HostContext)
    (calls : List Invocation) :
    AllSteps (perform mode) (Accounted mode) context calls ↔
      AllSteps (perform mode) (Fits mode) context calls :=
  allSteps_congr (perform mode) accounted_iff_fits context calls

inductive Ledger.Run : List Invocation → Ledger → Ledger → Prop
  | nil (ledger : Ledger) : Run [] ledger ledger
  | cons {invocation : Invocation} {calls : List Invocation} {ledger ledger' ledger'' : Ledger}
      {result : Except String (List Int32)}
      (hstep : Ledger.Step invocation ledger result ledger') (hrun : Run calls ledger' ledger'') :
      Run (invocation :: calls) ledger ledger''

theorem exists_runAll_of_fits {context : HostContext} {calls : List Invocation}
    (h : AllSteps (perform mode) (Fits mode) context calls) :
    ∃ context', runAll (perform mode) context calls = some context' ∧
      Ledger.Run calls context.ledger context'.ledger := by
  refine exists_runAll (perform mode)
    (R := fun calls context context' => Ledger.Run calls context.ledger context'.ledger)
    (fun context => Ledger.Run.nil context.ledger) ?_ h
  intro invocation calls context hfits
  obtain ⟨result, context', hrun, hstep⟩ := Accounted.of_fits hfits
  exact ⟨result, context', hrun, fun context'' => Ledger.Run.cons hstep⟩

theorem Ledger.Run.hostCalls {calls : List Invocation} {ledger ledger' : Ledger}
    (h : Ledger.Run calls ledger ledger') :
    ledger'.hostCalls = ledger.hostCalls + calls.length := by
  induction h with
  | nil ledger => rfl
  | cons hstep hrun ih => rw [ih, hstep.hostCalls, List.length_cons, add_assoc, add_comm 1]

theorem not_fits_zeros (mode : Overflow) (context : HostContext) {len : Int32} {n : ℕ}
    (hlen : lengthOf len = n) (hhalf : 2 ^ 31 ≤ n) :
    ¬ Fits mode context ⟨.log 0 len, some (List.replicate n 0)⟩ := by
  intro h
  have hzeros : Codec.utf8 (String.ofList (List.replicate n '\x00')) = List.replicate n 0 := by
    rw [Codec.utf8_ofList, List.flatMap_replicate]
    exact List.flatten_replicate_singleton
  have hstart : lengthOf 0 = 0 := rfl
  have hlt := lengthOf_lt len
  have hread : ∀ request ∈ (HostCall.log 0 len).requests,
      request.InWord ∧ ∃ text, request.Holds (List.replicate n 0) text := by
    rw [HostCall.requests, List.forall_mem_singleton]
    simp only [TextRequest.InWord, TextRequest.Holds, TextRequest.start, TextRequest.length, hlen,
      hstart, zero_add, List.length_replicate, List.drop_zero]
    refine ⟨hlen ▸ hlt, String.ofList (List.replicate n '\x00'), le_rfl, ?_⟩
    rw [hzeros, List.take_of_length_le List.length_replicate.le]
  have hshort := ((h.2 _ rfl).2 rfl hread).1
  rw [← sum_lengths] at hshort
  simp [HostCall.requests, hlen] at hshort
  omega

end Accounts

/-- A check is accepted and leaves no record, the end of a range may stop the program, and a
text of more than two gigabytes is charged for more than it has. -/
theorem checkAuth_not_recorded :
    (perform .wrap ⟨.checkAuth 0 0 0, some []⟩).runFrom HostContext.default =
        some (.ok [1], HostContext.default.withCalls 1) ∧
      (perform .stop ⟨.log (-1) 1, some []⟩).runFrom HostContext.default = none ∧
        ¬ Accounted .wrap HostContext.default
          ⟨.log 0 (-2147483648), some (List.replicate 2147483648 0)⟩ :=
  ⟨rfl, rfl, fun h => not_fits_zeros .wrap _ (by decide) le_rfl (Fits.of_accounted h)⟩

end CoreVm

end Icn

import Icn.Foundation.Codec.Cbor
import Icn.Foundation.Wasm.Module
import Icn.Ccl.Dsl

/-!
# Emitting WebAssembly

A program becomes one function that calls the host for every opcode. Texts are
passed as a pointer and a length: the bytes go into a data segment at the next
free offset, behind a buffer in which the host writes the identifiers of jobs.

`emitOp` writes one opcode as the source does. What it amounts to is a list of
actions (`Opcode.actions`), each of which pushes an operand or emits one
instruction, and the facts about the code are proved from those.
-/

open Foundation

namespace Icn

namespace Ccl

open Economics Wasm

inductive QoSProfile where
  | bestEffort
  | lowLatency
  | costOptimized
  | guaranteedCompletion
deriving DecidableEq, Repr

inductive WorkflowType where
  | singleWasmModule
  | sequentialPipeline
  | dagWorkflow
deriving DecidableEq, Repr

/-- The parameters of a job. A job that is submitted by a program has neither stages
nor a policy. -/
structure MeshJobParams where
  wasmCid : String
  description : String
  resourcesRequired : List (ResourceType × UInt64)
  qosProfile : QoSProfile
  deadline : Option UInt64
  inputDataCid : Option String
  maxAcceptableBidTokens : Option UInt64
  explicitManaCost : Option UInt64
  workflowType : WorkflowType
  isInteractive : Bool
  expectedOutputSchemaCid : Option String

/-- The readers of JSON, the writer of CBOR and the lower case of a text. The resources
are the entries of a hash map, in the order in which it is iterated. -/
structure EmitLibrary where
  parseResources : String → Option (List (String × UInt64))
  parseQosProfile : String → Option QoSProfile
  toLowercase : String → String
  toVec : MeshJobParams → Option (List UInt8)

section Cbor

open Codec.Cbor

def QoSProfile.text : QoSProfile → String
  | bestEffort => "BestEffort"
  | lowLatency => "LowLatency"
  | costOptimized => "CostOptimized"
  | guaranteedCompletion => "GuaranteedCompletion"

def WorkflowType.text : WorkflowType → String
  | singleWasmModule => "SingleWasmModule"
  | sequentialPipeline => "SequentialPipeline"
  | dagWorkflow => "DagWorkflow"

def MeshJobParams.cbor (params : MeshJobParams) : List UInt8 :=
  map ([field "wasm_cid" (text params.wasmCid),
      field "description" (text params.description),
      field "resources_required" (array (params.resourcesRequired.map fun required =>
        array [text (resourceText required.1), uint required.2])),
      field "qos_profile" (text params.qosProfile.text),
      field "deadline" (option uint params.deadline),
      field "input_data_cid" (option text params.inputDataCid),
      field "max_acceptable_bid_tokens" (option uint params.maxAcceptableBidTokens),
      field "explicit_mana_cost" (option uint params.explicitManaCost),
      field "workflow_type" (text params.workflowType.text),
      field "is_interactive" [if params.isInteractive then 0xf5 else 0xf4]] ++
    params.expectedOutputSchemaCid.toList.map fun cid =>
      field "expected_output_schema_cid" (text cid))

def bareLibrary : EmitLibrary where
  parseResources _ := none
  parseQosProfile _ := none
  toLowercase := String.toLower
  toVec params := some params.cbor

end Cbor

def resourceOfKey (key : String) : Option ResourceType :=
  match key with
  | "cpu" => some .cpu
  | "compute" => some .cpu
  | "memory" => some .memory
  | "io" => some .io
  | "token" => some .token
  | _ => none

section Payload

variable (lib : EmitLibrary)

/-- The resources of a job. Keys that are not known and texts that are no JSON are
left out. -/
def resourcesRequired (requiredResourcesJson : Option String) : List (ResourceType × UInt64) :=
  match requiredResourcesJson.bind lib.parseResources with
  | none => []
  | some entries => entries.filterMap fun entry =>
      (resourceOfKey (lib.toLowercase entry.1)).map fun resource => (resource, entry.2)

/-- The bytes that `SubmitJob` passes to the host. -/
def paramsCbor (wasmCid : String) (description inputDataCid requiredResourcesJson
    qosProfileJson : Option String) (maxAcceptableBidTokens deadlineUtcMs : Option UInt64) :
    List UInt8 :=
  let params : MeshJobParams :=
    { wasmCid := wasmCid
      description := description.getD ""
      resourcesRequired := resourcesRequired lib requiredResourcesJson
      qosProfile := (qosProfileJson.bind lib.parseQosProfile).getD .bestEffort
      deadline := deadlineUtcMs
      inputDataCid := inputDataCid
      maxAcceptableBidTokens := maxAcceptableBidTokens
      explicitManaCost := none
      workflowType := .singleWasmModule
      isInteractive := false
      expectedOutputSchemaCid := none }
  (lib.toVec params).getD []

end Payload

def jobIdBufferSize : UInt32 := 128

def jobIdBufferOffset : UInt32 := 0

/-- The body of the main function, the data segments and the next free offset. -/
structure Emitter (F64 : Type) where
  body : List (Instruction F64)
  segments : List DataSegment
  nextDataOffset : UInt32

variable {F64 : Type}

namespace Emitter

def new : Emitter F64 where
  body := [.i32Const 0, .localSet 0]
  segments := [⟨jobIdBufferOffset.toInt32, List.replicate jobIdBufferSize.toNat 0⟩]
  nextDataOffset := jobIdBufferOffset + jobIdBufferSize

def instruction (emitter : Emitter F64) (instr : Instruction F64) : Emitter F64 :=
  { emitter with body := emitter.body ++ [instr] }

def emitDataSegment (emitter : Emitter F64) (offset : UInt32) (data : List UInt8) : Emitter F64 :=
  { emitter with segments := emitter.segments ++ [⟨offset.toInt32, data⟩] }

def encodePushString (emitter : Emitter F64) (s : String) : Emitter F64 :=
  let stringBytes := Codec.utf8 s
  let stringLen : Int32 := .ofNat stringBytes.length
  let stringPtr := emitter.nextDataOffset
  let emitter :=
    if 0 < stringLen then
      { emitter.emitDataSegment stringPtr stringBytes with
        nextDataOffset := stringPtr + stringLen.toUInt32 }
    else emitter
  (emitter.instruction (.i32Const stringPtr.toInt32)).instruction (.i32Const stringLen)

/-- The payload of a job goes into memory in the same way as a text. -/
def submitJob (emitter : Emitter F64) (cbor : List UInt8) : Emitter F64 :=
  let cborPtr := emitter.nextDataOffset
  let cborLen : Int32 := .ofNat cbor.length
  let emitter :=
    if 0 < cborLen then
      { emitter.emitDataSegment cborPtr cbor with
        nextDataOffset := cborPtr + cborLen.toUInt32 }
    else emitter
  let emitter := emitter.instruction (.i32Const cborPtr.toInt32)
  let emitter := emitter.instruction (.i32Const cborLen)
  let emitter := emitter.instruction (.i32Const jobIdBufferOffset.toInt32)
  let emitter := emitter.instruction (.i32Const jobIdBufferSize.toInt32)
  let emitter := emitter.instruction (.call 16)
  emitter.instruction (.localSet 0)

end Emitter

variable (lib : EmitLibrary)

def emitOp (emitter : Emitter F64) : Opcode F64 → Emitter F64
  | .beginSection kind title =>
      ((emitter.encodePushString kind).encodePushString (title.getD "")).instruction (.call 0)
  | .endSection => emitter.instruction (.call 1)
  | .createProposal title version =>
      ((emitter.encodePushString title).encodePushString (version.getD "0.0.0")).instruction
        (.call 2)
  | .mintToken resType amount recipient data =>
      let emitter := emitter.encodePushString resType
      let emitter := emitter.instruction (.i64Const amount.toInt64)
      let emitter := emitter.encodePushString (recipient.getD "")
      let emitter := emitter.encodePushString (data.getD "")
      emitter.instruction (.call 3)
  | .anchorData path dataRef =>
      ((emitter.encodePushString (path.getD "")).encodePushString dataRef).instruction (.call 4)
  | .callHost fnName argsPayload =>
      ((emitter.encodePushString fnName).encodePushString argsPayload).instruction (.call 5)
  | .ifOp condition => (emitter.encodePushString condition).instruction (.call 6)
  | .elseOp => emitter.instruction (.call 7)
  | .endIf => emitter.instruction (.call 8)
  | .setProperty key valueJson =>
      ((emitter.encodePushString key).encodePushString valueJson).instruction (.call 9)
  | .todo message => (emitter.encodePushString message).instruction (.call 10)
  | .onEvent event => (emitter.encodePushString event).instruction (.call 11)
  | .rangeCheck start stop =>
      ((emitter.instruction (.f64Const start)).instruction (.f64Const stop)).instruction (.call 13)
  | .useResource resourceType amount =>
      ((emitter.encodePushString resourceType).instruction (.i64Const amount.toInt64)).instruction
        (.call 14)
  | .transferToken tokenType amount sender recipient =>
      let emitter := emitter.encodePushString tokenType
      let emitter := emitter.instruction (.i64Const amount.toInt64)
      let emitter := emitter.encodePushString (sender.getD "")
      let emitter := emitter.encodePushString recipient
      emitter.instruction (.call 15)
  | .submitJob wasmCid description inputDataCid _ requiredResourcesJson qosProfileJson
      maxAcceptableBidTokens deadlineUtcMs _ =>
      emitter.submitJob (paramsCbor lib wasmCid description inputDataCid requiredResourcesJson
        qosProfileJson maxAcceptableBidTokens deadlineUtcMs)

def emitOps (emitter : Emitter F64) (ops : List (Opcode F64)) : Emitter F64 :=
  ops.foldl (emitOp lib) emitter

def hostTypes : List FuncType :=
  [⟨[.i32, .i32, .i32, .i32], []⟩,
    ⟨[], []⟩,
    ⟨[.i32, .i32, .i32, .i32], []⟩,
    ⟨[.i32, .i64, .i32, .i32], []⟩,
    ⟨[.i32, .i32, .i32, .i32], []⟩,
    ⟨[.i32, .i32, .i32, .i32], []⟩,
    ⟨[.i32, .i32], []⟩,
    ⟨[], []⟩,
    ⟨[], []⟩,
    ⟨[.i32, .i32, .i32, .i32], []⟩,
    ⟨[.i32, .i32], []⟩,
    ⟨[.i32, .i32], []⟩,
    ⟨[.i32, .i32], []⟩,
    ⟨[.f64, .f64], []⟩,
    ⟨[.i32, .i64], []⟩,
    ⟨[.i32, .i64, .i32, .i32], []⟩,
    ⟨[.i32, .i32, .i32, .i32], [.i32]⟩]

def hostFns : List (String × ℕ) :=
  [("begin_section", 0), ("end_section", 1), ("create_proposal", 2), ("mint_token", 3),
    ("anchor_data", 4), ("call_host", 5), ("log_if_condition", 6), ("log_else", 7),
    ("log_endif", 8), ("set_property", 9), ("log_todo", 10), ("on_event", 11),
    ("log_range_check", 12), ("range_check", 13), ("use_resource", 14), ("transfer_token", 15),
    ("host_submit_mesh_job", 16)]

def mainType : FuncType := ⟨[], [.i32]⟩

/-- The main function returns the result of the last job. -/
def mainFunction (emitter : Emitter F64) : Function F64 :=
  ⟨[.i32], ((emitter.instruction (.localGet 0)).instruction .finish).body⟩

/-- The module of a program. The type of the main function is the first to be
declared. -/
def programToWasm (prog : Program F64) : Module F64 :=
  let emitter := emitOps lib Emitter.new prog.ops
  ⟨[.types (mainType :: hostTypes),
    .imports (hostFns.map fun fn => ⟨"icn_host", fn.1, fn.2⟩),
    .functions [17],
    .memories [⟨1, none⟩],
    .data emitter.segments,
    .code [mainFunction emitter],
    .exports [⟨"_start", 17⟩]]⟩

def reportingProgram : Program ℕ where
  ops := [.beginSection "reporting" none, .setProperty "frequency" "\"monthly\"", .endSection,
    .submitJob "bafy2bzacereport" (some "monthly report") none none none none (some 100) none none]

theorem body_mainFunction (emitter : Emitter F64) :
    (mainFunction emitter).body = emitter.body ++ [.localGet 0, .finish] := by
  simp [mainFunction, Emitter.instruction]

theorem code_programToWasm (prog : Program F64) :
    (programToWasm lib prog).code = [mainFunction (emitOps lib Emitter.new prog.ops)] := rfl

theorem data_programToWasm (prog : Program F64) :
    (programToWasm lib prog).data = (emitOps lib Emitter.new prog.ops).segments := by
  simp [programToWasm, Module.data]

/-- What the emitter does for an opcode: it pushes a pointer and a length, for bytes
that go into memory or for the buffer of job identifiers, or emits an
instruction. -/
inductive Action (F64 : Type) where
  | push (bytes : List UInt8)
  | jobIdBuffer
  | instruction (instr : Instruction F64)

namespace Action

def code (nextDataOffset : UInt32) : Action F64 → List (Instruction F64)
  | push bytes => [.i32Const nextDataOffset.toInt32, .i32Const (.ofNat bytes.length)]
  | jobIdBuffer => [.i32Const jobIdBufferOffset.toInt32, .i32Const jobIdBufferSize.toInt32]
  | instruction instr => [instr]

def placed (nextDataOffset : UInt32) : Action F64 → List DataSegment
  | push bytes =>
      if 0 < Int32.ofNat bytes.length then [⟨nextDataOffset.toInt32, bytes⟩] else []
  | jobIdBuffer => []
  | instruction _ => []

def size : Action F64 → UInt32
  | push bytes =>
      if 0 < Int32.ofNat bytes.length then (Int32.ofNat bytes.length).toUInt32 else 0
  | jobIdBuffer => 0
  | instruction _ => 0

end Action

def Emitter.perform (emitter : Emitter F64) (action : Action F64) : Emitter F64 where
  body := emitter.body ++ action.code emitter.nextDataOffset
  segments := emitter.segments ++ action.placed emitter.nextDataOffset
  nextDataOffset := emitter.nextDataOffset + action.size

def Opcode.actions : Opcode F64 → List (Action F64)
  | .beginSection kind title =>
      [.push (Codec.utf8 kind), .push (Codec.utf8 (title.getD "")), .instruction (.call 0)]
  | .endSection => [.instruction (.call 1)]
  | .createProposal title version =>
      [.push (Codec.utf8 title), .push (Codec.utf8 (version.getD "0.0.0")), .instruction (.call 2)]
  | .mintToken resType amount recipient data =>
      [.push (Codec.utf8 resType), .instruction (.i64Const amount.toInt64),
        .push (Codec.utf8 (recipient.getD "")), .push (Codec.utf8 (data.getD "")),
        .instruction (.call 3)]
  | .anchorData path dataRef =>
      [.push (Codec.utf8 (path.getD "")), .push (Codec.utf8 dataRef), .instruction (.call 4)]
  | .callHost fnName argsPayload =>
      [.push (Codec.utf8 fnName), .push (Codec.utf8 argsPayload), .instruction (.call 5)]
  | .ifOp condition => [.push (Codec.utf8 condition), .instruction (.call 6)]
  | .elseOp => [.instruction (.call 7)]
  | .endIf => [.instruction (.call 8)]
  | .setProperty key valueJson =>
      [.push (Codec.utf8 key), .push (Codec.utf8 valueJson), .instruction (.call 9)]
  | .todo message => [.push (Codec.utf8 message), .instruction (.call 10)]
  | .onEvent event => [.push (Codec.utf8 event), .instruction (.call 11)]
  | .rangeCheck start stop =>
      [.instruction (.f64Const start), .instruction (.f64Const stop), .instruction (.call 13)]
  | .useResource resourceType amount =>
      [.push (Codec.utf8 resourceType), .instruction (.i64Const amount.toInt64),
        .instruction (.call 14)]
  | .transferToken tokenType amount sender recipient =>
      [.push (Codec.utf8 tokenType), .instruction (.i64Const amount.toInt64),
        .push (Codec.utf8 (sender.getD "")), .push (Codec.utf8 recipient),
        .instruction (.call 15)]
  | .submitJob wasmCid description inputDataCid _ requiredResourcesJson qosProfileJson
      maxAcceptableBidTokens deadlineUtcMs _ =>
      [.push (paramsCbor lib wasmCid description inputDataCid requiredResourcesJson
          qosProfileJson maxAcceptableBidTokens deadlineUtcMs),
        .jobIdBuffer, .instruction (.call 16), .instruction (.localSet 0)]

namespace Emitter

theorem instruction_eq (emitter : Emitter F64) (instr : Instruction F64) :
    emitter.instruction instr = emitter.perform (.instruction instr) := by
  simp [instruction, perform, Action.code, Action.placed, Action.size]

theorem encodePushString_eq (emitter : Emitter F64) (s : String) :
    emitter.encodePushString s = emitter.perform (.push (Codec.utf8 s)) := by
  simp only [encodePushString, perform, Action.code, Action.placed, Action.size]
  split <;> simp [instruction, emitDataSegment]

theorem submitJob_eq (emitter : Emitter F64) (cbor : List UInt8) :
    emitter.submitJob cbor = (((emitter.perform (.push cbor)).perform .jobIdBuffer).perform
      (.instruction (.call 16))).perform (.instruction (.localSet 0)) := by
  simp only [submitJob, perform, Action.code, Action.placed, Action.size]
  split <;> simp [instruction, emitDataSegment]

end Emitter

theorem emitOp_eq_foldl (emitter : Emitter F64) (op : Opcode F64) :
    emitOp lib emitter op = (op.actions lib).foldl Emitter.perform emitter := by
  cases op <;>
    simp only [emitOp, Opcode.actions, List.foldl_cons, List.foldl_nil,
      Emitter.instruction_eq, Emitter.encodePushString_eq, Emitter.submitJob_eq]

theorem emitOps_eq_foldl (emitter : Emitter F64) (ops : List (Opcode F64)) :
    emitOps lib emitter ops = (ops.flatMap (Opcode.actions lib)).foldl Emitter.perform emitter := by
  rw [List.foldl_flatMap, emitOps]
  congr 1
  funext emitter op
  exact emitOp_eq_foldl lib emitter op

end Ccl

end Icn

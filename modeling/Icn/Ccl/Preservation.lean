import Icn.Foundation.Wasm.Execution
import Icn.Ccl.Bounds
import Icn.Ccl.Validity

/-!
# The code does what the opcodes say

A program is a list of commands to a host: what it passes are texts, amounts and numbers,
and a job answers with a status (`Host.interpret`). The emitted code passes numbers only, and
the texts are found in memory. A host that works on memory realises one that works on texts
if it does the same where the texts are those that its pointers and lengths stand for, and
writes to nothing but the buffer for job identifiers.

Every command is emitted as the pushes of its operands and one call (`actions_command`), so
the code of a program is run command by command. What carries this is that the literals of
the whole program are held in memory behind the buffer, where no call changes them. The
memory is not bounded here: a module is instantiated if its data fit into its one page
(`dataInBounds_programToWasm_iff`), and only then does its code run at all.
-/

open Foundation

namespace Icn

namespace Ccl

open Wasm

inductive Operand (F64 : Type) where
  | bytes (bytes : List UInt8)
  | amount (amount : Int64)
  | number (x : F64)

/-- A call of one of the functions before `host_submit_mesh_job`, or of that one. -/
inductive Command (F64 : Type) where
  | perform (index : Fin 16) (operands : List (Operand F64))
  | submitJob (payload : List UInt8)

/-- A host as a program sees it. What is none is a trap. -/
structure Host (F64 σ : Type) where
  perform : Fin 16 → List (Operand F64) → σ → Option σ
  submitJob : List UInt8 → σ → Option (Int32 × σ)

variable {F64 σ : Type}

def Operand.text (s : String) : Operand F64 := .bytes (Codec.utf8 s)

def Opcode.command (lib : EmitLibrary) : Opcode F64 → Command F64
  | .beginSection kind title => .perform 0 [.text kind, .text (title.getD "")]
  | .endSection => .perform 1 []
  | .createProposal title version => .perform 2 [.text title, .text (version.getD "0.0.0")]
  | .mintToken resType amount recipient data =>
      .perform 3 [.text resType, .amount amount.toInt64, .text (recipient.getD ""),
        .text (data.getD "")]
  | .anchorData path dataRef => .perform 4 [.text (path.getD ""), .text dataRef]
  | .callHost fnName argsPayload => .perform 5 [.text fnName, .text argsPayload]
  | .ifOp condition => .perform 6 [.text condition]
  | .elseOp => .perform 7 []
  | .endIf => .perform 8 []
  | .setProperty key valueJson => .perform 9 [.text key, .text valueJson]
  | .todo message => .perform 10 [.text message]
  | .onEvent event => .perform 11 [.text event]
  | .rangeCheck start stop => .perform 13 [.number start, .number stop]
  | .useResource resourceType amount =>
      .perform 14 [.text resourceType, .amount amount.toInt64]
  | .transferToken tokenType amount sender recipient =>
      .perform 15 [.text tokenType, .amount amount.toInt64, .text (sender.getD ""),
        .text recipient]
  | .submitJob wasmCid description inputDataCid _ requiredResourcesJson qosProfileJson
      maxAcceptableBidTokens deadlineUtcMs _ =>
      .submitJob (paramsCbor lib wasmCid description inputDataCid requiredResourcesJson
        qosProfileJson maxAcceptableBidTokens deadlineUtcMs)

namespace Host

variable (host : Host F64 σ)

def command : Int32 × σ → Command F64 → Option (Int32 × σ)
  | (status, s), .perform index operands =>
      (host.perform index operands s).map fun s => (status, s)
  | (_, s), .submitJob payload => host.submitJob payload s

/-- What a program means to a host. The status before the first job is zero. -/
def interpret (lib : EmitLibrary) (prog : Program F64) (s : σ) : Option (Int32 × σ) :=
  (prog.ops.map (Opcode.command lib)).foldlM host.command (0, s)

end Host

/-- The operands that are passed in memory: two words are a pointer and a length. -/
def operandsOf (memory : Memory) : List (Val F64) → Option (List (Operand F64))
  | [] => some []
  | .i32 pointer :: .i32 length :: vals =>
      (operandsOf memory vals).map (.bytes (memory.pointed (pointer, length)) :: ·)
  | .i64 amount :: vals => (operandsOf memory vals).map (.amount amount :: ·)
  | .f64 x :: vals => (operandsOf memory vals).map (.number x :: ·)
  | _ => none

/-- The values of a call of `host_submit_mesh_job`. -/
def jobArguments (pointer length : Int32) : List (Val F64) :=
  [.i32 pointer, .i32 length, .i32 jobIdBufferOffset.toInt32, .i32 jobIdBufferSize.toInt32]

/-- Functions on memory do what the host does on texts, and change nothing behind the buffer
for job identifiers. -/
structure Realises (host : Host F64 σ) (functions : Functions F64 (Memory × σ)) : Prop where
  perform : ∀ (index : Fin 16) (operands : List (Operand F64)) (vals : List (Val F64))
    (memory : Memory) (s : σ), operandsOf memory vals = some operands →
      match host.perform index operands s with
      | none => functions index vals (memory, s) = none
      | some s' => ∃ memory', functions index vals (memory, s) = some ([], memory', s') ∧
          Memory.KeptFrom jobIdBufferSize.toNat memory memory'
  submitJob : ∀ (pointer length : Int32) (memory : Memory) (s : σ),
    match host.submitJob (memory.pointed (pointer, length)) s with
    | none => functions 16 (jobArguments pointer length) (memory, s) = none
    | some (status, s') => ∃ memory',
        functions 16 (jobArguments pointer length) (memory, s) =
          some ([.i32 status], memory', s') ∧
            Memory.KeptFrom jobIdBufferSize.toNat memory memory'

/-- The functions that read their operands from memory and pass them to the host. The
identifier of a job goes into the buffer. -/
def Host.onMemory (host : Host F64 σ) (jobId : σ → List UInt8) : Functions F64 (Memory × σ)
  | index, vals, (memory, s) =>
      if h : index < 16 then
        (operandsOf memory vals).bind fun operands =>
          (host.perform ⟨index, h⟩ operands s).map fun s' => ([], memory, s')
      else
        match vals with
        | [.i32 pointer, .i32 length, .i32 _, .i32 bufferLength] =>
            (host.submitJob (memory.pointed (pointer, length)) s).map fun (status, s') =>
              ([.i32 status],
                memory.write ⟨jobIdBufferOffset.toInt32,
                  (jobId s').take bufferLength.toUInt32.toNat⟩, s')
        | _ => none

theorem realises_onMemory (host : Host F64 σ) (jobId : σ → List UInt8) :
    Realises host (host.onMemory jobId) where
  perform index operands vals memory s hvals := by
    cases hresult : host.perform index operands s with
    | none => simp [Host.onMemory, hvals, hresult]
    | some s' =>
        refine ⟨memory, ?_, .refl⟩
        simp [Host.onMemory, hvals, hresult]
  submitJob pointer length memory s := by
    cases hresult : host.submitJob (memory.pointed (pointer, length)) s with
    | none => simp [Host.onMemory, jobArguments, hresult]
    | some result =>
        obtain ⟨status, s'⟩ := result
        refine ⟨_, by simp only [Host.onMemory, jobArguments, hresult]; rfl, ?_⟩
        intro i hi
        have hoffset : jobIdBufferOffset.toInt32.toUInt32.toNat = 0 := rfl
        refine Memory.write_of_outside memory (.inr (le_trans ?_ hi))
        rw [DataSegment.stop, DataSegment.address, hoffset, zero_add, List.length_take]
        exact Nat.min_le_left _ _

def Operand.types : Operand F64 → List ValType
  | bytes _ => [.i32, .i32]
  | amount _ => [.i64]
  | number _ => [.f64]

namespace Command

def index : Command F64 → ℕ
  | perform index _ => index
  | submitJob _ => 16

def type : Command F64 → FuncType
  | perform _ operands => ⟨operands.flatMap Operand.types, []⟩
  | submitJob _ => ⟨[.i32, .i32, .i32, .i32], [.i32]⟩

/-- The function that is called takes what the command passes. -/
def Fits (signature : ℕ → Option FuncType) (command : Command F64) : Prop :=
  signature command.index = some command.type

end Command

theorem fits_intended_iff (lib : EmitLibrary) (op : Opcode F64) :
    (op.command lib).Fits intendedSignature ↔ op.fitsIntended = true := by
  cases op <;> simp [Command.Fits, Opcode.command, Command.index, Command.type, intendedSignature,
    hostTypes, Operand.text, Operand.types, Opcode.fitsIntended]

def Operand.action : Operand F64 → Action F64
  | .bytes literal => .push literal
  | .amount a => .instruction (.i64Const a)
  | .number x => .instruction (.f64Const x)

def Command.actions : Command F64 → List (Action F64)
  | perform index operands => operands.map Operand.action ++ [.instruction (.call index)]
  | submitJob payload =>
      [.push payload, .jobIdBuffer, .instruction (.call 16), .instruction (.localSet 0)]

theorem actions_command (lib : EmitLibrary) (op : Opcode F64) :
    (op.command lib).actions = op.actions lib := by
  cases op <;> rfl

section Room

/-- The next free offset lies behind the buffer, and the literals of the actions fit behind
it. -/
structure Room (emitter : Emitter F64) (actions : List (Action F64)) : Prop where
  buffer_le : jobIdBufferSize.toNat ≤ emitter.nextDataOffset.toNat
  fits : emitter.nextDataOffset.toNat + (actions.map Action.length).sum < 2 ^ 32
  length_lt : (actions.map Action.length).sum < 2 ^ 31

theorem Room.cons {emitter : Emitter F64} {action : Action F64} {actions : List (Action F64)}
    (h : Room emitter (action :: actions)) : Room (emitter.perform action) actions := by
  obtain ⟨hbuffer, hfits, hlength⟩ := h
  rw [List.map_cons, List.sum_cons] at hfits hlength
  have hoffset : (emitter.perform action).nextDataOffset.toNat =
      emitter.nextDataOffset.toNat + action.length :=
    toNat_nextDataOffset_perform (by omega) (by omega)
  exact ⟨by omega, by omega, by omega⟩

theorem Room.append {emitter : Emitter F64} {actions actions' : List (Action F64)}
    (h : Room emitter (actions ++ actions')) :
    Room emitter actions ∧ Room (actions.foldl Emitter.perform emitter) actions' := by
  induction actions generalizing emitter with
  | nil =>
      refine ⟨⟨h.buffer_le, ?_, by simp⟩, h⟩
      have := h.fits
      rw [List.map_nil, List.sum_nil]
      omega
  | cons action actions ih =>
      have hfits := h.fits
      have hlength := h.length_lt
      rw [List.map_append, List.sum_append] at hfits hlength
      exact ⟨⟨h.buffer_le, by omega, by omega⟩, (ih h.cons).2⟩

theorem pointed_push {emitter : Emitter F64} {literal : List UInt8}
    {actions : List (Action F64)} (hroom : Room emitter (.push literal :: actions))
    {memory : Memory} (hheld : Memory.Held jobIdBufferSize.toNat
      (emitter.perform (.push literal)).segments memory) :
    memory.pointed (emitter.nextDataOffset.toInt32, .ofNat literal.length) = literal := by
  have hlength : literal.length < 2 ^ 31 := by
    have := hroom.length_lt
    simp only [List.map_cons, List.sum_cons, Action.length, Action.literals, List.map_nil,
      List.sum_nil] at this
    omega
  have hword : (Int32.ofNat literal.length).toUInt32.toNat = literal.length := by
    rw [Int32.toUInt32_ofNat', UInt32.toNat_ofNat', Nat.mod_eq_of_lt (by omega)]
  rw [Memory.pointed, hword]
  by_cases hnil : literal = []
  · rw [hnil]
    rfl
  · refine hheld ⟨emitter.nextDataOffset.toInt32, literal⟩ ?_ hroom.buffer_le
    rw [Emitter.perform, Action.placed_push hlength, if_neg hnil]
    exact List.mem_append_right _ List.mem_cons_self

end Room

section Running

variable {signature : ℕ → Option FuncType} {functions : Functions F64 (Memory × σ)}

variable (signature functions) in
theorem exec_operands (operands : List (Operand F64)) {emitter : Emitter F64}
    (hroom : Room emitter (operands.map Operand.action)) {memory : Memory}
    (hheld : Memory.Held jobIdBufferSize.toNat
      ((operands.map Operand.action).foldl Emitter.perform emitter).segments memory) :
    ∃ code vals,
      ((operands.map Operand.action).foldl Emitter.perform emitter).body = emitter.body ++ code ∧
        operandsOf memory vals = some operands ∧
          vals.map Val.type = operands.flatMap Operand.types ∧
            ∀ stack locals s, Frame.exec signature functions code (⟨stack, locals⟩, s) =
              some (⟨vals.reverse ++ stack, locals⟩, s) := by
  induction operands generalizing emitter with
  | nil => exact ⟨[], [], (List.append_nil _).symm, rfl, rfl, fun _ _ _ => rfl⟩
  | cons operand operands ih =>
      obtain ⟨code, vals, hbody, hvals, htypes, hexec⟩ := ih hroom.cons hheld
      have hfirst : ∃ own, own.map Val.type = operand.types ∧
          operandsOf memory (own ++ vals) = some (operand :: operands) ∧
            ∀ stack locals s, Frame.exec signature functions
              (operand.action.code emitter.nextDataOffset) (⟨stack, locals⟩, s) =
                some (⟨own.reverse ++ stack, locals⟩, s) := by
        cases operand with
        | bytes literal =>
            refine ⟨[.i32 emitter.nextDataOffset.toInt32, .i32 (.ofNat literal.length)], rfl, ?_,
              fun _ _ _ => rfl⟩
            have hpointed := pointed_push hroom fun segment hsegment =>
              hheld segment (mem_segments_foldl_perform hsegment _)
            simp [operandsOf, hvals, hpointed]
        | amount amount => exact ⟨[.i64 amount], rfl, by simp [operandsOf, hvals], fun _ _ _ => rfl⟩
        | number x => exact ⟨[.f64 x], rfl, by simp [operandsOf, hvals], fun _ _ _ => rfl⟩
      obtain ⟨own, hown, hpassed, hpush⟩ := hfirst
      refine ⟨operand.action.code emitter.nextDataOffset ++ code, own ++ vals, ?_, hpassed, ?_, ?_⟩
      · rw [List.map_cons, List.foldl_cons, hbody, Emitter.perform, List.append_assoc]
      · rw [List.map_append, hown, htypes, List.flatMap_cons]
      · intro stack locals s
        rw [Frame.exec_append, hpush, Option.bind_some, hexec, List.reverse_append,
          List.append_assoc]

/-- The code ends as the host does: with the status in its local and nothing on the stack,
over a memory in which the literals are as before. -/
def FollowsHost (memory : Memory) : Option (Int32 × σ) → Option (Frame F64 × Memory × σ) → Prop
  | none, result => result = none
  | some (status, s), result => ∃ memory', result = some (⟨[], [.i32 status]⟩, memory', s) ∧
      Memory.KeptFrom jobIdBufferSize.toNat memory memory'

theorem FollowsHost.kept {memory memory' : Memory} {outcome : Option (Int32 × σ)}
    {result : Option (Frame F64 × Memory × σ)} (h : FollowsHost memory' outcome result)
    (hkept : Memory.KeptFrom jobIdBufferSize.toNat memory memory') :
    FollowsHost memory outcome result := by
  cases outcome with
  | none => exact h
  | some outcome =>
      obtain ⟨memory'', hresult, hkept'⟩ := h
      exact ⟨memory'', hresult, hkept.trans hkept'⟩

variable {host : Host F64 σ} (hhost : Realises host functions)

include hhost

theorem exec_command {command : Command F64} (hfits : command.Fits signature)
    {emitter : Emitter F64} (hroom : Room emitter command.actions) {memory : Memory}
    (hheld : Memory.Held jobIdBufferSize.toNat
      (command.actions.foldl Emitter.perform emitter).segments memory)
    (status : Int32) (s : σ) :
    ∃ code, (command.actions.foldl Emitter.perform emitter).body = emitter.body ++ code ∧
      FollowsHost memory (host.command (status, s) command)
        (Frame.exec signature functions code (⟨[], [.i32 status]⟩, memory, s)) := by
  cases command with
  | perform index operands =>
      rw [Command.actions, List.foldl_append] at hheld ⊢
      obtain ⟨code, vals, hbody, hvals, htypes, hexec⟩ := exec_operands signature functions
        operands hroom.append.1 fun segment hsegment =>
          hheld segment (mem_segments_foldl_perform hsegment _)
      refine ⟨code ++ [.call index], ?_, ?_⟩
      · rw [List.foldl_cons, List.foldl_nil, Emitter.perform, hbody, List.append_assoc]
        rfl
      · have hcall : Frame.next signature functions (⟨vals.reverse ++ [], [.i32 status]⟩, memory, s)
            (.call index) = (functions index vals (memory, s)).map fun result =>
              (⟨result.1.reverse ++ [], [.i32 status]⟩, result.2) :=
          Frame.next_call hfits vals htypes [] [.i32 status] (memory, s)
        have hperform := hhost.perform index operands vals memory s hvals
        rw [Frame.exec_append, hexec, Option.bind_some, Frame.exec_cons, hcall, Host.command]
        cases hresult : host.perform index operands s with
        | none =>
            rw [hresult] at hperform
            rw [show functions index vals (memory, s) = none from hperform]
            rfl
        | some s' =>
            rw [hresult] at hperform
            obtain ⟨memory', hcalled, hkept⟩ := hperform
            rw [hcalled]
            exact ⟨memory', rfl, hkept⟩
  | submitJob payload =>
      have hpointed := pointed_push hroom fun segment hsegment =>
        hheld segment (mem_segments_foldl_perform hsegment _)
      have hcall : Frame.next signature functions
          (⟨(jobArguments emitter.nextDataOffset.toInt32 (.ofNat payload.length)).reverse ++ [],
            [.i32 status]⟩, memory, s) (.call 16) =
          (functions 16 (jobArguments emitter.nextDataOffset.toInt32 (.ofNat payload.length))
            (memory, s)).map fun result =>
              (⟨result.1.reverse ++ [], [.i32 status]⟩, result.2) :=
        Frame.next_call hfits _ rfl [] [.i32 status] (memory, s)
      have hsubmit := hhost.submitJob emitter.nextDataOffset.toInt32 (.ofNat payload.length)
        memory s
      rw [hpointed] at hsubmit
      refine ⟨[.i32Const emitter.nextDataOffset.toInt32, .i32Const (.ofNat payload.length),
        .i32Const jobIdBufferOffset.toInt32, .i32Const jobIdBufferSize.toInt32, .call 16,
          .localSet 0], ?_, ?_⟩
      · simp [Command.actions, Emitter.perform, Action.code]
      · change FollowsHost memory (host.submitJob payload s) ((Frame.next signature functions
          (⟨(jobArguments emitter.nextDataOffset.toInt32 (.ofNat payload.length)).reverse ++ [],
            [.i32 status]⟩, memory, s) (.call 16)).bind
              (Frame.exec signature functions [.localSet 0]))
        rw [hcall]
        cases hresult : host.submitJob payload s with
        | none =>
            rw [hresult] at hsubmit
            rw [show functions 16 _ (memory, s) = none from hsubmit]
            rfl
        | some result =>
            obtain ⟨status', s'⟩ := result
            rw [hresult] at hsubmit
            obtain ⟨memory', hcalled, hkept⟩ := hsubmit
            rw [hcalled]
            exact ⟨memory', rfl, hkept⟩

theorem exec_commands {commands : List (Command F64)}
    (hfits : ∀ command ∈ commands, command.Fits signature) {emitter : Emitter F64}
    (hroom : Room emitter (commands.flatMap Command.actions)) {memory : Memory}
    (hheld : Memory.Held jobIdBufferSize.toNat
      ((commands.flatMap Command.actions).foldl Emitter.perform emitter).segments memory)
    (status : Int32) (s : σ) :
    ∃ code,
      ((commands.flatMap Command.actions).foldl Emitter.perform emitter).body =
          emitter.body ++ code ∧
        FollowsHost memory (commands.foldlM host.command (status, s))
          (Frame.exec signature functions code (⟨[], [.i32 status]⟩, memory, s)) := by
  induction commands generalizing emitter memory status s with
  | nil => exact ⟨[], (List.append_nil _).symm, memory, rfl, .refl⟩
  | cons command commands ih =>
      rw [List.flatMap_cons] at hroom
      rw [List.flatMap_cons, List.foldl_append] at hheld ⊢
      obtain ⟨code, hbody, hfollows⟩ := exec_command hhost (hfits command List.mem_cons_self)
        hroom.append.1 (fun segment hsegment =>
          hheld segment (mem_segments_foldl_perform hsegment _)) status s
      have hrest : ∀ other ∈ commands, other.Fits signature :=
        fun other hother => hfits other (List.mem_cons_of_mem command hother)
      rw [List.foldlM_cons]
      cases hresult : host.command (status, s) command with
      | none =>
          obtain ⟨code', hbody', -⟩ := ih hrest hroom.append.2 hheld status s
          rw [hresult] at hfollows
          refine ⟨code ++ code', by rw [hbody', hbody, List.append_assoc], ?_⟩
          rw [Frame.exec_append, show Frame.exec signature functions code _ = none from hfollows]
          rfl
      | some result =>
          obtain ⟨status', s'⟩ := result
          rw [hresult] at hfollows
          obtain ⟨memory', hexec, hkept⟩ := hfollows
          obtain ⟨code', hbody', hfollows'⟩ :=
            ih hrest hroom.append.2 (hheld.kept hkept) status' s'
          refine ⟨code ++ code', by rw [hbody', hbody, List.append_assoc], ?_⟩
          rw [Frame.exec_append, hexec]
          exact hfollows'.kept hkept

end Running

section Programs

variable (lib : EmitLibrary) {prog : Program F64} (hsize : prog.literalSize lib < 2 ^ 31)

theorem flatMap_actions_command (ops : List (Opcode F64)) :
    (ops.map (Opcode.command lib)).flatMap Command.actions = ops.flatMap (Opcode.actions lib) := by
  simp only [List.flatMap_map, actions_command]

include hsize

theorem room_new : Room (Emitter.new : Emitter F64) (prog.ops.flatMap (Opcode.actions lib)) := by
  have hlength : ((prog.ops.flatMap (Opcode.actions lib)).map Action.length).sum =
      prog.literalSize lib := by
    rw [sum_map_length, List.flatMap_assoc, Program.literalSize]
    simp only [flatMap_literals_actions]
  have hoffset : (Emitter.new : Emitter F64).nextDataOffset.toNat = 128 := rfl
  exact ⟨Nat.le_refl 128, by omega, by omega⟩

theorem held_data : Memory.Held jobIdBufferSize.toNat (programToWasm lib prog).data
    (Memory.initialise (programToWasm lib prog).data) := by
  rw [data_programToWasm]
  exact Memory.held_initialise ((laidOut_emitOps lib prog hsize).before.imp Or.inl)

end Programs

/-- **The emitted code does what the opcodes say.** Over the memory with its data, and with
functions of any signature that takes the operands of the opcodes, the main function traps
exactly if the host refuses one of the commands, and otherwise it leaves the state that the
commands lead to and the status of the last job, and has changed no byte behind the buffer
for job identifiers. The memory of the run is as large as the data need; whether the one
page of the module is enough for them is what `DataInBounds` says. -/
theorem start_programToWasm [Zero F64] (lib : EmitLibrary) {signature : ℕ → Option FuncType}
    {host : Host F64 σ} {functions : Functions F64 (Memory × σ)} (hhost : Realises host functions)
    (prog : Program F64) (hfits : ∀ op ∈ prog.ops, (op.command lib).Fits signature)
    (hsize : prog.literalSize lib < 2 ^ 31) (s : σ) :
    match host.interpret lib prog s with
    | none => (programToWasm lib prog).start signature functions s = none
    | some (status, s') => ∃ memory',
        (programToWasm lib prog).start signature functions s = some ([.i32 status], memory', s') ∧
          Memory.KeptFrom jobIdBufferSize.toNat
            (Memory.initialise (programToWasm lib prog).data) memory' := by
  have hroom := room_new lib hsize
  have hheld := held_data lib hsize
  have hcommands : ∀ command ∈ prog.ops.map (Opcode.command lib), command.Fits signature := by
    intro command hcommand
    obtain ⟨op, hop, rfl⟩ := List.mem_map.mp hcommand
    exact hfits op hop
  rw [data_programToWasm, emitOps_eq_foldl, ← flatMap_actions_command] at hheld
  rw [← flatMap_actions_command] at hroom
  obtain ⟨code, hbody, hfollows⟩ := exec_commands hhost hcommands hroom hheld 0 s
  rw [flatMap_actions_command, ← emitOps_eq_foldl] at hbody hfollows
  have hstart : (programToWasm lib prog).start signature functions s =
      ((Frame.exec signature functions code
        (⟨[], [.i32 0]⟩, Memory.initialise (programToWasm lib prog).data, s)).bind
          (Frame.exec signature functions [.localGet 0, .finish])).map
            fun (frame, s) => (frame.stack, s) := by
    rw [Module.start, code_programToWasm, List.head?_cons, Option.bind_some, Function.run,
      body_mainFunction, hbody, Frame.exec_append, Frame.exec_append]
    rfl
  rw [data_programToWasm] at hstart ⊢
  rw [hstart, Host.interpret]
  cases hresult : (prog.ops.map (Opcode.command lib)).foldlM host.command (0, s) with
  | none =>
      rw [hresult] at hfollows
      rw [show Frame.exec signature functions code _ = none from hfollows]
      rfl
  | some result =>
      obtain ⟨status, s'⟩ := result
      rw [hresult] at hfollows
      obtain ⟨memory', hexec, hkept⟩ := hfollows
      rw [hexec]
      exact ⟨memory', rfl, hkept⟩

/-- A host that writes down which functions are called, and answers a job with the length of
its identifier. -/
def recorder : Host ℕ (List ℕ) where
  perform index _ calls := some (calls ++ [(index : ℕ)])
  submitJob _ calls := some (18, calls ++ [16])

theorem start_reportingProgram :
    ∃ memory', (programToWasm bareLibrary reportingProgram).start intendedSignature
        (recorder.onMemory fun _ => Codec.utf8 "dummy_mesh_job_123") [] =
          some ([.i32 18], memory', [0, 9, 1, 16]) ∧
      Memory.KeptFrom jobIdBufferSize.toNat
        (Memory.initialise (programToWasm bareLibrary reportingProgram).data) memory' :=
  start_programToWasm bareLibrary (realises_onMemory recorder _) reportingProgram
    (fun op hop => (fits_intended_iff bareLibrary op).mpr
      (List.all_eq_true.mp (by decide : reportingProgram.ops.all Opcode.fitsIntended = true) op
        hop))
    (by decide +kernel) []

end Ccl

end Icn

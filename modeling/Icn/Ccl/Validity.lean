import Icn.Ccl.Emit

/-!
# What is wrong with the emitted modules

A module should have its sections in order, its imports and its main function
should have the types that are meant for them, and every call should find the
parameters of the imported function on the stack. The first three fail for every
program: the data come before the code and the exports after it, and the type of
the main function is declared before those of the imports, which moves all of
these by one.

Whether the calls find their parameters is decided opcode by opcode, because an
opcode that is emitted correctly leaves an empty stack. This is done for the
types that the module declares and for those that were meant.
-/

open Foundation

namespace Icn

namespace Ccl

open Wasm

variable {F64 : Type} (lib : EmitLibrary)

/-- What a module of a program should be. -/
structure Valid (m : Module F64) : Prop where
  inOrder : m.InOrder
  importTypes : m.importTypes = hostTypes.map some
  functionTypes : m.functionTypes = [some mainType]
  exact : m.Exact

section Calls

variable (signature : ℕ → Option FuncType) (locals : List ValType)

def Action.exactNext (stack : List ValType) : Action F64 → Option (List ValType)
  | push _ => some (.i32 :: .i32 :: stack)
  | jobIdBuffer => some (.i32 :: .i32 :: stack)
  | instruction instr => Wasm.exactNext signature locals stack instr

theorem exactStack_code (stack : List ValType) (action : Action F64) (nextDataOffset : UInt32) :
    exactStack signature locals stack (action.code nextDataOffset) =
      action.exactNext signature locals stack := by
  cases action with
  | push bytes => rfl
  | jobIdBuffer => rfl
  | instruction instr => exact Option.bind_fun_some _

theorem exactStack_foldl_perform (emitter : Emitter F64) (actions : List (Action F64)) :
    exactStack signature locals [] (actions.foldl Emitter.perform emitter).body =
      (exactStack signature locals [] emitter.body).bind fun stack =>
        actions.foldlM (Action.exactNext signature locals) stack := by
  induction actions generalizing emitter with
  | nil => exact (Option.bind_fun_some _).symm
  | cons action actions ih =>
      rw [List.foldl_cons, ih, Emitter.perform, exactStack_append, Option.bind_assoc]
      simp only [exactStack_code, List.foldlM_cons]
      rfl

/-- Where an opcode is emitted correctly if it fits and fails otherwise, opcodes are
emitted correctly if all of them fit. -/
theorem foldlM_flatMap_actions {fits : Opcode F64 → Bool}
    (h : ∀ op : Opcode F64, (op.actions lib).foldlM (Action.exactNext signature locals) [] =
      if fits op then some [] else none) (ops : List (Opcode F64)) :
    (ops.flatMap (Opcode.actions lib)).foldlM (Action.exactNext signature locals) [] =
      if ops.all fits then some [] else none := by
  induction ops with
  | nil => rfl
  | cons op ops ih =>
      rw [List.flatMap_cons, List.foldlM_append, h, List.all_cons]
      cases fits op with
      | true => exact ih
      | false => rfl

end Calls

theorem exact_mainFunction_iff {signature : ℕ → Option FuncType} {locals : List ValType}
    (hlocals : locals[0]? = some .i32) {fits : Opcode F64 → Bool}
    (h : ∀ op : Opcode F64, (op.actions lib).foldlM (Action.exactNext signature locals) [] =
      if fits op then some [] else none) (ops : List (Opcode F64)) :
    Exact signature locals [.i32] (mainFunction (emitOps lib Emitter.new ops)).body ↔
      ops.all fits = true := by
  have hnew : exactStack signature locals [] (Emitter.new : Emitter F64).body = some [] := by
    simp [Emitter.new, exactStack, exactNext, hlocals]
  have hbody : exactStack signature locals [] (mainFunction (emitOps lib Emitter.new ops)).body =
      if ops.all fits then some [.i32] else none := by
    rw [body_mainFunction, exactStack_append, emitOps_eq_foldl, exactStack_foldl_perform, hnew,
      Option.bind_some, foldlM_flatMap_actions lib signature locals h]
    cases ops.all fits with
    | true => simp [exactStack, exactNext, hlocals]
    | false => rfl
  rw [Exact, hbody]
  cases ops.all fits <;> simp

def declaredSignature (index : ℕ) : Option FuncType :=
  let types := mainType :: hostTypes
  ((hostFns.map fun fn => types[fn.2]?) ++ [types[17]?])[index]?.join

def intendedSignature (index : ℕ) : Option FuncType := hostTypes[index]?

/-- The opcodes whose operands are the parameters of the import that is called, as it
is declared. -/
def Opcode.fitsDeclared : Opcode F64 → Bool
  | .callHost _ _ => true
  | .endIf => true
  | .onEvent _ => true
  | _ => false

/-- The opcodes whose operands are the parameters of the import that is called, as it
should be. -/
def Opcode.fitsIntended : Opcode F64 → Bool
  | .mintToken .. => false
  | .useResource _ _ => false
  | .transferToken .. => false
  | _ => true

theorem foldlM_actions_declared (op : Opcode F64) :
    (op.actions lib).foldlM (Action.exactNext declaredSignature [.i32, .i32, .i32, .i32, .i32]) [] =
      if op.fitsDeclared then some [] else none := by
  cases op <;> rfl

theorem foldlM_actions_intended (op : Opcode F64) :
    (op.actions lib).foldlM (Action.exactNext intendedSignature [.i32]) [] =
      if op.fitsIntended then some [] else none := by
  cases op <;> rfl

theorem not_inOrder_programToWasm (prog : Program F64) : ¬ (programToWasm lib prog).InOrder := by
  change ¬ List.Pairwise (· < ·) [1, 2, 3, 5, 11, 10, 7]
  decide

theorem importTypes_programToWasm (prog : Program F64) :
    (programToWasm lib prog).importTypes = some mainType :: hostTypes.dropLast.map some := rfl

theorem functionTypes_programToWasm (prog : Program F64) :
    (programToWasm lib prog).functionTypes = [some ⟨[.i32, .i32, .i32, .i32], [.i32]⟩] := rfl

/-- With the types that are declared, the calls find their parameters only for three
of the opcodes. -/
theorem exact_programToWasm_iff (prog : Program F64) :
    (programToWasm lib prog).Exact ↔ prog.ops.all Opcode.fitsDeclared = true := by
  rw [← exact_mainFunction_iff lib rfl (foldlM_actions_declared lib)]
  constructor
  · intro h
    obtain ⟨type, htype, hexact⟩ := h _ List.mem_cons_self
    obtain rfl := Option.some.inj htype
    exact hexact
  · rintro h entry hentry
    obtain rfl := List.mem_singleton.mp hentry
    exact ⟨_, rfl, h⟩

/-- With the types that were meant, the calls would find their parameters for all but
three of the opcodes. -/
theorem exact_intended_iff (prog : Program F64) :
    Exact intendedSignature [.i32] [.i32] (mainFunction (emitOps lib Emitter.new prog.ops)).body ↔
      prog.ops.all Opcode.fitsIntended = true :=
  exact_mainFunction_iff lib rfl (foldlM_actions_intended lib) prog.ops

/-- No module is valid: its sections are out of order, its imports and its main
function do not have their types, and the calls of all but three opcodes do not find
their parameters. -/
theorem programToWasm_not_valid (prog : Program F64) :
    ¬ Valid (programToWasm lib prog) ∧ ¬ (programToWasm lib prog).InOrder ∧
      (programToWasm lib prog).importTypes ≠ hostTypes.map some ∧
      (programToWasm lib prog).functionTypes ≠ [some mainType] ∧
      ((programToWasm lib prog).Exact ↔ prog.ops.all Opcode.fitsDeclared = true) := by
  refine ⟨fun h => not_inOrder_programToWasm lib prog h.inOrder,
    not_inOrder_programToWasm lib prog, ?_, ?_, exact_programToWasm_iff lib prog⟩
  · rw [importTypes_programToWasm]
    decide
  · rw [functionTypes_programToWasm]
    decide

theorem not_valid_reportingProgram : ¬ Valid (programToWasm bareLibrary reportingProgram) :=
  fun h => not_inOrder_programToWasm bareLibrary reportingProgram h.inOrder

end Ccl

end Icn

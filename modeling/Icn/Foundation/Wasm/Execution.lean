import Icn.Foundation.Wasm.Memory

/-!
# Bodies that run straight through

A body runs on a stack of operands and on locals, over a state that only the functions it
calls can change. A call takes its parameters off the stack and puts its results there. It
is none where the operands are not of the types that the signature asks for, and where the
function traps.
-/

namespace Foundation

namespace Wasm

inductive Val (F64 : Type) where
  | i32 (value : Int32)
  | i64 (value : Int64)
  | f64 (value : F64)

/-- The functions that can be called, over a state. A trap is none. -/
abbrev Functions (F64 σ : Type) := ℕ → List (Val F64) → σ → Option (List (Val F64) × σ)

/-- The operands, the top first, and the locals. -/
structure Frame (F64 : Type) where
  stack : List (Val F64)
  locals : List (Val F64)

variable {F64 σ : Type}

def Val.type : Val F64 → ValType
  | i32 _ => .i32
  | i64 _ => .i64
  | f64 _ => .f64

def Val.zero [Zero F64] : ValType → Val F64
  | .i32 => .i32 0
  | .i64 => .i64 0
  | .f64 => .f64 0

namespace Frame

def push (frame : Frame F64) (value : Val F64) : Frame F64 :=
  { frame with stack := value :: frame.stack }

def next (signature : ℕ → Option FuncType) (functions : Functions F64 σ) :
    Frame F64 × σ → Instruction F64 → Option (Frame F64 × σ)
  | (frame, s), .i32Const value => some (frame.push (.i32 value), s)
  | (frame, s), .i64Const value => some (frame.push (.i64 value), s)
  | (frame, s), .f64Const value => some (frame.push (.f64 value), s)
  | (frame, s), .localGet index => frame.locals[index]?.map fun value => (frame.push value, s)
  | (⟨[], _⟩, _), .localSet _ => none
  | (⟨value :: stack, locals⟩, s), .localSet index =>
      if (locals[index]?.map Val.type) = some value.type then
        some (⟨stack, locals.set index value⟩, s)
      else none
  | (frame, s), .call index =>
      (signature index).bind fun type =>
        let args := (frame.stack.take type.params.length).reverse
        if args.map Val.type = type.params then
          (functions index args s).map fun (results, s) =>
            ({ frame with
              stack := results.reverse ++ frame.stack.drop type.params.length }, s)
        else none
  | state, .finish => some state

def exec (signature : ℕ → Option FuncType) (functions : Functions F64 σ)
    (body : List (Instruction F64)) (state : Frame F64 × σ) : Option (Frame F64 × σ) :=
  body.foldlM (next signature functions) state

end Frame

/-- The operands that a function without parameters leaves, and the state. -/
def Function.run [Zero F64] (signature : ℕ → Option FuncType) (functions : Functions F64 σ)
    (function : Function F64) (s : σ) : Option (List (Val F64) × σ) :=
  (Frame.exec signature functions function.body (⟨[], function.locals.map Val.zero⟩, s)).map
    fun (frame, s) => (frame.stack, s)

/-- What the first function of a module leaves over the memory with its data, and the state.
The memory has every address: that the data fit into the pages of the module is another
matter. -/
def Module.start [Zero F64] (m : Module F64) (signature : ℕ → Option FuncType)
    (functions : Functions F64 (Memory × σ)) (s : σ) : Option (List (Val F64) × Memory × σ) :=
  m.code.head?.bind fun function =>
    function.run signature functions (Memory.initialise m.data, s)

namespace Memory

variable {start : ℕ} {memory memory' memory'' : Memory}

/-- The bytes behind the start are the same. -/
def KeptFrom (start : ℕ) (memory memory' : Memory) : Prop :=
  ∀ i, start ≤ i → memory' i = memory i

/-- The segments behind the start are found in memory. -/
def Held (start : ℕ) (segments : List DataSegment) (memory : Memory) : Prop :=
  ∀ segment ∈ segments, start ≤ segment.address →
    memory.read segment.address segment.bytes.length = segment.bytes

theorem KeptFrom.refl : KeptFrom start memory memory := fun _ _ => rfl

theorem KeptFrom.trans (h : KeptFrom start memory memory')
    (h' : KeptFrom start memory' memory'') : KeptFrom start memory memory'' :=
  fun i hi => (h' i hi).trans (h i hi)

theorem KeptFrom.read (h : KeptFrom start memory memory') {pointer : ℕ} (hpointer : start ≤ pointer)
    (length : ℕ) : memory'.read pointer length = memory.read pointer length := by
  simp only [Memory.read]
  exact List.map_congr_left fun i _ => h _ (hpointer.trans (Nat.le_add_right _ _))

theorem Held.kept {segments : List DataSegment} (h : Held start segments memory)
    (hkept : KeptFrom start memory memory') : Held start segments memory' :=
  fun segment hsegment hstart => (hkept.read hstart _).trans (h segment hsegment hstart)

theorem held_initialise {segments : List DataSegment}
    (h : segments.Pairwise DataSegment.Disjoint) : Held start segments (initialise segments) :=
  fun _ hsegment _ => read_initialise h hsegment

end Memory

namespace Frame

variable {signature : ℕ → Option FuncType} {functions : Functions F64 σ}

@[simp] theorem exec_nil (state : Frame F64 × σ) :
    exec signature functions [] state = some state := rfl

theorem exec_cons (instr : Instruction F64) (body : List (Instruction F64))
    (state : Frame F64 × σ) : exec signature functions (instr :: body) state =
      (next signature functions state instr).bind (exec signature functions body) := rfl

theorem exec_append (body body' : List (Instruction F64)) (state : Frame F64 × σ) :
    exec signature functions (body ++ body') state =
      (exec signature functions body state).bind (exec signature functions body') :=
  List.foldlM_append

theorem next_call {index : ℕ} {type : FuncType} (hsignature : signature index = some type)
    (args : List (Val F64)) (htypes : args.map Val.type = type.params)
    (stack locals : List (Val F64)) (s : σ) :
    next signature functions (Frame.mk (args.reverse ++ stack) locals, s) (.call index) =
      (functions index args s).map fun (results, s) =>
        (⟨results.reverse ++ stack, locals⟩, s) := by
  have hlength : type.params.length = args.reverse.length := by
    rw [← htypes, List.length_map, List.length_reverse]
  rw [next, hsignature, Option.bind_some, hlength, List.take_left, List.drop_left,
    List.reverse_reverse, if_pos htypes]

end Frame

end Wasm

end Foundation

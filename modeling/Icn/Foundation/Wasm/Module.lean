import Mathlib.Data.List.Infix

/-!
# WebAssembly modules

Modules with imported functions, memories, and bodies that run straight through.
A module is the list of its sections as they are written. The specification
numbers the sections and wants them in increasing order.

`exactNext` follows the types on the operand stack through a body in which every
call takes the whole stack, and `Exact` says that it gets to the end.
-/

namespace Foundation

namespace Wasm

inductive ValType where
  | i32
  | i64
  | f64
deriving DecidableEq, Repr

structure FuncType where
  params : List ValType
  results : List ValType
deriving DecidableEq, Repr

inductive Instruction (F64 : Type) where
  | i32Const (value : Int32)
  | i64Const (value : Int64)
  | f64Const (value : F64)
  | localGet (index : ℕ)
  | localSet (index : ℕ)
  | call (index : ℕ)
  | finish

structure Import where
  moduleName : String
  name : String
  typeIndex : ℕ
deriving DecidableEq, Repr

structure MemoryType where
  minimum : ℕ
  maximum : Option ℕ
deriving DecidableEq, Repr

/-- An active segment of the first memory. -/
structure DataSegment where
  offset : Int32
  bytes : List UInt8

structure Function (F64 : Type) where
  locals : List ValType
  body : List (Instruction F64)

structure Export where
  name : String
  functionIndex : ℕ
deriving DecidableEq, Repr

inductive Section (F64 : Type) where
  | types (types : List FuncType)
  | imports (imports : List Import)
  | functions (typeIndices : List ℕ)
  | memories (memories : List MemoryType)
  | exports (exports : List Export)
  | code (functions : List (Function F64))
  | data (segments : List DataSegment)

variable {F64 : Type}

def Section.id : Section F64 → ℕ
  | types _ => 1
  | imports _ => 2
  | functions _ => 3
  | memories _ => 5
  | exports _ => 7
  | code _ => 10
  | data _ => 11

structure Module (F64 : Type) where
  sections : List (Section F64)

namespace Module

def types (m : Module F64) : List FuncType :=
  m.sections.flatMap fun
    | .types types => types
    | _ => []

def imports (m : Module F64) : List Import :=
  m.sections.flatMap fun
    | .imports imports => imports
    | _ => []

def functions (m : Module F64) : List ℕ :=
  m.sections.flatMap fun
    | .functions typeIndices => typeIndices
    | _ => []

def memories (m : Module F64) : List MemoryType :=
  m.sections.flatMap fun
    | .memories memories => memories
    | _ => []

def code (m : Module F64) : List (Function F64) :=
  m.sections.flatMap fun
    | .code functions => functions
    | _ => []

def data (m : Module F64) : List DataSegment :=
  m.sections.flatMap fun
    | .data segments => segments
    | _ => []

/-- The sections stand in the order of their numbers. -/
def InOrder (m : Module F64) : Prop := (m.sections.map Section.id).Pairwise (· < ·)

instance (m : Module F64) : Decidable m.InOrder := inferInstanceAs (Decidable (List.Pairwise _ _))

def importTypes (m : Module F64) : List (Option FuncType) :=
  m.imports.map fun imported => m.types[imported.typeIndex]?

def functionTypes (m : Module F64) : List (Option FuncType) :=
  m.functions.map fun typeIndex => m.types[typeIndex]?

/-- The type of a function. The imported functions come first. -/
def signature (m : Module F64) (index : ℕ) : Option FuncType :=
  (m.importTypes ++ m.functionTypes)[index]?.join

end Module

section Typing

variable (signature : ℕ → Option FuncType) (locals : List ValType)

/-- The operand stack after an instruction, the top first. A call finds its
parameters on it and nothing else. -/
def exactNext (stack : List ValType) : Instruction F64 → Option (List ValType)
  | .i32Const _ => some (.i32 :: stack)
  | .i64Const _ => some (.i64 :: stack)
  | .f64Const _ => some (.f64 :: stack)
  | .localGet index => locals[index]?.map (· :: stack)
  | .localSet index =>
      match stack with
      | [] => none
      | top :: stack => if locals[index]? = some top then some stack else none
  | .call index =>
      (signature index).bind fun type =>
        if stack = type.params.reverse then some type.results.reverse else none
  | .finish => some stack

def exactStack (stack : List ValType) (body : List (Instruction F64)) : Option (List ValType) :=
  body.foldlM (exactNext signature locals) stack

/-- Every call finds its parameters on the stack and nothing else, and the results are
left at the end. -/
def Exact (results : List ValType) (body : List (Instruction F64)) : Prop :=
  exactStack signature locals [] body = some results.reverse

theorem exactStack_append (stack : List ValType) (body body' : List (Instruction F64)) :
    exactStack signature locals stack (body ++ body') =
      (exactStack signature locals stack body).bind fun stack =>
        exactStack signature locals stack body' :=
  List.foldlM_append

end Typing

/-- The bodies of the functions of a module are exact. -/
def Module.Exact (m : Module F64) : Prop :=
  ∀ entry ∈ m.functionTypes.zip m.code, ∃ type, entry.1 = some type ∧
    Wasm.Exact m.signature (type.params ++ entry.2.locals) type.results entry.2.body

end Wasm

end Foundation

import Icn.Foundation.Wasm.Module

/-!
# Data segments in memory

The active segments of a module are written into a memory of zeros one after the
other. Segments that do not overlap are all found there afterwards.

Code passes bytes to a function as a pointer and a length, which are two constants
one after the other; `operandPairs` collects them from a body.
-/

namespace Foundation

namespace Wasm

abbrev Memory := ℕ → UInt8

namespace DataSegment

def address (segment : DataSegment) : ℕ := segment.offset.toUInt32.toNat

def stop (segment : DataSegment) : ℕ := segment.address + segment.bytes.length

/-- The second segment begins behind the first. -/
def Before (segment segment' : DataSegment) : Prop := segment.stop ≤ segment'.address

def Disjoint (segment segment' : DataSegment) : Prop :=
  segment.Before segment' ∨ segment'.Before segment

end DataSegment

def pageSize : ℕ := 65536

/-- The number of bytes that the first memory of a module has to begin with. -/
def Module.memorySize {F64 : Type} (m : Module F64) : ℕ :=
  (m.memories.head?.elim 0 MemoryType.minimum) * pageSize

/-- The segments lie inside the memory that they are written to. -/
def Module.DataInBounds {F64 : Type} (m : Module F64) : Prop :=
  ∀ segment ∈ m.data, segment.stop ≤ m.memorySize

namespace Memory

def write (memory : Memory) (segment : DataSegment) : Memory := fun i =>
  if segment.address ≤ i then segment.bytes[i - segment.address]?.getD (memory i) else memory i

def initialise (segments : List DataSegment) : Memory := segments.foldl write fun _ => 0

def read (memory : Memory) (pointer length : ℕ) : List UInt8 :=
  (List.range length).map fun i => memory (pointer + i)

def pointed (memory : Memory) (pair : Int32 × Int32) : List UInt8 :=
  memory.read pair.1.toUInt32.toNat pair.2.toUInt32.toNat

theorem write_of_inside (memory : Memory) (segment : DataSegment) {i : ℕ}
    (h : i < segment.bytes.length) :
    memory.write segment (segment.address + i) = segment.bytes[i] := by
  simp [write, h]

theorem write_of_outside (memory : Memory) {segment : DataSegment} {i : ℕ}
    (h : i < segment.address ∨ segment.stop ≤ i) : memory.write segment i = memory i := by
  unfold write
  split
  · next hle =>
    have hlength : segment.bytes.length ≤ i - segment.address := by
      unfold DataSegment.stop at h
      omega
    rw [List.getElem?_eq_none hlength, Option.getD_none]
  · rfl

/-- Segments that do not overlap an address leave it alone. -/
theorem foldl_write_of_outside {segments : List DataSegment} {i : ℕ}
    (h : ∀ segment ∈ segments, i < segment.address ∨ segment.stop ≤ i) (memory : Memory) :
    segments.foldl write memory i = memory i := by
  induction segments generalizing memory with
  | nil => rfl
  | cons segment segments ih =>
      rw [List.foldl_cons, ih fun other hother => h other (List.mem_cons_of_mem segment hother),
        write_of_outside memory (h segment List.mem_cons_self)]

/-- A segment that overlaps no other is found in memory. -/
theorem read_initialise {segments : List DataSegment} (h : segments.Pairwise DataSegment.Disjoint)
    {segment : DataSegment} (hmem : segment ∈ segments) :
    (initialise segments).read segment.address segment.bytes.length = segment.bytes := by
  obtain ⟨before, after, rfl⟩ := List.append_of_mem hmem
  have hafter : ∀ other ∈ after, segment.Disjoint other :=
    (List.pairwise_cons.mp (List.pairwise_append.mp h).2.1).1
  apply List.ext_getElem
  · simp [read]
  · intro i hi hbytes
    have houtside : ∀ other ∈ after,
        segment.address + i < other.address ∨ other.stop ≤ segment.address + i := by
      intro other hother
      have hdisjoint := hafter other hother
      unfold DataSegment.Disjoint DataSegment.Before DataSegment.stop at hdisjoint
      unfold DataSegment.stop
      omega
    simp only [read, List.getElem_map, List.getElem_range]
    rw [initialise, List.foldl_append, List.foldl_cons, foldl_write_of_outside houtside,
      write_of_inside _ _ hbytes]

end Memory

section Operands

variable {F64 : Type}

def operandPairs : List (Instruction F64) → List (Int32 × Int32)
  | .i32Const pointer :: .i32Const length :: body => (pointer, length) :: operandPairs body
  | _ :: body => operandPairs body
  | [] => []

/-- No pair begins in the body and ends behind it. -/
def Paired (body : List (Instruction F64)) : Prop :=
  ∀ rest, operandPairs (body ++ rest) = operandPairs body ++ operandPairs rest

theorem Paired.append {body body' : List (Instruction F64)} (h : Paired body)
    (h' : Paired body') : Paired (body ++ body') := by
  intro rest
  rw [List.append_assoc, h, h', h, List.append_assoc]

theorem paired_pair (pointer length : Int32) :
    Paired ([.i32Const pointer, .i32Const length] : List (Instruction F64)) :=
  fun _ => by simp [operandPairs]

end Operands

end Wasm

end Foundation

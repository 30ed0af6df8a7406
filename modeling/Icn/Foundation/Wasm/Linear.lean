import Mathlib.Data.List.Basic
import Mathlib.Data.UInt

/-!
# Memories of a bounded size

A memory of so many bytes, which a host reads from and writes to at an address. An
access that does not lie in the memory as a whole is not made, and a write leaves
everything outside of it as before.
-/

namespace Foundation

namespace Wasm

abbrev Linear := List UInt8

namespace Linear

variable {memory memory' : Linear} {address : ℕ} {bytes : List UInt8}

def read (memory : Linear) (address length : ℕ) : Option (List UInt8) :=
  if address + length ≤ memory.length then some ((memory.drop address).take length) else none

def write (memory : Linear) (address : ℕ) (bytes : List UInt8) : Option Linear :=
  if address + bytes.length ≤ memory.length then
    some (memory.take address ++ (bytes ++ memory.drop (address + bytes.length)))
  else none

theorem write_eq_some_iff : memory.write address bytes = some memory' ↔
    ∃ before old after, memory = before ++ (old ++ after) ∧ before.length = address ∧
      old.length = bytes.length ∧ memory' = before ++ (bytes ++ after) := by
  rw [write, Option.ite_none_right_eq_some]
  constructor
  · rintro ⟨hle, hmemory⟩
    refine ⟨memory.take address, (memory.drop address).take bytes.length,
      memory.drop (address + bytes.length), ?_, by rw [List.length_take]; omega,
      by rw [List.length_take, List.length_drop]; omega, (Option.some.inj hmemory).symm⟩
    rw [← List.drop_drop, List.take_append_drop, List.take_append_drop]
  · rintro ⟨before, old, after, rfl, rfl, hold, rfl⟩
    refine ⟨by simp only [List.length_append]; omega, ?_⟩
    rw [List.take_left, ← hold, ← List.drop_drop, List.drop_left, List.drop_left]

theorem getElem?_of_write (h : memory.write address bytes = some memory') {i : ℕ}
    (hi : i < address ∨ address + bytes.length ≤ i) : memory'[i]? = memory[i]? := by
  obtain ⟨before, old, after, rfl, rfl, hold, rfl⟩ := write_eq_some_iff.mp h
  rcases hi with hi | hi
  · rw [List.getElem?_append_left hi, List.getElem?_append_left hi]
  · rw [List.getElem?_append_right (by omega), List.getElem?_append_right (by omega),
      List.getElem?_append_right (by omega), List.getElem?_append_right (by omega), hold]

end Linear

end Wasm

end Foundation

import Icn.Ccl.Generator
import Icn.Ccl.Layout

/-!
# Data in memory

A module declares one page of memory before any opcode is looked at, and every literal
of the program moves the next free offset. Each literal that is placed lies inside the
page if and only if all of them together fit behind the buffer for job identifiers
(`stop_le_foldl_perform_iff`): the first one that does not fit is already outside, so it
is of no importance that the offsets of later ones may wrap.

The length of a literal is taken as a signed word, and one that is not positive then is
not placed.
-/

open Foundation

namespace Icn

namespace Ccl

open Wasm

variable {F64 : Type} (lib : EmitLibrary)

/-- `compile_to_wasm`. -/
def compileToWasm {T : DslTypes} (dslLib : DslLibrary T) (modules : List (DslModule T)) :
    Module T.F64 :=
  programToWasm lib (WasmGenerator.generate dslLib modules)

def placedLength (bytes : List UInt8) : ℕ :=
  if 0 < Int32.ofNat bytes.length then bytes.length else 0

def Program.placedSize (prog : Program F64) : ℕ :=
  ((prog.ops.flatMap (Opcode.literals lib)).map placedLength).sum

namespace Action

def placedLength (action : Action F64) : ℕ := (action.literals.map Ccl.placedLength).sum

/-- An action places one segment at the next free offset, or leaves the offset alone. -/
theorem placed_cases (action : Action F64) (nextDataOffset : UInt32) :
    action.placedLength = 0 ∧ action.placed nextDataOffset = [] ∧ action.size = 0 ∨
      ∃ bytes, action.placedLength = bytes.length ∧
        action.placed nextDataOffset = [⟨nextDataOffset.toInt32, bytes⟩] ∧
        action.size = (Int32.ofNat bytes.length).toUInt32 := by
  cases action with
  | jobIdBuffer => exact .inl ⟨rfl, rfl, rfl⟩
  | instruction instr => exact .inl ⟨rfl, rfl, rfl⟩
  | push bytes =>
      by_cases hpositive : 0 < Int32.ofNat bytes.length
      · refine .inr ⟨bytes, ?_, if_pos hpositive, if_pos hpositive⟩
        simp [placedLength, literals, Ccl.placedLength, hpositive]
      · refine .inl ⟨?_, if_neg hpositive, if_neg hpositive⟩
        simp [placedLength, literals, Ccl.placedLength, hpositive]

end Action

theorem mem_segments_foldl_perform {emitter : Emitter F64} {segment : DataSegment}
    (h : segment ∈ emitter.segments) (actions : List (Action F64)) :
    segment ∈ (actions.foldl Emitter.perform emitter).segments := by
  induction actions generalizing emitter with
  | nil => exact h
  | cons action actions ih => exact ih (List.mem_append_left _ h)

/-- Behind an offset that is not beyond the limit, all segments end before the limit if
what is still to be placed fits. -/
theorem stop_le_foldl_perform_iff {limit : ℕ} (hlimit : limit < 2 ^ 31)
    (emitter : Emitter F64) (actions : List (Action F64))
    (hoffset : emitter.nextDataOffset.toNat ≤ limit) :
    (∀ segment ∈ (actions.foldl Emitter.perform emitter).segments, segment.stop ≤ limit) ↔
      (∀ segment ∈ emitter.segments, segment.stop ≤ limit) ∧
        emitter.nextDataOffset.toNat + (actions.map Action.placedLength).sum ≤ limit := by
  induction actions generalizing emitter with
  | nil => exact (and_iff_left hoffset).symm
  | cons action actions ih =>
      rw [List.foldl_cons, List.map_cons, List.sum_cons]
      rcases action.placed_cases emitter.nextDataOffset with
        ⟨hlength, hplaced, hsize⟩ | ⟨bytes, hlength, hplaced, hsize⟩
      · have hnext : (emitter.perform action).nextDataOffset = emitter.nextDataOffset := by
          rw [Emitter.perform, hsize, UInt32.add_zero]
        have hsegments : (emitter.perform action).segments = emitter.segments := by
          rw [Emitter.perform, hplaced, List.append_nil]
        rw [ih _ (hnext ▸ hoffset), hnext, hsegments, hlength, zero_add]
      · have hsegments : (emitter.perform action).segments =
            emitter.segments ++ [⟨emitter.nextDataOffset.toInt32, bytes⟩] := by
          rw [Emitter.perform, hplaced]
        have hstop : (⟨emitter.nextDataOffset.toInt32, bytes⟩ : DataSegment).stop =
            emitter.nextDataOffset.toNat + bytes.length := rfl
        by_cases hfits : emitter.nextDataOffset.toNat + bytes.length ≤ limit
        · have hword : action.size.toNat = bytes.length := by
            rw [hsize, Int32.toUInt32_ofNat', UInt32.toNat_ofNat', Nat.mod_eq_of_lt (by omega)]
          have hnext : (emitter.perform action).nextDataOffset.toNat =
              emitter.nextDataOffset.toNat + bytes.length := by
            rw [Emitter.perform, UInt32.toNat_add, hword, Nat.mod_eq_of_lt (by omega)]
          rw [ih _ (hnext ▸ hfits), hnext, hsegments, hlength, add_assoc]
          simp [or_imp, forall_and, hstop, hfits]
        · have hmem : (⟨emitter.nextDataOffset.toInt32, bytes⟩ : DataSegment) ∈
              (emitter.perform action).segments := by
            rw [hsegments]
            exact List.mem_append_right _ List.mem_cons_self
          refine iff_of_false (fun h => ?_) (fun h => ?_)
          · have hinside := h _ (mem_segments_foldl_perform hmem actions)
            rw [hstop] at hinside
            exact hfits hinside
          · rw [hlength] at h
            omega

theorem memorySize_programToWasm (prog : Program F64) :
    (programToWasm lib prog).memorySize = pageSize := by
  simp [programToWasm, Module.memorySize, Module.memories]

theorem sum_map_placedLength (prog : Program F64) :
    ((prog.ops.flatMap (Opcode.actions lib)).map Action.placedLength).sum =
      prog.placedSize lib := by
  have hsum : ∀ actions : List (Action F64), (actions.map Action.placedLength).sum =
      ((actions.flatMap Action.literals).map placedLength).sum := by
    intro actions
    induction actions with
    | nil => rfl
    | cons action actions ih =>
        rw [List.map_cons, List.sum_cons, ih, List.flatMap_cons, List.map_append, List.sum_append,
          Action.placedLength]
  rw [hsum, List.flatMap_assoc, Program.placedSize]
  simp only [flatMap_literals_actions]

/-- The data of a module are inside its memory exactly if the literals that are placed
fit into the rest of the page. -/
theorem dataInBounds_programToWasm_iff (prog : Program F64) :
    (programToWasm lib prog).DataInBounds ↔
      prog.placedSize lib ≤ pageSize - jobIdBufferSize.toNat := by
  have hoffset : (Emitter.new : Emitter F64).nextDataOffset.toNat = 128 := rfl
  have hnew : ∀ segment ∈ (Emitter.new : Emitter F64).segments, segment.stop ≤ pageSize := by
    intro segment hsegment
    obtain rfl := List.mem_singleton.mp hsegment
    rw [DataSegment.stop, List.length_replicate]
    decide
  have hlimit := stop_le_foldl_perform_iff (show pageSize < 2 ^ 31 by decide)
    (Emitter.new : Emitter F64) (prog.ops.flatMap (Opcode.actions lib)) (by rw [hoffset]; decide)
  rw [← emitOps_eq_foldl, sum_map_placedLength, hoffset] at hlimit
  rw [Module.DataInBounds, data_programToWasm, memorySize_programToWasm, hlimit]
  have hpage : pageSize = 65536 := rfl
  have hbuffer : jobIdBufferSize.toNat = 128 := rfl
  constructor
  · rintro ⟨-, hfits⟩
    omega
  · intro hfits
    exact ⟨hnew, by omega⟩

/-- A section that has nothing but a title. -/
def titledSection (title : String) : DslModule wholeTypes :=
  .genericSection ⟨"section", some title, []⟩

theorem dataInBounds_titledSection {title : String} (h : (Codec.utf8 title).length < 2 ^ 31) :
    (compileToWasm bareLibrary wholeLibrary [titledSection title]).DataInBounds ↔
      (Codec.utf8 title).length ≤ 65401 := by
  have hops : (WasmGenerator.generate wholeLibrary [titledSection title]).ops =
      [.beginSection "section" (some title), .endSection] := by
    rw [WasmGenerator.generate_ops, List.flatMap_singleton, titledSection,
      WasmGenerator.walkModule_genericSection]
    rfl
  have hkind : placedLength (Codec.utf8 "section") = 7 := by decide
  have htitle : placedLength (Codec.utf8 title) = (Codec.utf8 title).length := by
    simp only [placedLength, zero_lt_ofNat_iff h]
    split <;> omega
  have hpage : pageSize - jobIdBufferSize.toNat = 65408 := rfl
  rw [compileToWasm, dataInBounds_programToWasm_iff, Program.placedSize, hops, hpage]
  simp only [List.flatMap_cons, List.flatMap_nil, Opcode.literals, Option.getD_some,
    List.append_nil, List.map_cons, List.map_nil, List.sum_cons, List.sum_nil, hkind, htitle]
  omega

theorem length_utf8_replicate (n : ℕ) :
    (Codec.utf8 (String.ofList (List.replicate n 'a'))).length = n := by
  have hbyte : String.utf8EncodeChar 'a' = [0x61] := by decide
  rw [Codec.utf8_ofList]
  induction n with
  | zero => rfl
  | succ n ih =>
      rw [List.replicate_succ, List.flatMap_cons, hbyte, List.length_append, ih, add_comm]
      rfl

/-- A title that is as long as the page ends behind it. -/
theorem not_dataInBounds_page_title :
    ¬ (compileToWasm bareLibrary wholeLibrary
        [titledSection (String.ofList (List.replicate 65536 'a'))]).DataInBounds := by
  have hlength := length_utf8_replicate 65536
  rw [dataInBounds_titledSection (by omega)]
  omega

end Ccl

end Icn

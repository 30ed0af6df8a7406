import Icn.Foundation.Wasm.Memory
import Icn.Ccl.Emit

/-!
# Operands in memory

Every text and every payload of a program is found in memory under the pointer and
the length that the code pushes for it. The emitter puts each of them behind all
that it has placed before (`LaidOut`), so that no segment overlaps another, and
what is empty is not placed at all.

Lengths and offsets are words. They do not wrap as long as all the literal data of
the program together are less than `2 ^ 31` bytes long.
-/

open Foundation

namespace Icn

namespace Ccl

open Wasm

variable {F64 : Type} (lib : EmitLibrary)

def Opcode.literals : Opcode F64 → List (List UInt8)
  | .beginSection kind title => [Codec.utf8 kind, Codec.utf8 (title.getD "")]
  | .endSection => []
  | .createProposal title version => [Codec.utf8 title, Codec.utf8 (version.getD "0.0.0")]
  | .mintToken resType _ recipient data =>
      [Codec.utf8 resType, Codec.utf8 (recipient.getD ""), Codec.utf8 (data.getD "")]
  | .anchorData path dataRef => [Codec.utf8 (path.getD ""), Codec.utf8 dataRef]
  | .callHost fnName argsPayload => [Codec.utf8 fnName, Codec.utf8 argsPayload]
  | .ifOp condition => [Codec.utf8 condition]
  | .elseOp => []
  | .endIf => []
  | .setProperty key valueJson => [Codec.utf8 key, Codec.utf8 valueJson]
  | .todo message => [Codec.utf8 message]
  | .onEvent event => [Codec.utf8 event]
  | .rangeCheck _ _ => []
  | .useResource resourceType _ => [Codec.utf8 resourceType]
  | .transferToken tokenType _ sender recipient =>
      [Codec.utf8 tokenType, Codec.utf8 (sender.getD ""), Codec.utf8 recipient]
  | .submitJob wasmCid description inputDataCid _ requiredResourcesJson qosProfileJson
      maxAcceptableBidTokens deadlineUtcMs _ =>
      [paramsCbor lib wasmCid description inputDataCid requiredResourcesJson qosProfileJson
        maxAcceptableBidTokens deadlineUtcMs]

/-- What the pairs of an opcode point to: its literals and, for a job, the buffer for
its identifier. -/
def Opcode.operands (op : Opcode F64) : List (List UInt8) :=
  op.literals lib ++
    match op with
    | .submitJob .. => [List.replicate jobIdBufferSize.toNat 0]
    | _ => []

def Program.literalSize (prog : Program F64) : ℕ :=
  ((prog.ops.flatMap (Opcode.literals lib)).map List.length).sum

def jobIdSegment : DataSegment :=
  ⟨jobIdBufferOffset.toInt32, List.replicate jobIdBufferSize.toNat 0⟩

namespace Action

def literals : Action F64 → List (List UInt8)
  | push bytes => [bytes]
  | jobIdBuffer => []
  | instruction _ => []

def operands : Action F64 → List (List UInt8)
  | push bytes => [bytes]
  | jobIdBuffer => [List.replicate jobIdBufferSize.toNat 0]
  | instruction _ => []

def length (action : Action F64) : ℕ := (action.literals.map List.length).sum

/-- A single instruction is not half of a pair. -/
def Plain : Action F64 → Prop
  | push _ => True
  | jobIdBuffer => True
  | instruction instr => ∀ value, instr ≠ .i32Const value

end Action

theorem plain_of_mem_actions (op : Opcode F64) : ∀ action ∈ op.actions lib, action.Plain := by
  cases op <;> simp [Opcode.actions, Action.Plain]

theorem flatMap_literals_actions (op : Opcode F64) :
    (op.actions lib).flatMap Action.literals = op.literals lib := by
  cases op <;> rfl

theorem flatMap_operands_actions (op : Opcode F64) :
    (op.actions lib).flatMap Action.operands = op.operands lib := by
  cases op <;> rfl

/-- The pair has the length of the bytes and points to a segment with them, unless there
are none. -/
def Points (segments : List DataSegment) (pair : Int32 × Int32) (bytes : List UInt8) : Prop :=
  pair.2.toUInt32.toNat = bytes.length ∧
    (bytes = [] ∨ (⟨pair.1, bytes⟩ : DataSegment) ∈ segments)

/-- What has been emitted so far points to the operands, and the segments lie one
behind the other before the next free offset. -/
structure LaidOut (emitter : Emitter F64) (operands : List (List UInt8)) : Prop where
  points : List.Forall₂ (Points emitter.segments) (operandPairs emitter.body) operands
  paired : Paired emitter.body
  head : emitter.segments.head? = some jobIdSegment
  before : emitter.segments.Pairwise DataSegment.Before
  stop_le : ∀ segment ∈ emitter.segments, segment.stop ≤ emitter.nextDataOffset.toNat

theorem laidOut_new : LaidOut (Emitter.new : Emitter F64) [] where
  points := .nil
  paired := fun rest => by simp [Emitter.new, operandPairs]
  head := rfl
  before := List.pairwise_singleton _ _
  stop_le := by
    intro segment hsegment
    obtain rfl := List.mem_singleton.mp hsegment
    rw [DataSegment.stop, List.length_replicate]
    exact Nat.le_refl 128

theorem zero_lt_ofNat_iff {n : ℕ} (h : n < 2 ^ 31) : 0 < Int32.ofNat n ↔ 0 < n :=
  Int32.ofNat_lt_iff_lt (by decide) h

namespace Action

theorem placed_push {bytes : List UInt8} (h : bytes.length < 2 ^ 31) (nextDataOffset : UInt32) :
    (push bytes : Action F64).placed nextDataOffset =
      if bytes = [] then [] else [⟨nextDataOffset.toInt32, bytes⟩] := by
  rw [placed]
  simp only [zero_lt_ofNat_iff h, List.length_pos_iff, ite_not]

theorem toNat_size {action : Action F64} (h : action.length < 2 ^ 31) :
    action.size.toNat = action.length := by
  cases action with
  | jobIdBuffer => rfl
  | instruction instr => rfl
  | push bytes =>
      have hbytes : bytes.length < 2 ^ 31 := by simpa [length, literals] using h
      simp only [size, length, literals, List.map_cons, List.map_nil, List.sum_singleton]
      split
      · rw [Int32.toUInt32_ofNat', UInt32.toNat_ofNat', Nat.mod_eq_of_lt (by omega)]
      · next hneg =>
        rw [zero_lt_ofNat_iff hbytes] at hneg
        rw [UInt32.toNat_zero]
        omega

theorem paired_code {action : Action F64} (h : action.Plain) (nextDataOffset : UInt32) :
    Paired (action.code nextDataOffset) := by
  cases action with
  | push bytes => exact paired_pair _ _
  | jobIdBuffer => exact paired_pair _ _
  | instruction instr =>
      intro rest
      cases instr with
      | i32Const value => exact absurd rfl (h value)
      | _ => rfl

/-- The segment of an action lies between the next free offset and the one after it. -/
theorem address_of_mem_placed {action : Action F64} {nextDataOffset : UInt32}
    {segment : DataSegment} (h : segment ∈ action.placed nextDataOffset) :
    segment.address = nextDataOffset.toNat ∧ segment.bytes.length = action.length := by
  cases action with
  | jobIdBuffer => cases h
  | instruction instr => cases h
  | push bytes =>
      rw [placed] at h
      split at h
      · obtain rfl := List.mem_singleton.mp h
        exact ⟨rfl, by simp [length, literals]⟩
      · cases h

theorem pairwise_placed (action : Action F64) (nextDataOffset : UInt32) :
    (action.placed nextDataOffset).Pairwise DataSegment.Before := by
  cases action with
  | jobIdBuffer => exact .nil
  | instruction instr => exact .nil
  | push bytes =>
      rw [placed]
      split
      · exact List.pairwise_singleton _ _
      · exact .nil

theorem points_code {action : Action F64} (hplain : action.Plain) (h : action.length < 2 ^ 31)
    {segments : List DataSegment} (hbuffer : jobIdSegment ∈ segments) (nextDataOffset : UInt32) :
    List.Forall₂ (Points (segments ++ action.placed nextDataOffset))
      (operandPairs (action.code nextDataOffset)) action.operands := by
  cases action with
  | jobIdBuffer => exact .cons ⟨rfl, .inr (List.mem_append_left _ hbuffer)⟩ .nil
  | instruction instr =>
      cases instr with
      | i32Const value => exact absurd rfl (hplain value)
      | _ => exact .nil
  | push bytes =>
      have hbytes : bytes.length < 2 ^ 31 := by simpa [length, literals] using h
      refine .cons ⟨?_, ?_⟩ .nil
      · rw [Int32.toUInt32_ofNat', UInt32.toNat_ofNat', Nat.mod_eq_of_lt (by omega)]
      · rw [placed_push hbytes]
        by_cases hnil : bytes = []
        · exact .inl hnil
        · rw [if_neg hnil]
          exact .inr (List.mem_append_right _ List.mem_cons_self)

end Action

theorem toNat_nextDataOffset_perform {emitter : Emitter F64} {action : Action F64}
    (h : action.length < 2 ^ 31)
    (hfit : emitter.nextDataOffset.toNat + action.length < 2 ^ 32) :
    (emitter.perform action).nextDataOffset.toNat =
      emitter.nextDataOffset.toNat + action.length := by
  rw [Emitter.perform, UInt32.toNat_add, Action.toNat_size h, Nat.mod_eq_of_lt hfit]

theorem LaidOut.perform {emitter : Emitter F64} {operands : List (List UInt8)}
    (h : LaidOut emitter operands) {action : Action F64} (hplain : action.Plain)
    (hlength : action.length < 2 ^ 31)
    (hfit : emitter.nextDataOffset.toNat + action.length < 2 ^ 32) :
    LaidOut (emitter.perform action) (operands ++ action.operands) where
  points := by
    have hbuffer : jobIdSegment ∈ emitter.segments := List.mem_of_mem_head? h.head
    rw [Emitter.perform, h.paired]
    refine List.rel_append (h.points.imp ?_) (Action.points_code hplain hlength hbuffer _)
    rintro pair bytes ⟨hpair, hbytes⟩
    exact ⟨hpair, hbytes.imp_right fun hmem => List.mem_append_left _ hmem⟩
  paired := h.paired.append (Action.paired_code hplain _)
  head := by
    rw [Emitter.perform, List.head?_append, h.head, Option.some_or]
  before := by
    refine List.pairwise_append.mpr ⟨h.before, action.pairwise_placed _, ?_⟩
    intro segment hsegment segment' hsegment'
    rw [DataSegment.Before, (Action.address_of_mem_placed hsegment').1]
    exact h.stop_le segment hsegment
  stop_le := by
    intro segment hsegment
    rw [toNat_nextDataOffset_perform hlength hfit]
    rcases List.mem_append.mp hsegment with hsegment | hsegment
    · exact (h.stop_le segment hsegment).trans (Nat.le_add_right _ _)
    · obtain ⟨haddress, hbytes⟩ := Action.address_of_mem_placed hsegment
      rw [DataSegment.stop, haddress, hbytes]

theorem LaidOut.foldl_perform {emitter : Emitter F64} {operands : List (List UInt8)}
    (h : LaidOut emitter operands) {actions : List (Action F64)}
    (hplain : ∀ action ∈ actions, action.Plain)
    (hlength : (actions.map Action.length).sum < 2 ^ 31)
    (hfit : emitter.nextDataOffset.toNat + (actions.map Action.length).sum < 2 ^ 32) :
    LaidOut (actions.foldl Emitter.perform emitter)
      (operands ++ actions.flatMap Action.operands) := by
  induction actions generalizing emitter operands with
  | nil =>
      rw [List.flatMap_nil, List.append_nil]
      exact h
  | cons action actions ih =>
      rw [List.map_cons, List.sum_cons] at hlength hfit
      have hoffset : (emitter.perform action).nextDataOffset.toNat =
          emitter.nextDataOffset.toNat + action.length :=
        toNat_nextDataOffset_perform (by omega) (by omega)
      have hnext := h.perform (hplain action List.mem_cons_self) (by omega) (by omega)
      rw [List.flatMap_cons, ← List.append_assoc]
      exact ih hnext (fun other hother => hplain other (List.mem_cons_of_mem action hother))
        (by omega) (by omega)

theorem LaidOut.map_pointed {emitter : Emitter F64} {operands : List (List UInt8)}
    (h : LaidOut emitter operands) :
    (operandPairs emitter.body).map (Memory.initialise emitter.segments).pointed = operands := by
  have hdisjoint : emitter.segments.Pairwise DataSegment.Disjoint := h.before.imp Or.inl
  have hpoint : ∀ pair bytes, Points emitter.segments pair bytes →
      (Memory.initialise emitter.segments).pointed pair = bytes := by
    rintro ⟨pointer, length⟩ bytes ⟨hlength, hbytes⟩
    rw [Memory.pointed, hlength]
    rcases hbytes with rfl | hmem
    · rfl
    · exact Memory.read_initialise hdisjoint hmem
  have hall : List.Forall₂ (· = ·)
      ((operandPairs emitter.body).map (Memory.initialise emitter.segments).pointed) operands :=
    List.forall₂_map_left_iff.mpr (h.points.imp hpoint)
  rwa [List.forall₂_eq_eq_eq] at hall

theorem sum_map_length (actions : List (Action F64)) :
    (actions.map Action.length).sum =
      ((actions.flatMap Action.literals).map List.length).sum := by
  induction actions with
  | nil => rfl
  | cons action actions ih =>
      rw [List.map_cons, List.sum_cons, ih, List.flatMap_cons, List.map_append, List.sum_append,
        Action.length]

theorem laidOut_emitOps (prog : Program F64) (h : prog.literalSize lib < 2 ^ 31) :
    LaidOut (emitOps lib Emitter.new prog.ops) (prog.ops.flatMap (Opcode.operands lib)) := by
  have hplain : ∀ action ∈ prog.ops.flatMap (Opcode.actions lib), action.Plain := by
    intro action haction
    obtain ⟨op, -, hop⟩ := List.mem_flatMap.mp haction
    exact plain_of_mem_actions lib op action hop
  have hsize : ((prog.ops.flatMap (Opcode.actions lib)).map Action.length).sum =
      prog.literalSize lib := by
    rw [sum_map_length, List.flatMap_assoc, Program.literalSize]
    simp only [flatMap_literals_actions]
  have hoperands : (prog.ops.flatMap (Opcode.actions lib)).flatMap Action.operands =
      prog.ops.flatMap (Opcode.operands lib) := by
    rw [List.flatMap_assoc]
    simp only [flatMap_operands_actions]
  have hnew : (Emitter.new : Emitter F64).nextDataOffset.toNat = 128 := rfl
  have hlaid := laidOut_new.foldl_perform hplain (by omega) (by omega)
  rw [List.nil_append, hoperands] at hlaid
  rw [emitOps_eq_foldl]
  exact hlaid

/-- In memory every pair that the code pushes points to its operand, and no segment
overlaps another one or the buffer for job identifiers. -/
theorem operands_in_memory (prog : Program F64) (h : prog.literalSize lib < 2 ^ 31) :
    ((programToWasm lib prog).code.flatMap fun function => operandPairs function.body).map
        (Memory.initialise (programToWasm lib prog).data).pointed =
      prog.ops.flatMap (Opcode.operands lib) ∧
    ∃ segments, (programToWasm lib prog).data = jobIdSegment :: segments ∧
      segments.Pairwise DataSegment.Disjoint ∧
      ∀ segment ∈ segments, jobIdBufferSize.toNat ≤ segment.address := by
  have hlaid := laidOut_emitOps lib prog h
  rw [data_programToWasm, code_programToWasm]
  constructor
  · rw [List.flatMap_singleton, body_mainFunction, hlaid.paired]
    simpa [operandPairs] using hlaid.map_pointed
  · obtain ⟨segments, hsegments⟩ := List.head?_eq_some_iff.mp hlaid.head
    have hbefore := hlaid.before
    rw [hsegments] at hbefore
    obtain ⟨hhead, hrest⟩ := List.pairwise_cons.mp hbefore
    refine ⟨segments, hsegments, hrest.imp Or.inl, fun segment hsegment => ?_⟩
    have hstop : jobIdSegment.stop = jobIdBufferSize.toNat := by
      rw [DataSegment.stop, jobIdSegment, List.length_replicate]
      rfl
    rw [← hstop]
    exact hhead segment hsegment

theorem operands_in_memory_reportingProgram :
    ((programToWasm bareLibrary reportingProgram).code.flatMap fun function =>
        operandPairs function.body).map
        (Memory.initialise (programToWasm bareLibrary reportingProgram).data).pointed =
      [Codec.utf8 "reporting", [], Codec.utf8 "frequency", Codec.utf8 "\"monthly\"",
        paramsCbor bareLibrary "bafy2bzacereport" (some "monthly report") none none none
          (some 100) none,
        List.replicate 128 0] :=
  (operands_in_memory bareLibrary reportingProgram (by decide +kernel)).1

end Ccl

end Icn

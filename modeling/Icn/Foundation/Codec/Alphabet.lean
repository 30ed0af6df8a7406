import Mathlib.Data.List.GetD
import Mathlib.Data.List.Nodup

/-!
# Digits in an alphabet

A list of distinct characters names the numbers below its length. A list of such
numbers is written with it character by character, and read back.
-/

namespace Foundation

namespace Codec

variable {α : Type*} [BEq α] [LawfulBEq α]

theorem map_idxOf_map_getD {alphabet : List α} (hnodup : alphabet.Nodup) (other : α)
    {digits : List ℕ} (h : ∀ d ∈ digits, d < alphabet.length) :
    (digits.map fun d => alphabet.getD d other).map alphabet.idxOf = digits := by
  rw [List.map_map]
  refine (List.map_congr_left ?_).trans (List.map_id digits)
  intro d hd
  rw [Function.comp_apply, List.getD_eq_getElem _ _ (h d hd)]
  exact hnodup.idxOf_getElem d (h d hd)

theorem map_getD_map_idxOf {alphabet : List α} (other : α) {text : List α}
    (h : ∀ c ∈ text, c ∈ alphabet) :
    (text.map alphabet.idxOf).map (fun d => alphabet.getD d other) = text := by
  rw [List.map_map]
  refine (List.map_congr_left ?_).trans (List.map_id text)
  intro c hc
  have hlt := List.idxOf_lt_length_of_mem (h c hc)
  rw [Function.comp_apply, List.getD_eq_getElem _ _ hlt]
  exact List.getElem_idxOf hlt

omit [BEq α] [LawfulBEq α] in
theorem mem_of_mem_map_getD {alphabet : List α} {other : α} {digits : List ℕ}
    (h : ∀ d ∈ digits, d < alphabet.length) {c : α}
    (hc : c ∈ digits.map fun d => alphabet.getD d other) : c ∈ alphabet := by
  obtain ⟨d, hd, rfl⟩ := List.mem_map.mp hc
  rw [List.getD_eq_getElem _ _ (h d hd)]
  exact List.getElem_mem (h d hd)

theorem lt_length_of_mem_map_idxOf {alphabet text : List α} (h : ∀ c ∈ text, c ∈ alphabet)
    {d : ℕ} (hd : d ∈ text.map alphabet.idxOf) : d < alphabet.length := by
  obtain ⟨c, hc, rfl⟩ := List.mem_map.mp hd
  exact List.idxOf_lt_length_of_mem (h c hc)

end Codec

end Foundation

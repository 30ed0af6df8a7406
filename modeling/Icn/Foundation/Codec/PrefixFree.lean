import Mathlib.Logic.Function.Basic
import Mathlib.Data.List.Basic

/-!
# Prefix-free codes

A code writes each value as a word over an alphabet. It is prefix free when a
value can be told from its word whatever follows the word, so that words may be
written one after another and still be read back. Concatenations of prefix-free
codes are prefix free, and a list written with one is determined by its text
together with its length or a word that closes it.
-/

namespace Foundation

namespace Codec

variable {α β γ : Type*}

/-- The word of a value determines the value, whatever is written after it. -/
def PrefixFree (code : α → List β) : Prop :=
  ∀ ⦃a b : α⦄ ⦃rest rest' : List β⦄, code a ++ rest = code b ++ rest' → a = b

theorem prefixFree_of_read {code : α → List β} (read : List β → Option α)
    (h : ∀ a rest, read (code a ++ rest) = some a) : PrefixFree code := by
  intro a b rest rest' heq
  have hread : some a = some b := by
    rw [← h a rest, ← h b rest', heq]
  exact Option.some.inj hread

namespace PrefixFree

variable {code : α → List β}

/-- The value and what follows its word, both read off the text. -/
theorem append_inj (hcode : PrefixFree code) {a b : α} {rest rest' : List β} :
    code a ++ rest = code b ++ rest' ↔ a = b ∧ rest = rest' := by
  constructor
  · intro heq
    obtain rfl := hcode heq
    exact ⟨rfl, List.append_cancel_left heq⟩
  · rintro ⟨rfl, rfl⟩
    rfl

theorem comp (hcode : PrefixFree code) {f : γ → α} (hf : Function.Injective f) :
    PrefixFree (code ∘ f) := by
  intro a b rest rest' heq
  exact hf (hcode heq)

theorem prod (hcode : PrefixFree code) {code' : γ → List β} (hcode' : PrefixFree code') :
    PrefixFree fun p : α × γ => code p.1 ++ code' p.2 := by
  rintro ⟨a, c⟩ ⟨a', c'⟩ rest rest' heq
  simp only [List.append_assoc] at heq
  obtain ⟨rfl, htail⟩ := hcode.append_inj.mp heq
  obtain rfl := hcode' htail
  rfl

/-- Two lists of the same length written item by item. -/
theorem flatMap_inj (hcode : PrefixFree code) {l l' : List α} {rest rest' : List β}
    (hlength : l.length = l'.length) :
    l.flatMap code ++ rest = l'.flatMap code ++ rest' ↔ l = l' ∧ rest = rest' := by
  induction l generalizing l' with
  | nil =>
      rw [List.eq_nil_of_length_eq_zero hlength.symm]
      simp
  | cons a l ih =>
      cases l' with
      | nil => cases hlength
      | cons a' l' =>
          rw [List.flatMap_cons, List.flatMap_cons, List.append_assoc, List.append_assoc,
            hcode.append_inj, ih (Nat.succ.inj hlength), List.cons.injEq, and_assoc]

/-- Two lists written item by item and closed by a word that begins no item. -/
theorem flatMap_append_inj (hcode : PrefixFree code) {stop : List β}
    (hstop : ∀ a rest rest', code a ++ rest ≠ stop ++ rest') {l l' : List α}
    {rest rest' : List β} :
    l.flatMap code ++ (stop ++ rest) = l'.flatMap code ++ (stop ++ rest') ↔
      l = l' ∧ rest = rest' := by
  induction l generalizing l' with
  | nil =>
      cases l' with
      | nil => simp
      | cons a' l' =>
          rw [List.flatMap_cons, List.append_assoc]
          simp [(hstop a' _ rest).symm]
  | cons a l ih =>
      cases l' with
      | nil =>
          rw [List.flatMap_cons, List.append_assoc]
          simp [hstop a _ rest']
      | cons a' l' =>
          rw [List.flatMap_cons, List.flatMap_cons, List.append_assoc, List.append_assoc,
            hcode.append_inj, ih, List.cons.injEq, and_assoc]

end PrefixFree

end Codec

end Foundation

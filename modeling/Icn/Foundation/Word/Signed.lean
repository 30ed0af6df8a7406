import Icn.Foundation.Word.Machine
import Mathlib.Algebra.Order.BigOperators.Group.List
import Mathlib.Algebra.Order.Ring.Nat

/-!
# Signed words as lengths

A length may arrive as a signed word and be meant as an unsigned one. Sums of such lengths
are formed as signed words, and widening keeps the sign. So the number that is added to a
counter is the total of the lengths only if the total is below the half of the words
(`add_sum_lengths_iff`).

An unsigned word that is cast to a signed one and negated is its negative only up to the
half of the words (`negInt64_iff`).
-/

namespace Foundation

def lengthOf (word : Int32) : ℕ := word.toUInt32.toNat

theorem lengthOf_lt (word : Int32) : lengthOf word < 2 ^ 32 := word.toUInt32.toNat_lt

theorem lengthOf_add (a b : Int32) : lengthOf (a + b) = (lengthOf a + lengthOf b) % 2 ^ 32 := by
  rw [lengthOf, Int32.toUInt32_add, UInt32.toNat_add]
  rfl

theorem toInt_eq_lengthOf (word : Int32) :
    word.toInt = if 2 * lengthOf word < 2 ^ 32 then (lengthOf word : ℤ)
      else lengthOf word - 2 ^ 32 :=
  BitVec.toInt_eq_toNat_cond word.toBitVec

theorem toNat_widened (word : Int32) :
    word.toInt64.toUInt64.toNat =
      if lengthOf word < 2 ^ 31 then lengthOf word else lengthOf word + (2 ^ 64 - 2 ^ 32) := by
  have hwide : word.toInt64.toInt =
      if 2 * word.toInt64.toUInt64.toNat < 2 ^ 64 then (word.toInt64.toUInt64.toNat : ℤ)
      else word.toInt64.toUInt64.toNat - 2 ^ 64 :=
    BitVec.toInt_eq_toNat_cond word.toInt64.toBitVec
  have hword := toInt_eq_lengthOf word
  have hlt := lengthOf_lt word
  have hlt' := word.toInt64.toUInt64.toNat_lt
  rw [Int32.toInt_toInt64] at hwide
  split at hwide <;> split at hword <;> split <;> omega

namespace Overflow

variable (mode : Overflow)

def sumInt32 : List Int32 → Option Int32
  | [] => some 0
  | word :: words => words.foldlM mode.addInt32 word

theorem addInt32_of_lt {a b : Int32} (h : lengthOf a + lengthOf b < 2 ^ 31) :
    mode.addInt32 a b = some (a + b) := by
  have ha := toInt_eq_lengthOf a
  have hb := toInt_eq_lengthOf b
  rw [if_pos (by omega)] at ha hb
  exact if_pos (by omega)

variable {mode}

theorem lengthOf_foldlM {word sum : Int32} {words : List Int32}
    (h : words.foldlM mode.addInt32 word = some sum) :
    lengthOf sum = (lengthOf word + (words.map lengthOf).sum) % 2 ^ 32 := by
  induction words generalizing word with
  | nil =>
      obtain rfl : word = sum := Option.some.inj h
      rw [List.map_nil, List.sum_nil, add_zero, Nat.mod_eq_of_lt (lengthOf_lt word)]
  | cons next words ih =>
      rw [List.foldlM_cons] at h
      obtain ⟨part, hpart, h⟩ := Option.bind_eq_some_iff.mp h
      rw [ih h, eq_add_of_addInt32_eq_some hpart, lengthOf_add, List.map_cons, List.sum_cons,
        Nat.mod_add_mod, add_assoc]

theorem foldlM_of_lt {word : Int32} {words : List Int32}
    (h : lengthOf word + (words.map lengthOf).sum < 2 ^ 31) :
    ∃ sum, words.foldlM mode.addInt32 word = some sum := by
  induction words generalizing word with
  | nil => exact ⟨word, rfl⟩
  | cons next words ih =>
      rw [List.map_cons, List.sum_cons] at h
      have hpart : lengthOf (word + next) = lengthOf word + lengthOf next := by
        rw [lengthOf_add, Nat.mod_eq_of_lt (by omega)]
      obtain ⟨sum, hsum⟩ := ih (by rw [hpart, add_assoc]; exact h)
      refine ⟨sum, ?_⟩
      rw [List.foldlM_cons, addInt32_of_lt mode (by omega)]
      exact hsum

theorem lengthOf_sumInt32 {words : List Int32} {sum : Int32} (h : mode.sumInt32 words = some sum) :
    lengthOf sum = (words.map lengthOf).sum % 2 ^ 32 := by
  cases words with
  | nil =>
      obtain rfl : 0 = sum := Option.some.inj h
      rfl
  | cons word words => exact lengthOf_foldlM h

theorem sumInt32_of_lt (mode : Overflow) {words : List Int32}
    (h : (words.map lengthOf).sum < 2 ^ 31) :
    ∃ sum, mode.sumInt32 words = some sum := by
  cases words with
  | nil => exact ⟨0, rfl⟩
  | cons word words => exact foldlM_of_lt h

variable (mode)

/-- Adding the sum of some lengths to a counter adds their total exactly if the total is
below the half of the signed words and there is room for it in the counter. -/
theorem add_sum_lengths_iff (counter : UInt64) {words : List Int32} (hfew : words.length ≤ 4) :
    (∃ sum counter', mode.sumInt32 words = some sum ∧
        mode.add counter sum.toInt64.toUInt64 = some counter' ∧
        counter'.toNat = counter.toNat + (words.map lengthOf).sum) ↔
      (words.map lengthOf).sum < 2 ^ 31 ∧ counter.toNat + (words.map lengthOf).sum < 2 ^ 64 := by
  have htotal : (words.map lengthOf).sum ≤ words.length * 2 ^ 32 := by
    rw [← List.length_map lengthOf]
    refine List.sum_le_card_nsmul _ _ fun length hlength => ?_
    obtain ⟨word, -, rfl⟩ := List.mem_map.mp hlength
    exact (lengthOf_lt word).le
  generalize htot : (words.map lengthOf).sum = total at *
  constructor
  · rintro ⟨sum, counter', hsum, hadd, hexact⟩
    have hlow := lengthOf_sumInt32 hsum
    have hwide := toNat_widened sum
    have hcounter' := counter'.toNat_lt
    rw [eq_add_of_add_eq_some hadd, UInt64.toNat_add] at hexact
    split at hwide <;> omega
  · rintro ⟨hhalf, hroom⟩
    obtain ⟨sum, hsum⟩ := mode.sumInt32_of_lt (htot ▸ hhalf)
    have hlow := lengthOf_sumInt32 hsum
    have hwide := toNat_widened sum
    rw [htot, Nat.mod_eq_of_lt (by omega)] at hlow
    rw [if_pos (by omega), hlow] at hwide
    rw [← hwide] at hroom ⊢
    exact ⟨sum, _, hsum, add_eq_some_of_lt mode hroom, Word.toNat_add_of_lt hroom⟩

/-- Negation of a signed word; `none` is the stopped program. -/
def negInt64 (a : Int64) : Option Int64 :=
  if a.toInt = -2 ^ 63 then
    match mode with
    | stop => none
    | wrap => some (-a)
  else some (-a)

/-- The unsigned words that have a negative: the half of the words is its own negative,
where the negation does not stop. -/
def HasNegative (n : ℕ) : Prop :=
  match mode with
  | stop => n < 2 ^ 63
  | wrap => n ≤ 2 ^ 63

theorem HasNegative.le {mode : Overflow} {n : ℕ} (h : mode.HasNegative n) : n ≤ 2 ^ 63 := by
  cases mode with
  | stop => exact Nat.le_of_lt h
  | wrap => exact h

theorem toInt_toInt64 (word : UInt64) :
    word.toInt64.toInt = if 2 * word.toNat < 2 ^ 64 then (word.toNat : ℤ)
      else word.toNat - 2 ^ 64 :=
  BitVec.toInt_eq_toNat_cond word.toBitVec

theorem negInt64_iff (word : UInt64) :
    (∃ negative, mode.negInt64 word.toInt64 = some negative ∧
      negative.toInt = -(word.toNat : ℤ)) ↔ mode.HasNegative word.toNat := by
  have hword := toInt_toInt64 word
  have hlt := word.toNat_lt
  have hneg : (-word.toInt64).toInt = (-word.toInt64.toInt).bmod (2 ^ 64) := Int64.toInt_neg _
  by_cases hmin : word.toInt64.toInt = -2 ^ 63
  · have hhalf : word.toNat = 2 ^ 63 := by
      split at hword <;> omega
    unfold negInt64
    rw [if_pos hmin]
    cases mode with
    | stop => exact iff_of_false (by simp) (by simp [HasNegative, hhalf])
    | wrap =>
        refine iff_of_true ⟨_, rfl, ?_⟩ hhalf.le
        rw [hneg, hmin, hhalf]
        rfl
  · unfold negInt64
    rw [if_neg hmin]
    have hbmod : (-word.toInt64.toInt).bmod (2 ^ 64) = -word.toInt64.toInt := by
      apply Int.bmod_eq_of_le <;> split at hword <;> omega
    have hfits : mode.HasNegative word.toNat ↔ word.toNat < 2 ^ 63 := by
      cases mode with
      | stop => rfl
      | wrap =>
          rw [HasNegative]
          split at hword <;> omega
    rw [hfits]
    constructor
    · rintro ⟨negative, hnegative, hvalue⟩
      rw [← Option.some.inj hnegative, hneg, hbmod] at hvalue
      split at hword <;> omega
    · intro hlow
      refine ⟨_, rfl, ?_⟩
      rw [hneg, hbmod]
      split at hword <;> omega

end Overflow

end Foundation

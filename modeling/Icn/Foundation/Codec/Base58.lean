import Icn.Foundation.Codec.Alphabet
import Mathlib.Data.Nat.Digits.Lemmas

/-!
# Texts to the base 58

A list of digits, the most significant first, is a number together with a count of
leading zeros. `rebase` keeps both and writes the number to another base, so it is
undone by going back (`rebase_rebase`).

A byte string is such a list to the base 256. The texts to the base 58 are its digits
in an alphabet, and every text over the alphabet is the text of exactly one byte string.
-/

namespace Foundation

namespace Codec

/-- The digits to the base `c` of what is written to the base `b`, behind as many
zeros. -/
def rebase (b c : ℕ) (l : List ℕ) : List ℕ :=
  List.replicate (l.takeWhile (· = 0)).length 0 ++
    (Nat.digits c (Nat.ofDigits b l.reverse)).reverse

theorem exists_eq_replicate_append (l : List ℕ) :
    ∃ zeros m, l = List.replicate zeros 0 ++ m ∧ m.head? ≠ some 0 := by
  induction l with
  | nil => exact ⟨0, [], rfl, by simp⟩
  | cons d l ih =>
      obtain ⟨zeros, m, rfl, hm⟩ := ih
      by_cases hd : d = 0
      · subst hd
        exact ⟨zeros + 1, m, rfl, hm⟩
      · exact ⟨0, _, rfl, by simpa using hd⟩

theorem takeWhile_replicate_append {zeros : ℕ} {m : List ℕ} (hm : m.head? ≠ some 0) :
    (List.replicate zeros 0 ++ m).takeWhile (· = 0) = List.replicate zeros 0 := by
  induction zeros with
  | zero =>
      cases m with
      | nil => rfl
      | cons d m => exact List.takeWhile_cons_of_neg (by simpa using hm)
  | succ zeros ih =>
      rw [List.replicate_succ, List.cons_append, List.takeWhile_cons_of_pos (by simp), ih]

theorem rebase_replicate_append (b c : ℕ) {zeros : ℕ} {m : List ℕ} (hm : m.head? ≠ some 0) :
    rebase b c (List.replicate zeros 0 ++ m) =
      List.replicate zeros 0 ++ (Nat.digits c (Nat.ofDigits b m.reverse)).reverse := by
  rw [rebase, takeWhile_replicate_append hm, List.length_replicate, List.reverse_append,
    List.reverse_replicate, Nat.ofDigits_append_replicate_zero]

theorem head?_reverse_digits (c n : ℕ) : (Nat.digits c n).reverse.head? ≠ some 0 := by
  intro hzero
  rw [List.head?_reverse, List.getLast?_eq_some_iff] at hzero
  obtain ⟨digits, hdigits⟩ := hzero
  have hn : n ≠ 0 := by
    rintro rfl
    simp at hdigits
  have hlast := Nat.getLast_digit_ne_zero c hn
  simp [hdigits] at hlast

/-- Digits are found again when one goes back. -/
theorem rebase_rebase {b c : ℕ} (hb : 1 < b) {l : List ℕ} (hl : ∀ d ∈ l, d < b) :
    rebase c b (rebase b c l) = l := by
  obtain ⟨zeros, m, rfl, hm⟩ := exists_eq_replicate_append l
  have hdigits : Nat.digits b (Nat.ofDigits b m.reverse) = m.reverse := by
    refine Nat.digits_ofDigits b hb _ ?_ ?_
    · intro d hd
      exact hl d (List.mem_append_right _ (List.mem_reverse.mp hd))
    · intro hne hlast
      rw [List.getLast_reverse] at hlast
      exact hm (hlast ▸ List.head?_eq_some_head (by simpa using hne))
  rw [rebase_replicate_append b c hm, rebase_replicate_append c b (head?_reverse_digits c _),
    List.reverse_reverse, Nat.ofDigits_digits, hdigits, List.reverse_reverse]

theorem lt_of_mem_rebase (b : ℕ) {c : ℕ} (hc : 1 < c) {l : List ℕ} {d : ℕ}
    (h : d ∈ rebase b c l) : d < c := by
  rcases List.mem_append.mp h with h | h
  · rw [List.eq_of_mem_replicate h]
    omega
  · exact Nat.digits_lt_base hc (List.mem_reverse.mp h)

/-- The digits to the base 58. Zero, the letter O, the capital I and the small l are
left out. -/
def base58Alphabet : List Char :=
  "123456789ABCDEFGHJKLMNPQRSTUVWXYZabcdefghijkmnopqrstuvwxyz".toList

def base58Encode (bytes : List UInt8) : List Char :=
  (rebase 256 58 (bytes.map UInt8.toNat)).map fun d => base58Alphabet.getD d '1'

def base58Decode (text : List Char) : Option (List UInt8) :=
  if text.all fun c => c ∈ base58Alphabet then
    some ((rebase 58 256 (text.map base58Alphabet.idxOf)).map UInt8.ofNat)
  else none

theorem length_base58Alphabet : base58Alphabet.length = 58 := by decide

theorem nodup_base58Alphabet : base58Alphabet.Nodup := by decide

theorem lt_of_mem_rebase_58 (bytes : List UInt8) :
    ∀ d ∈ rebase 256 58 (bytes.map UInt8.toNat), d < base58Alphabet.length := by
  intro d hd
  rw [length_base58Alphabet]
  exact lt_of_mem_rebase 256 (by decide) hd

theorem mem_base58Alphabet_of_mem {bytes : List UInt8} {c : Char} (h : c ∈ base58Encode bytes) :
    c ∈ base58Alphabet :=
  mem_of_mem_map_getD (lt_of_mem_rebase_58 bytes) h

theorem base58Decode_base58Encode (bytes : List UInt8) :
    base58Decode (base58Encode bytes) = some bytes := by
  have hbytes : ∀ d ∈ bytes.map UInt8.toNat, d < 256 := by
    intro d hd
    obtain ⟨byte, -, rfl⟩ := List.mem_map.mp hd
    exact byte.toNat_lt
  have hmem : (base58Encode bytes).all fun c => c ∈ base58Alphabet :=
    List.all_eq_true.mpr fun c hc => decide_eq_true (mem_base58Alphabet_of_mem hc)
  rw [base58Decode, if_pos hmem, base58Encode,
    map_idxOf_map_getD nodup_base58Alphabet _ (lt_of_mem_rebase_58 bytes),
    rebase_rebase (by decide) hbytes, List.map_map]
  exact congrArg some ((List.map_congr_left fun byte _ => UInt8.ofNat_toNat).trans (List.map_id _))

theorem base58Encode_of_base58Decode {text : List Char} {bytes : List UInt8}
    (h : base58Decode text = some bytes) : base58Encode bytes = text := by
  rw [base58Decode] at h
  split at h
  · next hall =>
    obtain rfl := Option.some.inj h
    have htext : ∀ c ∈ text, c ∈ base58Alphabet := fun c hc =>
      of_decide_eq_true (List.all_eq_true.mp hall c hc)
    have hdigits : ∀ d ∈ text.map base58Alphabet.idxOf, d < 58 := by
      intro d hd
      rw [← length_base58Alphabet]
      exact lt_length_of_mem_map_idxOf htext hd
    have hbytes : ((rebase 58 256 (text.map base58Alphabet.idxOf)).map UInt8.ofNat).map
        UInt8.toNat = rebase 58 256 (text.map base58Alphabet.idxOf) := by
      rw [List.map_map]
      refine (List.map_congr_left fun d hd => ?_).trans (List.map_id _)
      exact UInt8.toNat_ofNat_of_lt' (lt_of_mem_rebase 58 (by decide) hd)
    rw [base58Encode, hbytes, rebase_rebase (by decide) hdigits,
      map_getD_map_idxOf _ htext]
  · cases h

end Codec

end Foundation

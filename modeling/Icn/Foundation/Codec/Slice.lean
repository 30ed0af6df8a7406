import Mathlib.Data.Nat.Notation
import Mathlib.Data.List.Basic
import Mathlib.Algebra.Order.Group.Nat

/-!
# Slices of texts by bytes

A text may be cut at a byte, but only between two characters of it.
-/

namespace Foundation

namespace Codec

def byteLength : List Char → ℕ
  | [] => 0
  | c :: text => c.utf8Size + byteLength text

def sliceFrom : ℕ → List Char → Option (List Char)
  | 0, text => some text
  | _ + 1, [] => none
  | n + 1, c :: text =>
      if c.utf8Size ≤ n + 1 then sliceFrom (n + 1 - c.utf8Size) text else none

@[simp] theorem byteLength_nil : byteLength [] = 0 := rfl

@[simp] theorem byteLength_cons (c : Char) (text : List Char) :
    byteLength (c :: text) = c.utf8Size + byteLength text := rfl

@[simp] theorem sliceFrom_zero (text : List Char) : sliceFrom 0 text = some text := by
  cases text <;> rfl

theorem sliceFrom_cons (n : ℕ) (c : Char) (text : List Char) :
    sliceFrom (c.utf8Size + n) (c :: text) = sliceFrom n text := by
  obtain ⟨size, hsize⟩ : ∃ size, c.utf8Size = size + 1 :=
    Nat.exists_eq_succ_of_ne_zero c.utf8Size_pos.ne'
  rw [hsize, Nat.add_right_comm, sliceFrom, hsize, if_pos (by omega)]
  congr 1
  omega

theorem sliceFrom_append (n : ℕ) :
    ∀ front rest : List Char, sliceFrom (byteLength front + n) (front ++ rest) = sliceFrom n rest
  | [], rest => by simp
  | c :: front, rest => by
      rw [byteLength_cons, List.cons_append, Nat.add_assoc, sliceFrom_cons,
        sliceFrom_append n front rest]

theorem sliceFrom_eq_some_iff {n : ℕ} {text rest : List Char} :
    sliceFrom n text = some rest ↔ ∃ front, text = front ++ rest ∧ byteLength front = n := by
  constructor
  · intro h
    induction text generalizing n with
    | nil =>
        cases n with
        | zero => exact ⟨[], by simpa using h, rfl⟩
        | succ n => cases h
    | cons c text ih =>
        cases n with
        | zero => exact ⟨[], by simpa using h, rfl⟩
        | succ n =>
            rw [sliceFrom, Option.ite_none_right_eq_some] at h
            obtain ⟨front, rfl, hfront⟩ := ih h.2
            exact ⟨c :: front, rfl, by rw [byteLength_cons]; omega⟩
  · rintro ⟨front, rfl, rfl⟩
    rw [← Nat.add_zero (byteLength front), sliceFrom_append, sliceFrom_zero]

theorem sliceFrom_one_eq_some_iff {text rest : List Char} :
    sliceFrom 1 text = some rest ↔ ∃ c, c.utf8Size = 1 ∧ text = c :: rest := by
  rw [sliceFrom_eq_some_iff]
  constructor
  · rintro ⟨front, rfl, hlength⟩
    cases front with
    | nil => cases hlength
    | cons c front =>
        have hc := c.utf8Size_pos
        rw [byteLength_cons] at hlength
        cases front with
        | nil => exact ⟨c, by simpa using hlength, rfl⟩
        | cons c' front =>
            have hc' := c'.utf8Size_pos
            rw [byteLength_cons] at hlength
            omega
  · rintro ⟨c, hc, rfl⟩
    exact ⟨[c], rfl, by simpa using hc⟩

end Codec

end Foundation

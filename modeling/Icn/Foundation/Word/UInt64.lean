import Mathlib.Data.UInt
import Mathlib.Algebra.BigOperators.Group.Multiset.Basic

/-!
# Sixty-four bit words read as natural numbers

Word arithmetic wraps, as the arithmetic of an optimised build does. Every
lemma here reads one word operation in `ℕ`: exactly, under the bound that keeps
it from wrapping, or as an inequality that holds in any case. The statements
about whole ledgers are made in `ℕ`, where sums do not wrap.

Code whose behaviour past the end of the word matters takes the build as an
argument: `Overflow.stop` ends the program there, `Overflow.wrap` goes on with
the wrapped word.
-/

namespace Foundation

namespace Word

theorem bmod_emod_of_lt {n w : ℕ} (h : n < w) : Int.bmod n w % w = n := by
  rw [Int.bmod_emod, ← Int.natCast_emod, Nat.mod_eq_of_lt h]

theorem toNat_min (a b : UInt64) : (min a b).toNat = min a.toNat b.toNat := by
  by_cases h : a ≤ b
  · rw [show min a b = a from if_pos h, min_eq_left (UInt64.le_iff_toNat_le.mp h)]
  · have hlt : b.toNat < a.toNat := by
      rw [UInt64.le_iff_toNat_le] at h
      omega
    rw [show min a b = b from if_neg h, min_eq_right hlt.le]

theorem min_eq_zero_iff (a b : UInt64) : min a b = 0 ↔ a = 0 ∨ b = 0 := by
  rw [← UInt64.toNat_inj, ← UInt64.toNat_inj, ← UInt64.toNat_inj, toNat_min, UInt64.toNat_zero]
  omega

theorem toNat_add_of_lt {a b : UInt64} (h : a.toNat + b.toNat < 2 ^ 64) :
    (a + b).toNat = a.toNat + b.toNat := by
  rw [UInt64.toNat_add, Nat.mod_eq_of_lt h]

theorem toNat_add_le (a b : UInt64) : (a + b).toNat ≤ a.toNat + b.toNat := by
  rw [UInt64.toNat_add]
  exact Nat.mod_le _ _

/-- Subtraction that stops at zero. -/
def saturatingSub (a b : UInt64) : UInt64 := if a < b then 0 else a - b

@[simp] theorem toNat_saturatingSub (a b : UInt64) :
    (saturatingSub a b).toNat = a.toNat - b.toNat := by
  unfold saturatingSub
  split
  · next h =>
    rw [UInt64.lt_iff_toNat_lt] at h
    rw [UInt64.toNat_zero]
    omega
  · next h =>
    have hle : b ≤ a := by
      rw [UInt64.lt_iff_toNat_lt] at h
      rw [UInt64.le_iff_toNat_le]
      omega
    exact UInt64.toNat_sub_of_le a b hle

/-- Addition that stops at the largest word. -/
def saturatingAdd (a b : UInt64) : UInt64 :=
  if a.toNat + b.toNat < 2 ^ 64 then a + b else 0xFFFFFFFFFFFFFFFF

/-- Multiplication that stops at the largest word. -/
def saturatingMul (a b : UInt64) : UInt64 :=
  if a.toNat * b.toNat < 2 ^ 64 then a * b else 0xFFFFFFFFFFFFFFFF

theorem toNat_saturatingAdd_of_lt {a b : UInt64} (h : a.toNat + b.toNat < 2 ^ 64) :
    (saturatingAdd a b).toNat = a.toNat + b.toNat := by
  rw [saturatingAdd, if_pos h, toNat_add_of_lt h]

theorem toNat_saturatingMul_of_lt {a b : UInt64} (h : a.toNat * b.toNat < 2 ^ 64) :
    (saturatingMul a b).toNat = a.toNat * b.toNat := by
  rw [saturatingMul, if_pos h, UInt64.toNat_mul, Nat.mod_eq_of_lt h]

/-- A sum of words is the sum of their values, wrapped once at the end. -/
theorem toNat_sum_map {α : Type*} (f : α → UInt64) (s : Multiset α) :
    (s.map f).sum.toNat = (s.map fun a => (f a).toNat).sum % 2 ^ 64 := by
  induction s using Multiset.induction_on with
  | empty => rfl
  | cons a s ih =>
      rw [Multiset.map_cons, Multiset.sum_cons, Multiset.map_cons, Multiset.sum_cons,
        UInt64.toNat_add, ih, Nat.add_mod_mod]

theorem toNat_list_sum (l : List UInt64) :
    l.sum.toNat = (l.map UInt64.toNat).sum % 2 ^ 64 := by
  induction l with
  | nil => rfl
  | cons a l ih =>
      rw [List.sum_cons, List.map_cons, List.sum_cons, UInt64.toNat_add, ih,
        Nat.add_mod_mod]

end Word

/-- What an operation past the end of the word does: a checked build stops the
program, an optimised build wraps. -/
inductive Overflow where
  | stop
  | wrap
deriving DecidableEq, Repr

namespace Overflow

/-- Addition of words; `none` is the stopped program. -/
def add : Overflow → UInt64 → UInt64 → Option UInt64
  | stop, a, b => if a.toNat + b.toNat < 2 ^ 64 then some (a + b) else none
  | wrap, a, b => some (a + b)

/-- Subtraction of words; `none` is the stopped program. -/
def sub : Overflow → UInt64 → UInt64 → Option UInt64
  | stop, a, b => if b ≤ a then some (a - b) else none
  | wrap, a, b => some (a - b)

variable {mode : Overflow} {a b c : UInt64}

theorem eq_add_of_add_eq_some (h : mode.add a b = some c) : c = a + b := by
  cases mode with
  | wrap => exact (Option.some.inj h).symm
  | stop =>
      simp only [add] at h
      split at h
      · exact (Option.some.inj h).symm
      · cases h

theorem add_eq_some_of_lt (mode : Overflow) (h : a.toNat + b.toNat < 2 ^ 64) :
    mode.add a b = some (a + b) := by
  cases mode with
  | wrap => rfl
  | stop => exact if_pos h

theorem sub_eq_some_of_le (mode : Overflow) (h : b ≤ a) : mode.sub a b = some (a - b) := by
  cases mode with
  | wrap => rfl
  | stop => exact if_pos h

/-- Where a checked build goes on, every build does the same. -/
theorem add_eq_some_of_stop (mode : Overflow) (h : stop.add a b = some c) :
    mode.add a b = some c := by
  cases mode with
  | stop => exact h
  | wrap => rw [eq_add_of_add_eq_some h, add]

theorem add_stop_eq_none (h : ¬ a.toNat + b.toNat < 2 ^ 64) : stop.add a b = none :=
  if_neg h

end Overflow

end Foundation

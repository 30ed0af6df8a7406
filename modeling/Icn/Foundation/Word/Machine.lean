import Icn.Foundation.Word.UInt64

/-!
# Machine words in either build

An operation on words has an exact result, a natural number. If the number fits
the word, that is the outcome; otherwise it is for the build to say what happens
(`Overflow.narrow`).

Sums are formed one word at a time, but they are right exactly if the total fits
the word, in whatever order they are taken. So the sum of a multiset makes sense
in both builds (`Overflow.sumOf`).
-/

namespace Foundation

class MachineWord (W : Type) where
  width : ℕ
  value : W → ℕ
  ofValue : ℕ → W
  value_lt : ∀ w, value w < 2 ^ width
  value_ofValue : ∀ n, value (ofValue n) = n % 2 ^ width
  ofValue_value : ∀ w, ofValue (value w) = w

instance : MachineWord UInt16 where
  width := 16
  value := UInt16.toNat
  ofValue := UInt16.ofNat
  value_lt := UInt16.toNat_lt
  value_ofValue _ := UInt16.toNat_ofNat'
  ofValue_value _ := UInt16.ofNat_toNat

instance : MachineWord UInt32 where
  width := 32
  value := UInt32.toNat
  ofValue := UInt32.ofNat
  value_lt := UInt32.toNat_lt
  value_ofValue _ := UInt32.toNat_ofNat'
  ofValue_value _ := UInt32.ofNat_toNat

instance : MachineWord UInt64 where
  width := 64
  value := UInt64.toNat
  ofValue := UInt64.ofNat
  value_lt := UInt64.toNat_lt
  value_ofValue _ := UInt64.toNat_ofNat'
  ofValue_value _ := UInt64.ofNat_toNat

namespace MachineWord

variable {W : Type} [MachineWord W]

theorem ofValue_mod (n : ℕ) : ofValue (n % 2 ^ width W) = (ofValue n : W) := by
  rw [← value_ofValue (W := W) n, ofValue_value]

theorem value_ofValue_of_lt {n : ℕ} (h : n < 2 ^ width W) : value (ofValue n : W) = n := by
  rw [value_ofValue, Nat.mod_eq_of_lt h]

end MachineWord

open MachineWord

namespace Overflow

variable {W : Type} [MachineWord W]

/-- The word for the exact result of an operation; `none` is the stopped program. -/
def narrow (mode : Overflow) (n : ℕ) : Option W :=
  if n < 2 ^ width W then some (ofValue n)
  else
    match mode with
    | stop => none
    | wrap => some (ofValue n)

/-- Multiplication of words; `none` is the stopped program. -/
def mul (mode : Overflow) (a b : UInt64) : Option UInt64 := mode.narrow (a.toNat * b.toNat)

/-- Addition of signed words; `none` is the stopped program. -/
def addInt32 (mode : Overflow) (a b : Int32) : Option Int32 :=
  if -2 ^ 31 ≤ a.toInt + b.toInt ∧ a.toInt + b.toInt < 2 ^ 31 then some (a + b)
  else
    match mode with
    | stop => none
    | wrap => some (a + b)

def sum (mode : Overflow) (words : List W) : Option W :=
  words.foldlM (fun acc w => mode.narrow (value acc + value w)) (ofValue 0)

theorem narrow_of_lt (mode : Overflow) {n : ℕ} (h : n < 2 ^ width W) :
    mode.narrow n = some (ofValue n : W) :=
  if_pos h

theorem narrow_wrap (n : ℕ) : wrap.narrow n = some (ofValue n : W) := by
  rw [narrow]
  split <;> rfl

theorem narrow_stop_eq_none {n : ℕ} (h : ¬ n < 2 ^ width W) :
    stop.narrow n = (none : Option W) :=
  if_neg h

theorem narrow_eq_none_iff {mode : Overflow} {n : ℕ} :
    mode.narrow n = (none : Option W) ↔ mode = stop ∧ ¬ n < 2 ^ width W := by
  by_cases h : n < 2 ^ width W
  · rw [narrow_of_lt mode h]
    exact iff_of_false (Option.some_ne_none _) fun hstop => hstop.2 h
  · cases mode with
    | stop => exact iff_of_true (narrow_stop_eq_none h) ⟨rfl, h⟩
    | wrap =>
        rw [narrow_wrap]
        exact iff_of_false (Option.some_ne_none _) fun hstop => by cases hstop.1

theorem eq_add_of_addInt32_eq_some {mode : Overflow} {a b c : Int32}
    (h : mode.addInt32 a b = some c) : c = a + b := by
  unfold addInt32 at h
  split at h
  · exact (Option.some.inj h).symm
  · cases mode with
    | stop => cases h
    | wrap => exact (Option.some.inj h).symm

theorem lt_of_narrow_stop {n : ℕ} {w : W} (h : stop.narrow n = some w) : n < 2 ^ width W := by
  by_contra hn
  rw [narrow_stop_eq_none hn] at h
  cases h

theorem value_of_narrow {mode : Overflow} {n : ℕ} {w : W} (h : mode.narrow n = some w) :
    value w = n % 2 ^ width W := by
  rw [← value_ofValue (W := W)]
  by_cases hn : n < 2 ^ width W
  · rw [narrow_of_lt mode hn] at h
    rw [← Option.some.inj h]
  · cases mode with
    | stop =>
        rw [narrow_stop_eq_none hn] at h
        cases h
    | wrap =>
        rw [narrow_wrap] at h
        rw [← Option.some.inj h]

theorem narrow_bind_narrow_add (mode : Overflow) (n k : ℕ) :
    ((mode.narrow n).bind fun w : W => mode.narrow (value w + k)) =
      (mode.narrow (n + k) : Option W) := by
  by_cases hn : n < 2 ^ width W
  · rw [narrow_of_lt mode hn, Option.bind_some, value_ofValue_of_lt hn]
  · cases mode with
    | stop =>
        rw [narrow_stop_eq_none hn, narrow_stop_eq_none (by omega)]
        rfl
    | wrap =>
        rw [narrow_wrap, narrow_wrap, Option.bind_some, narrow_wrap, ← ofValue_mod,
          ← ofValue_mod (n + k), value_ofValue, Nat.mod_add_mod]

theorem foldlM_narrow_add (mode : Overflow) (w : W) (words : List W) :
    words.foldlM (fun acc w' => mode.narrow (value acc + value w')) w =
      mode.narrow (value w + (words.map value).sum) := by
  induction words generalizing w with
  | nil =>
      rw [List.foldlM_nil, List.map_nil, List.sum_nil, add_zero, narrow_of_lt mode (value_lt w),
        ofValue_value]
      rfl
  | cons w' words ih =>
      rw [List.foldlM_cons, List.map_cons, List.sum_cons, ← add_assoc]
      calc (mode.narrow (value w + value w')).bind (fun acc : W =>
            words.foldlM (fun acc w' => mode.narrow (value acc + value w')) acc)
          = (mode.narrow (value w + value w')).bind fun acc : W =>
              mode.narrow (value acc + (words.map value).sum) := by simp only [ih]
        _ = mode.narrow (value w + value w' + (words.map value).sum) :=
            narrow_bind_narrow_add mode _ _

theorem sum_eq_narrow (mode : Overflow) (words : List W) :
    mode.sum words = mode.narrow (words.map value).sum := by
  rw [sum, foldlM_narrow_add, value_ofValue, Nat.zero_mod, zero_add]

/-- The word for a total reaches a bound as the total does: a checked build has room for
it, and in an optimised build the remainder reaches a bound that the total reaches. -/
def Reaches (mode : Overflow) (W : Type) [MachineWord W] (bound total : ℕ) : Prop :=
  match mode with
  | stop => total < 2 ^ width W
  | wrap => bound ≤ total → bound ≤ total % 2 ^ width W

/-- A word is there and compared with the bound like the total exactly if it reaches the
bound as the total does. -/
theorem narrow_le_iff (mode : Overflow) (bound total : ℕ) :
    (∃ w : W, mode.narrow total = some w ∧ (bound ≤ value w ↔ bound ≤ total)) ↔
      mode.Reaches W bound total := by
  cases mode with
  | stop =>
      constructor
      · rintro ⟨w, hw, -⟩
        exact lt_of_narrow_stop hw
      · intro h
        refine ⟨_, narrow_of_lt stop h, ?_⟩
        rw [value_ofValue_of_lt h]
  | wrap =>
      constructor
      · rintro ⟨w, hw, hiff⟩ hbound
        rw [← value_of_narrow hw]
        exact hiff.mpr hbound
      · intro h
        refine ⟨_, narrow_wrap total, ?_⟩
        rw [value_ofValue]
        exact ⟨fun hbound => hbound.trans (Nat.mod_le _ _), h⟩

def sumOf (mode : Overflow) (words : Multiset W) : Option W :=
  Quot.liftOn words mode.sum fun words words' hperm => by
    rw [sum_eq_narrow, sum_eq_narrow, (hperm.map value).sum_eq]

theorem sumOf_eq_narrow (mode : Overflow) (words : Multiset W) :
    mode.sumOf words = mode.narrow (words.map value).sum := by
  induction words using Quotient.inductionOn with
  | h words => exact sum_eq_narrow mode words

theorem add_eq_narrow (mode : Overflow) (a b : UInt64) :
    mode.add a b = mode.narrow (a.toNat + b.toNat) := by
  have hword : (ofValue (a.toNat + b.toNat) : UInt64) = a + b := by
    apply UInt64.toNat_inj.mp
    rw [UInt64.toNat_add]
    exact UInt64.toNat_ofNat'
  cases mode with
  | stop =>
      rw [add, narrow, hword]
      rfl
  | wrap => rw [add, narrow_wrap, hword]

theorem ofValue_mul (a b : UInt64) : (ofValue (a.toNat * b.toNat) : UInt64) = a * b := by
  apply UInt64.toNat_inj.mp
  rw [UInt64.toNat_mul]
  exact UInt64.toNat_ofNat'

theorem mul_wrap (a b : UInt64) : wrap.mul a b = some (a * b) := by
  rw [mul, narrow_wrap, ofValue_mul]

theorem mul_eq_some_of_lt (mode : Overflow) {a b : UInt64} (h : a.toNat * b.toNat < 2 ^ 64) :
    mode.mul a b = some (a * b) := by
  rw [mul, narrow_of_lt mode h, ofValue_mul]

theorem lt_of_mul_stop {a b c : UInt64} (h : stop.mul a b = some c) :
    a.toNat * b.toNat < 2 ^ 64 :=
  lt_of_narrow_stop h

theorem lt_of_add_stop {a b c : UInt64} (h : stop.add a b = some c) :
    a.toNat + b.toNat < 2 ^ 64 := by
  rw [add_eq_narrow] at h
  exact lt_of_narrow_stop h

theorem eq_mul_of_mul_eq_some {mode : Overflow} {a b c : UInt64} (h : mode.mul a b = some c) :
    c = a * b := by
  have hvalue : c.toNat = a.toNat * b.toNat % 2 ^ 64 := value_of_narrow h
  rw [← UInt64.toNat_inj, UInt64.toNat_mul, hvalue]

/-- A product is formed unless a checked build is stopped by it. -/
theorem mul_eq_some_iff {mode : Overflow} {a b c : UInt64} :
    mode.mul a b = some c ↔ (mode = stop → a.toNat * b.toNat < 2 ^ 64) ∧ c = a * b := by
  cases mode with
  | wrap =>
      rw [mul_wrap, Option.some_inj]
      exact ⟨fun h => ⟨(nomatch ·), h.symm⟩, fun h => h.2.symm⟩
  | stop =>
      constructor
      · exact fun h => ⟨fun _ => lt_of_mul_stop h, eq_mul_of_mul_eq_some h⟩
      · rintro ⟨hfits, rfl⟩
        exact mul_eq_some_of_lt stop (hfits rfl)

/-- A difference is formed unless a checked build is stopped by it. -/
theorem sub_eq_some_iff {mode : Overflow} {a b c : UInt64} :
    mode.sub a b = some c ↔ (mode = stop → b ≤ a) ∧ c = a - b := by
  cases mode with
  | wrap =>
      rw [sub, Option.some_inj]
      exact ⟨fun h => ⟨(nomatch ·), h.symm⟩, fun h => h.2.symm⟩
  | stop =>
      rw [sub, Option.ite_none_right_eq_some, Option.some_inj]
      exact ⟨fun h => ⟨fun _ => h.1, h.2.symm⟩, fun h => ⟨h.1 rfl, h.2.symm⟩⟩

end Overflow

end Foundation

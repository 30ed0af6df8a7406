import Mathlib.Algebra.BigOperators.Group.List.Basic
import Mathlib.Algebra.Order.BigOperators.Group.List
import Mathlib.Algebra.Order.Ring.Nat

/-!
# Amounts logged in a sliding window

A log is a list of entries, each read by a `time` and an `amount`. `sumSince`
adds up the amounts from a given time on, which is what a limiter can look up
before it admits the next entry; `sumIn` adds up a closed interval, which is
what the limit is about. `WithinLimit.concat` carries the limit from the
positions at which an entry was admitted to every position of the window.
-/

namespace Foundation

namespace Log

variable {α : Type*} (time amount : α → ℕ)

/-- The amount logged at `since` or later. -/
def sumSince (since : ℕ) (log : List α) : ℕ :=
  ((log.filter fun e => decide (since ≤ time e)).map amount).sum

/-- The amount logged in the closed interval from `lo` to `hi`. -/
def sumIn (lo hi : ℕ) (log : List α) : ℕ :=
  ((log.filter fun e => decide (lo ≤ time e ∧ time e ≤ hi)).map amount).sum

/-- No window of the given period holds more than `bound`. -/
def WithinLimit (period bound : ℕ) (log : List α) : Prop :=
  ∀ t, sumIn time amount (t - period) t log ≤ bound

theorem sumIn_concat (lo hi : ℕ) (log : List α) (e : α) :
    sumIn time amount lo hi (log ++ [e]) =
      sumIn time amount lo hi log +
        if lo ≤ time e ∧ time e ≤ hi then amount e else 0 := by
  by_cases h : lo ≤ time e ∧ time e ≤ hi
  · simp [sumIn, h]
  · simp [sumIn, h]

/-- An interval that begins at `since` or later holds at most what is logged
from `since` on. -/
theorem sumIn_le_sumSince {since lo : ℕ} (h : since ≤ lo) (hi : ℕ) (log : List α) :
    sumIn time amount lo hi log ≤ sumSince time amount since log := by
  induction log with
  | nil => exact le_rfl
  | cons e log ih =>
      simp only [sumIn, sumSince, List.filter_cons] at ih ⊢
      by_cases hin : lo ≤ time e ∧ time e ≤ hi
      · have hsince : since ≤ time e := h.trans hin.1
        simp only [hin, hsince, and_self, decide_true, if_true, List.map_cons, List.sum_cons]
        exact Nat.add_le_add_left ih _
      · simp only [hin, decide_false, Bool.false_eq_true, if_false]
        split
        · rw [List.map_cons, List.sum_cons]
          exact ih.trans (Nat.le_add_left _ _)
        · exact ih

theorem sumSince_le_sum (since : ℕ) (log : List α) :
    sumSince time amount since log ≤ (log.map amount).sum :=
  (List.filter_sublist.map amount).sum_le_sum fun _ _ => Nat.zero_le _

theorem withinLimit_nil (period bound : ℕ) :
    WithinLimit time amount period bound ([] : List α) :=
  fun _ => Nat.zero_le _

/-- Admitting an entry that fits, together with everything logged since one
period before it, keeps every window within the limit: a window that contains
the new entry begins no earlier than that. -/
theorem WithinLimit.concat {period bound : ℕ} {log : List α} {e : α}
    (h : WithinLimit time amount period bound log)
    (hfit : sumSince time amount (time e - period) log + amount e ≤ bound) :
    WithinLimit time amount period bound (log ++ [e]) := by
  intro t
  rw [sumIn_concat]
  by_cases hin : t - period ≤ time e ∧ time e ≤ t
  · have hstart : time e - period ≤ t - period := Nat.sub_le_sub_right hin.2 period
    have hle := sumIn_le_sumSince time amount hstart t log
    rw [if_pos hin]
    omega
  · rw [if_neg hin, add_zero]
    exact h t

end Log

end Foundation

import Mathlib.Data.List.Basic

/-!
# Sorting and paging a log

A stable sort keeps the elements that are tied in the order of the list: what it selects of
them is what the list has of them (`filter_mergeSort`). Pages of one size that follow each
other make up the list from its beginning (`flatMap_pages`).
-/

namespace Foundation

namespace Log

variable {α : Type*}

theorem filter_mergeSort {le : α → α → Bool} (htrans : ∀ a b c, le a b → le b c → le a c)
    (htotal : ∀ a b, le a b || le b a) {tied : α → Bool}
    (htied : ∀ a b, tied a = true → tied b = true → le a b = true) (l : List α) :
    (l.mergeSort le).filter tied = l.filter tied := by
  have hsorted : (l.filter tied).Pairwise fun a b => le a b = true := by
    refine List.Pairwise.imp_of_mem ?_ (List.pairwise_of_forall fun _ _ => trivial)
    intro a b ha hb _
    exact htied a b (List.mem_filter.mp ha).2 (List.mem_filter.mp hb).2
  have hsublist : (l.filter tied).Sublist ((l.mergeSort le).filter tied) := by
    have := (List.sublist_mergeSort htrans htotal hsorted List.filter_sublist).filter tied
    simp only [List.filter_filter, Bool.and_self] at this
    exact this
  have hlength := ((List.mergeSort_perm l le).filter tied).length_eq
  exact (hsublist.eq_of_length hlength.symm).symm

theorem flatMap_pages (l : List α) (n m : ℕ) :
    ((List.range m).flatMap fun k => (l.drop (k * n)).take n) = l.take (m * n) := by
  induction m with
  | zero => rw [Nat.zero_mul, List.take_zero, List.range_zero, List.flatMap_nil]
  | succ m ih =>
      rw [List.range_succ, List.flatMap_append, ih, List.flatMap_singleton, Nat.succ_mul,
        List.take_add]

end Log

end Foundation

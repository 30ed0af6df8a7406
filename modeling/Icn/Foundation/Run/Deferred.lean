import Mathlib.Data.Nat.Notation
import Icn.Foundation.Run.Sequential

/-!
# Operations that are applied out of order

Operations wait in a list and each of them is taken out and applied when its turn
comes, which need not be the order of the list. The result is that of the list
as long as an operation commutes with those that it overtakes.
-/

namespace Foundation

namespace Run

variable {σ α : Type*}

/-- The two operations give the same state in either order. -/
def Commutes (step : σ → α → σ) (a b : α) : Prop :=
  ∀ s, step (step s a) b = step (step s b) a

def optional (step : σ → α → σ) (s : σ) (a : Option α) : σ := a.elim s (step s)

theorem commutes_optional_iff {step : σ → α → σ} {a b : Option α} :
    Commutes (optional step) a b ↔ ∀ x, a = some x → ∀ y, b = some y → Commutes step x y := by
  cases a with
  | none => exact iff_of_true (fun _ => rfl) (fun x hx => nomatch hx)
  | some x =>
      cases b with
      | none => exact iff_of_true (fun _ => rfl) (fun x _ y hy => nomatch hy)
      | some y =>
          constructor
          · rintro h _ ⟨rfl⟩ _ ⟨rfl⟩
            exact h
          · intro h
            exact h x rfl y rfl

def assign (_ : Option α) (a : α) : Option α := some a

theorem commutes_assign_iff {a b : α} : Commutes assign a b ↔ a = b := by
  constructor
  · intro h
    exact (Option.some.inj (h none)).symm
  · rintro rfl s
    rfl

theorem run_append_cons_of_commutes {step : σ → α → σ} {before after : List α} {a : α}
    (h : ∀ b ∈ before, Commutes step b a) (s : σ) :
    run step s (before ++ a :: after) = run step (step s a) (before ++ after) := by
  induction before generalizing s with
  | nil => rfl
  | cons b before ih =>
      have hrest : ∀ c ∈ before, Commutes step c a := fun c hc => h c (List.mem_cons_of_mem b hc)
      calc run step s (b :: before ++ a :: after)
          = run step (step (step s b) a) (before ++ after) := ih hrest (step s b)
        _ = run step (step (step s a) b) (before ++ after) := by rw [h b List.mem_cons_self s]

theorem exists_append_of_getElem? {l : List α} {k : ℕ} {a : α} (h : l[k]? = some a) :
    ∃ before after, l = before ++ a :: after ∧ l.take k = before ∧
      l.eraseIdx k = before ++ after := by
  refine ⟨l.take k, l.drop (k + 1), ?_, rfl, List.eraseIdx_eq_take_drop_succ l k⟩
  rw [List.getElem?_eq_some_iff] at h
  obtain ⟨hk, rfl⟩ := h
  rw [← List.drop_eq_getElem_cons hk, List.take_append_drop]

end Run

end Foundation

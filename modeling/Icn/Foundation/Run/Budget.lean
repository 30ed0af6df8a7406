import Mathlib.Algebra.Order.Monoid.Defs
import Mathlib.Tactic.Abel
import Icn.Foundation.Run.Sequential

/-!
# Budgets along a run

The steps of a run take amounts out of a store and put amounts into it. `total`
adds up such amounts over the run, each read in the state its step is taken in.
Where no step leaves more behind than it found and put in, less what it took out,
no run does (`store_add_total_le`): what a run takes out is bounded by what there
was at its beginning and what was put in on the way.

A store need not be the level of anything. A bucket that refills at a fixed rate
counts with what it could hold at some later instant; refilling does not raise
that, so the bound is the one of a rate limit.
-/

namespace Foundation

namespace Run

variable {σ α M : Type*} [AddCommMonoid M]

def total (step : σ → α → σ) (amount : σ → α → M) : σ → List α → M
  | _, [] => 0
  | s, a :: ops => amount s a + total step amount (step s a) ops

@[simp] theorem total_nil (step : σ → α → σ) (amount : σ → α → M) (s : σ) :
    total step amount s [] = 0 := rfl

theorem total_cons (step : σ → α → σ) (amount : σ → α → M) (s : σ) (a : α) (ops : List α) :
    total step amount s (a :: ops) = amount s a + total step amount (step s a) ops := rfl

/-- What a run takes out and what it leaves is what it found, when this is so of each of
its steps. -/
theorem store_add_total_eq {step : σ → α → σ} {P : σ → Prop} {store : σ → M}
    {out : σ → α → M} (hkeep : ∀ s a, P s → P (step s a))
    (hstep : ∀ s a, P s → store (step s a) + out s a = store s) {s : σ} (hs : P s)
    (ops : List α) : store (run step s ops) + total step out s ops = store s := by
  induction ops generalizing s with
  | nil => exact add_zero (store s)
  | cons a ops ih =>
      rw [total_cons, run_cons, add_left_comm, ih (hkeep s a hs), add_comm, hstep s a hs]

section Order

variable [PartialOrder M] [IsOrderedAddMonoid M] {step : σ → α → σ} {P : σ → α → Prop}

/-- What a run takes out and what it leaves is no more than what it found and put
in, when this is so of each of its steps. -/
theorem store_add_total_le {store : σ → M} {out into : σ → α → M}
    (hstep : ∀ s a, P s a → store (step s a) + out s a ≤ store s + into s a) {s : σ}
    {ops : List α} (hP : Along step P s ops) :
    store (run step s ops) + total step out s ops ≤ store s + total step into s ops := by
  induction ops generalizing s with
  | nil => exact le_rfl
  | cons a ops ih =>
      obtain ⟨ha, hrest⟩ := hP
      have hfirst := hstep s a ha
      have hlast := ih hrest
      rw [total_cons, total_cons, run_cons]
      calc store (run step (step s a) ops) + (out s a + total step out (step s a) ops)
          = store (run step (step s a) ops) + total step out (step s a) ops + out s a := by abel
        _ ≤ store (step s a) + total step into (step s a) ops + out s a := by gcongr
        _ = store (step s a) + out s a + total step into (step s a) ops := by abel
        _ ≤ store s + into s a + total step into (step s a) ops := by gcongr
        _ = store s + (into s a + total step into (step s a) ops) := by abel

end Order

end Run

end Foundation

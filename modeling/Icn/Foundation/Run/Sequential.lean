import Mathlib.Order.Defs.Unbundled

/-!
# Runs of a state machine

`run step s ops` is the state after the operations `ops`, applied one after
another from `s`. A side condition on the operations is stated by `Along`,
which carries the current state along the list: `Along step P s ops` says that
every operation meets `P` in the state it is applied to.

The rules turn a statement about one step into one about every run: an
invariant, an invariant under a side condition, a preorder between the first and
the last state, and a view of the state that only some operations change.
-/

namespace Foundation

namespace Run

variable {σ α : Type*}

def run (step : σ → α → σ) (s : σ) (ops : List α) : σ :=
  ops.foldl step s

@[simp] theorem run_nil (step : σ → α → σ) (s : σ) : run step s [] = s := rfl

@[simp] theorem run_cons (step : σ → α → σ) (s : σ) (a : α) (ops : List α) :
    run step s (a :: ops) = run step (step s a) ops := rfl

theorem run_append (step : σ → α → σ) (s : σ) (ops ops' : List α) :
    run step s (ops ++ ops') = run step (run step s ops) ops' :=
  List.foldl_append

/-- Every operation meets `P` in the state it is applied to. -/
def Along (step : σ → α → σ) (P : σ → α → Prop) : σ → List α → Prop
  | _, [] => True
  | s, a :: ops => P s a ∧ Along step P (step s a) ops

instance decidableAlong (step : σ → α → σ) (P : σ → α → Prop)
    [∀ s a, Decidable (P s a)] : ∀ s ops, Decidable (Along step P s ops)
  | _, [] => inferInstanceAs (Decidable True)
  | s, a :: ops =>
      have := decidableAlong step P (step s a) ops
      inferInstanceAs (Decidable (P s a ∧ Along step P (step s a) ops))

theorem along_append (step : σ → α → σ) (P : σ → α → Prop) (s : σ)
    (ops ops' : List α) :
    Along step P s (ops ++ ops') ↔
      Along step P s ops ∧ Along step P (run step s ops) ops' := by
  induction ops generalizing s with
  | nil => simp [Along]
  | cons a ops ih => simp [Along, ih (s := step s a), and_assoc]

theorem along_iff_forall_append (step : σ → α → σ) (P : σ → α → Prop) (s : σ)
    (ops : List α) :
    Along step P s ops ↔
      ∀ before a after, ops = before ++ a :: after → P (run step s before) a := by
  constructor
  · rintro h before a after rfl
    exact ((along_append step P s before (a :: after)).mp h).2.1
  · intro h
    induction ops generalizing s with
    | nil => trivial
    | cons a ops ih =>
        refine ⟨h [] a ops rfl, ih (step s a) ?_⟩
        intro before b after hops
        exact h (a :: before) b after (congrArg (a :: ·) hops)

/-- A side condition that does not read the state holds along a list when it
holds of every member. -/
theorem along_of_forall_mem {step : σ → α → σ} {P : α → Prop} {s : σ} {ops : List α}
    (h : ∀ a ∈ ops, P a) : Along step (fun _ a => P a) s ops := by
  induction ops generalizing s with
  | nil => trivial
  | cons a ops ih =>
      exact ⟨h a List.mem_cons_self, ih fun b hb => h b (List.mem_cons_of_mem a hb)⟩

/-- An invariant kept by every step that meets the side condition holds after
every run whose steps meet it. -/
theorem invariant_of_along {step : σ → α → σ} {P : σ → α → Prop} {I : σ → Prop}
    (hstep : ∀ s a, I s → P s a → I (step s a)) {s : σ} {ops : List α}
    (hs : I s) (hP : Along step P s ops) : I (run step s ops) := by
  induction ops generalizing s with
  | nil => exact hs
  | cons a ops ih => exact ih (hstep s a hs hP.1) hP.2

/-- An invariant kept by every step holds after every run. -/
theorem invariant {step : σ → α → σ} {I : σ → Prop}
    (hstep : ∀ s a, I s → I (step s a)) {s : σ} (hs : I s) (ops : List α) :
    I (run step s ops) := by
  induction ops generalizing s with
  | nil => exact hs
  | cons a ops ih => exact ih (hstep s a hs)

/-- Where a step keeps the property exactly under the side condition, a run keeps it
in every state it passes through exactly when it meets the side condition
throughout. The invariant `J` always holds, and only steps that meet `Q` are
considered. -/
theorem forall_prefix_iff_along_of {step : σ → α → σ} {P Q : σ → α → Prop} {I J : σ → Prop}
    (hinv : ∀ s a, J s → J (step s a))
    (hstep : ∀ s a, J s → I s → Q s a → (I (step s a) ↔ P s a)) {s : σ} (hJ : J s) (hs : I s)
    {ops : List α} (hQ : Along step Q s ops) :
    (∀ before, before <+: ops → I (run step s before)) ↔ Along step P s ops := by
  induction ops generalizing s with
  | nil =>
      refine iff_of_true ?_ trivial
      intro before hbefore
      rw [List.prefix_nil.mp hbefore]
      exact hs
  | cons a ops ih =>
      obtain ⟨hQa, hQ⟩ := hQ
      constructor
      · intro h
        have hnext : I (step s a) := h [a] (List.prefix_append [a] ops)
        refine ⟨(hstep s a hJ hs hQa).mp hnext, (ih (hinv s a hJ) hnext hQ).mp ?_⟩
        intro before hbefore
        exact h (a :: before) (List.cons_prefix_cons.mpr ⟨rfl, hbefore⟩)
      · intro h before hbefore
        cases before with
        | nil => exact hs
        | cons b before =>
            obtain ⟨rfl, hrest⟩ := List.cons_prefix_cons.mp hbefore
            exact (ih (hinv s b hJ) ((hstep s b hJ hs hQa).mpr h.1) hQ).mpr h.2 before hrest

theorem forall_prefix_iff_along {step : σ → α → σ} {P : σ → α → Prop} {I : σ → Prop}
    (hstep : ∀ s a, I s → (I (step s a) ↔ P s a)) {s : σ} (hs : I s) (ops : List α) :
    (∀ before, before <+: ops → I (run step s before)) ↔ Along step P s ops :=
  forall_prefix_iff_along_of (Q := fun _ _ => True) (J := fun _ => True) (fun _ _ _ => trivial)
    (fun s a _ h _ => hstep s a h) trivial hs (along_of_forall_mem fun _ _ => trivial)

theorem exists_step_of_run {step : σ → α → σ} {Q : σ → Prop} {s : σ} {ops : List α}
    (hs : ¬ Q s) (h : Q (run step s ops)) :
    ∃ before a after, ops = before ++ a :: after ∧ ¬ Q (run step s before) ∧
      Q (step (run step s before) a) := by
  induction ops generalizing s with
  | nil => exact absurd h hs
  | cons a ops ih =>
      by_cases hnext : Q (step s a)
      · exact ⟨[], a, ops, rfl, hs, hnext⟩
      · obtain ⟨before, b, after, hops, hbefore, hb⟩ := ih hnext h
        exact ⟨a :: before, b, after, congrArg (a :: ·) hops, hbefore, hb⟩

/-- A preorder that relates the two ends of every step relates the two ends of
every run. -/
theorem rel_run {step : σ → α → σ} (r : σ → σ → Prop) [IsPreorder σ r]
    (hstep : ∀ s a, r s (step s a)) (s : σ) (ops : List α) :
    r s (run step s ops) := by
  induction ops generalizing s with
  | nil => exact refl_of r s
  | cons a ops ih => exact trans_of r (hstep s a) (ih (step s a))

/-- The unwinding rule: a view that the selected operations change alike and the
others leave alone is the same after the whole run and after the run of the
selected operations. -/
theorem view_run_filter {step : σ → α → σ} {β : Type*} (view : σ → β) (p : α → Bool)
    (hkeep : ∀ s t a, p a = true → view s = view t → view (step s a) = view (step t a))
    (hdrop : ∀ s a, p a = false → view (step s a) = view s) {s t : σ}
    (hview : view s = view t) (ops : List α) :
    view (run step s ops) = view (run step t (ops.filter p)) := by
  induction ops generalizing s t with
  | nil => exact hview
  | cons a ops ih =>
      cases hp : p a with
      | true =>
          rw [List.filter_cons_of_pos hp]
          exact ih (hkeep s t a hp hview)
      | false =>
          rw [List.filter_cons_of_neg (by simp [hp])]
          exact ih ((hdrop s a hp).trans hview)

end Run

end Foundation

import Mathlib.Data.List.Forall2
import Icn.Foundation.Run.Sequential

/-!
# Machines with answers

A machine with answers takes an operation to an answer and a next state, and
`trace` lists the answers along a run. Two machines whose states are related so
that each operation answers alike and keeps the relation give the same answers
to every run: nothing outside can tell them apart. The relation itself holds
between the states after any run.

Where the machines agree only as long as every operation meets a condition,
`lockstep_iff_along` makes the condition of one step that of a whole run.
-/

namespace Foundation

namespace Run

variable {σ τ α β γ : Type*}

def trace (step : σ → α → β × σ) : σ → List α → List β
  | _, [] => []
  | s, a :: ops => (step s a).1 :: trace step (step s a).2 ops

/-- Related states stay related and give the same answers. -/
theorem trace_eq_of_simulation {step : σ → α → β × σ} {step' : τ → α → β × τ}
    (R : σ → τ → Prop)
    (hstep : ∀ s t a, R s t →
      (step s a).1 = (step' t a).1 ∧ R (step s a).2 (step' t a).2)
    {s : σ} {t : τ} (h : R s t) (ops : List α) : trace step s ops = trace step' t ops := by
  induction ops generalizing s t with
  | nil => rfl
  | cons a ops ih =>
      obtain ⟨hanswer, hnext⟩ := hstep s t a h
      rw [trace, trace, hanswer, ih hnext]

/-- Where the operations of one machine are those of the other under another name,
related states give each operation answers that are related as it asks. Only
operations that meet `P` are considered. -/
theorem forall₂_trace_of_simulation {δ : Type*} {step : σ → γ → β × σ} {step' : τ → α → δ × τ}
    (R : σ → τ → Prop) (B : α → β → δ → Prop) {P : α → Prop} (f : α → γ)
    (hstep : ∀ s t a, R s t → P a →
      B a (step s (f a)).1 (step' t a).1 ∧ R (step s (f a)).2 (step' t a).2)
    {s : σ} {t : τ} (h : R s t) {ops : List α} (hops : ∀ a ∈ ops, P a) :
    List.Forall₂ (fun a answers => B a answers.1 answers.2) ops
      ((trace step s (ops.map f)).zip (trace step' t ops)) := by
  induction ops generalizing s t with
  | nil => exact List.Forall₂.nil
  | cons a ops ih =>
      obtain ⟨ha, hops⟩ := List.forall_mem_cons.mp hops
      obtain ⟨hanswer, hnext⟩ := hstep s t a h ha
      exact List.Forall₂.cons hanswer (ih hnext hops)

/-- The unwinding rule for answers: where a view decides what the selected operations
answer and how they change it, and the others leave it alone, the selected operations are
answered as in a run without the others. -/
theorem trace_filter_of_view {step : σ → α → β × σ} {δ : Type*} (view : σ → δ) (p : α → Bool)
    (hkeep : ∀ s t a, p a = true → view s = view t →
      (step s a).1 = (step t a).1 ∧ view (step s a).2 = view (step t a).2)
    (hdrop : ∀ s a, p a = false → view (step s a).2 = view s) {s t : σ}
    (hview : view s = view t) (ops : List α) :
    ((ops.zip (trace step s ops)).filter fun e => p e.1).map Prod.snd =
      trace step t (ops.filter p) := by
  induction ops generalizing s t with
  | nil => rfl
  | cons a ops ih =>
      rw [trace, List.zip_cons_cons]
      cases hp : p a with
      | true =>
          obtain ⟨hanswer, hnext⟩ := hkeep s t a hp hview
          rw [List.filter_cons_of_pos (by exact hp), List.filter_cons_of_pos hp, List.map_cons,
            trace, ih hnext, hanswer]
      | false =>
          rw [List.filter_cons_of_neg (by simp [hp]), List.filter_cons_of_neg (by simp [hp])]
          exact ih ((hdrop s a hp).trans hview)

/-- The answers read through `f` are the answers of the machine that answers
through `f`. -/
theorem map_trace (step : σ → α → β × σ) (f : β → γ) (s : σ) (ops : List α) :
    (trace step s ops).map f = trace (fun s a => (f (step s a).1, (step s a).2)) s ops := by
  induction ops generalizing s with
  | nil => rfl
  | cons a ops ih => rw [trace, trace, List.map_cons, ih]

/-- A relation that every pair of steps keeps holds between the states after a
run. -/
theorem run_of_simulation {step : σ → α → σ} {step' : τ → α → τ} (R : σ → τ → Prop)
    (hstep : ∀ s t a, R s t → R (step s a) (step' t a)) {s : σ} {t : τ} (h : R s t)
    (ops : List α) : R (run step s ops) (run step' t ops) := by
  induction ops generalizing s t with
  | nil => exact h
  | cons a ops ih => exact ih (hstep s t a h)

def pair (step : σ → α → β × σ) (step' : τ → α → β × τ) (p : σ × τ) (a : α) : σ × τ :=
  ((step p.1 a).2, (step' p.2 a).2)

/-- Where a step of both machines gives the same answers and leaves states that look
alike exactly under the condition `P`, and the condition keeps the relation that
this rests on, a run looks alike throughout exactly when all its steps meet the
condition. Only steps that meet `Q` are considered. -/
theorem lockstep_iff_along {step : σ → α → β × σ} {step' : τ → α → β × τ}
    {alike related : σ × τ → Prop} {P Q : σ × τ → α → Prop}
    (hview : ∀ p, related p → alike p)
    (hstep : ∀ p a, related p → Q p a →
      ((step p.1 a).1 = (step' p.2 a).1 ∧ alike (pair step step' p a) ↔ P p a))
    (hkeep : ∀ p a, related p → Q p a → P p a → related (pair step step' p a))
    {p : σ × τ} (h : related p) {ops : List α} (hQ : Along (pair step step') Q p ops) :
    (∀ before, before <+: ops →
        trace step p.1 before = trace step' p.2 before ∧
          alike (run (pair step step') p before)) ↔
      Along (pair step step') P p ops := by
  induction ops generalizing p with
  | nil =>
      refine iff_of_true ?_ trivial
      intro before hbefore
      rw [List.prefix_nil.mp hbefore]
      exact ⟨rfl, hview p h⟩
  | cons a ops ih =>
      obtain ⟨hQa, hQ⟩ := hQ
      constructor
      · intro hall
        obtain ⟨hanswer, hnext⟩ := hall [a] (List.prefix_append [a] ops)
        have hP : P p a := (hstep p a h hQa).mp ⟨(List.cons.inj hanswer).1, hnext⟩
        refine ⟨hP, (ih (hkeep p a h hQa hP) hQ).mp ?_⟩
        intro before hbefore
        obtain ⟨htrace, hlast⟩ := hall (a :: before) (List.cons_prefix_cons.mpr ⟨rfl, hbefore⟩)
        exact ⟨(List.cons.inj htrace).2, hlast⟩
      · rintro ⟨hP, hrest⟩ before hbefore
        cases before with
        | nil => exact ⟨rfl, hview p h⟩
        | cons b before =>
            obtain ⟨rfl, hinit⟩ := List.cons_prefix_cons.mp hbefore
            obtain ⟨htrace, hlast⟩ := (ih (hkeep p b h hQa hP) hQ).mpr hrest before hinit
            refine ⟨?_, hlast⟩
            rw [trace, trace, ((hstep p b h hQa).mpr hP).1]
            exact congrArg _ htrace

/-- Two machines that answer a step alike exactly under the condition `P`, which keeps
their states related, give a run the same answers exactly when all its steps meet
the condition. -/
theorem trace_eq_iff_along {step : σ → α → β × σ} {step' : τ → α → β × τ}
    {related : σ × τ → Prop} {P : σ × τ → α → Prop}
    (hstep : ∀ p a, related p → ((step p.1 a).1 = (step' p.2 a).1 ↔ P p a))
    (hkeep : ∀ p a, related p → P p a → related (pair step step' p a))
    {p : σ × τ} (h : related p) (ops : List α) :
    trace step p.1 ops = trace step' p.2 ops ↔ Along (pair step step') P p ops := by
  induction ops generalizing p with
  | nil => exact iff_of_true rfl trivial
  | cons a ops ih =>
      rw [trace, trace, List.cons.injEq, Along, hstep p a h]
      exact and_congr_right fun hP => ih (hkeep p a h hP)

/-- A condition on the first of two machines is met along a run of both exactly when
it is met along a run of the first. -/
theorem along_pair_fst {step : σ → α → β × σ} {step' : τ → α → β × τ} {P : σ → α → Prop}
    (s : σ) (t : τ) (ops : List α) :
    Along (pair step step') (fun p a => P p.1 a) (s, t) ops ↔
      Along (fun s a => (step s a).2) P s ops := by
  induction ops generalizing s t with
  | nil => exact Iff.rfl
  | cons a ops ih => exact and_congr_right fun _ => ih (step s a).2 (step' t a).2

end Run

end Foundation

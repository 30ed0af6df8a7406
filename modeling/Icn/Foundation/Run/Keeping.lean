import Icn.Foundation.Run.Metered
import Mathlib.Data.List.Forall2

/-!
# Programs that keep their state

A computation on a state may fail, and what it has done to the state by then stays done
(`Keeping`). It is put together from parts that only read, and from updates that leave
the state as it is where they fail. `forget` forgets the state of a failure.

A run takes one step for each item of a list, whether they fail or not, and it is over
when the program is stopped. `AllSteps` is a property of all of its steps.
-/

namespace Foundation

universe u

namespace Halting

variable {ε α β : Type u}

/-- The computation fails with this error. -/
def Fails (computation : Halting ε α) (e : ε) : Prop := computation.run = some (.error e)

/-- The program is stopped. -/
def Stops (computation : Halting ε α) : Prop := computation.run = none

theorem stops_or_fails_or_returns (computation : Halting ε α) :
    computation.Stops ∨ (∃ e, computation.Fails e) ∨ ∃ value, computation.Returns value := by
  rcases h : computation.run with _ | (e | value)
  · exact Or.inl h
  · exact Or.inr (Or.inl ⟨e, h⟩)
  · exact Or.inr (Or.inr ⟨value, h⟩)

theorem ofOption_bind (option : Option α) (f : α → Option β) :
    (ofOption (option.bind f) : Halting ε β) = ofOption option >>= fun a => ofOption (f a) := by
  cases option <;> rfl

theorem stops_ofOption_iff {option : Option α} :
    (ofOption option : Halting ε α).Stops ↔ option = none := by
  cases option with
  | none => exact iff_of_true rfl rfl
  | some a => exact iff_of_false (fun h => by cases h) (fun h => by cases h)

theorem not_stops_pure (value : α) : ¬ (pure value : Halting ε α).Stops := by
  intro h
  cases h

theorem not_stops_throw (e : ε) : ¬ (throw e : Halting ε α).Stops := by
  intro h
  cases h

theorem stops_bind_iff {first : Halting ε α} {next : α → Halting ε β} :
    (first >>= next).Stops ↔ first.Stops ∨ ∃ a, first.Returns a ∧ (next a).Stops := by
  rw [Stops, Stops, ExceptT.run_bind]
  constructor
  · intro h
    rcases hfirst : first.run with _ | (e | a)
    · exact Or.inl rfl
    · rw [hfirst] at h
      cases h
    · rw [hfirst] at h
      exact Or.inr ⟨a, hfirst, h⟩
  · rintro (hfirst | ⟨a, hfirst, hnext⟩)
    · rw [hfirst]
      rfl
    · rw [show first.run = some (.ok a) from hfirst]
      exact hnext

theorem returns_mapM_iff {ι : Type u} {f : ι → Halting ε α} {items : List ι} {values : List α} :
    (items.mapM f).Returns values ↔
      List.Forall₂ (fun item value => (f item).Returns value) items values := by
  induction items generalizing values with
  | nil =>
      rw [List.mapM_nil, returns_pure_iff, List.forall₂_nil_left_iff]
      exact eq_comm
  | cons item items ih =>
      rw [List.mapM_cons, returns_bind_iff, List.forall₂_cons_left_iff]
      constructor
      · rintro ⟨a, ha, h⟩
        obtain ⟨as, has, h⟩ := returns_bind_iff.mp h
        exact ⟨a, as, ha, ih.mp has, (returns_pure_iff.mp h).symm⟩
      · rintro ⟨a, as, ha, has, rfl⟩
        exact ⟨a, ha, returns_bind_iff.mpr ⟨as, ih.mpr has, returns_pure_iff.mpr rfl⟩⟩

/-- A list of computations stops where the first of them stops, or goes through and the
others stop. -/
theorem stops_mapM_cons_iff {ι : Type u} {f : ι → Halting ε α} {item : ι} {items : List ι} :
    ((item :: items).mapM f).Stops ↔
      (f item).Stops ∨ (∃ a, (f item).Returns a) ∧ (items.mapM f).Stops := by
  rw [List.mapM_cons, stops_bind_iff]
  apply or_congr_right
  rw [← exists_and_right]
  apply exists_congr
  intro a
  apply and_congr_right
  intro _
  rw [stops_bind_iff]
  constructor
  · rintro (h | ⟨as, -, h⟩)
    · exact h
    · exact absurd h (not_stops_pure _)
  · exact Or.inl

end Halting

/-- A computation on a state, which is kept where it fails; `none` is the stopped program. -/
abbrev Keeping (ε σ : Type u) := ExceptT ε (StateT σ Option)

namespace Keeping

variable {ε σ α β : Type u}

def runFrom (s : σ) (program : Keeping ε σ α) : Option (Except ε α × σ) := program.run.run s

def reading (computation : Halting ε α) : Keeping ε σ α :=
  ExceptT.mk fun s => computation.run.map fun result => (result, s)

def updating (update : σ → Halting ε σ) : Keeping ε σ PUnit :=
  ExceptT.mk fun s => (update s).run.map fun
    | .ok s' => (.ok ⟨⟩, s')
    | .error e => (.error e, s)

def writing (update : σ → σ) : Keeping ε σ PUnit := updating fun s => pure (update s)

/-- The state that a program leaves, unless it fails. -/
def forget (program : Keeping ε σ α) (s : σ) : Halting ε σ :=
  ExceptT.mk ((program.runFrom s).map fun ending => ending.1.map fun _ => ending.2)

section Rules

variable (s : σ)

@[simp] theorem runFrom_pure (a : α) :
    (pure a : Keeping ε σ α).runFrom s = some (.ok a, s) := rfl

theorem reading_pure (a : α) : (reading (pure a) : Keeping ε σ α) = pure a := rfl

theorem reading_bind (first : Halting ε α) (next : α → Halting ε β) :
    (reading (first >>= next) : Keeping ε σ β) = reading first >>= fun a => reading (next a) := by
  apply ExceptT.ext
  funext s
  show ((first >>= next).run.map fun result => (result, s)) = _
  rw [ExceptT.run_bind]
  rcases hfirst : first.run with _ | (e | a)
  all_goals
    show _ = (first.run.map fun result => (result, s)).bind _
    rw [hfirst]
    rfl

theorem runFrom_reading_bind_of_stops {computation : Halting ε α} (next : α → Keeping ε σ β)
    (h : computation.Stops) : (reading computation >>= next).runFrom s = none := by
  show (computation.run.map fun result => (result, s)).bind _ = none
  rw [show computation.run = none from h]
  rfl

theorem runFrom_reading_bind_of_fails {computation : Halting ε α} {e : ε}
    (next : α → Keeping ε σ β) (h : computation.Fails e) :
    (reading computation >>= next).runFrom s = some (.error e, s) := by
  show (computation.run.map fun result => (result, s)).bind _ = _
  rw [show computation.run = some (.error e) from h]
  rfl

theorem runFrom_reading_bind_of_returns {computation : Halting ε α} {a : α}
    (next : α → Keeping ε σ β) (h : computation.Returns a) :
    (reading computation >>= next).runFrom s = (next a).runFrom s := by
  show (computation.run.map fun result => (result, s)).bind _ = _
  rw [show computation.run = some (.ok a) from h]
  rfl

theorem runFrom_updating_bind_of_stops {update : σ → Halting ε σ} (next : PUnit → Keeping ε σ β)
    (h : (update s).Stops) : (updating update >>= next).runFrom s = none := by
  show ((update s).run.map _).bind _ = none
  rw [show (update s).run = none from h]
  rfl

theorem runFrom_updating_bind_of_returns {update : σ → Halting ε σ} {s' : σ}
    (next : PUnit → Keeping ε σ β) (h : (update s).Returns s') :
    (updating update >>= next).runFrom s = (next ⟨⟩).runFrom s' := by
  show ((update s).run.map _).bind _ = _
  rw [show (update s).run = some (.ok s') from h]
  rfl

theorem runFrom_writing_bind (update : σ → σ) (next : PUnit → Keeping ε σ β) :
    (writing update >>= next).runFrom s = (next ⟨⟩).runFrom (update s) := rfl

@[simp] theorem forget_pure (a : α) : (pure a : Keeping ε σ α).forget s = pure s := rfl

@[simp] theorem forget_reading_bind (computation : Halting ε α) (next : α → Keeping ε σ β) :
    (reading computation >>= next).forget s = computation >>= fun a => (next a).forget s := by
  apply ExceptT.ext
  rw [ExceptT.run_bind]
  show ((reading computation >>= next).runFrom s).map _ = _
  rcases h : computation.run with _ | (e | a)
  · rw [runFrom_reading_bind_of_stops s next h]
    rfl
  · rw [runFrom_reading_bind_of_fails s next h]
    rfl
  · rw [runFrom_reading_bind_of_returns s next h]
    rfl

@[simp] theorem forget_updating_bind (update : σ → Halting ε σ) (next : PUnit → Keeping ε σ β) :
    (updating update >>= next).forget s = update s >>= fun s' => (next ⟨⟩).forget s' := by
  apply ExceptT.ext
  rw [ExceptT.run_bind]
  show (((update s).run.map _).bind _).map _ = _
  rcases h : (update s).run with _ | (e | s')
  all_goals rfl

@[simp] theorem forget_writing_bind (update : σ → σ) (next : PUnit → Keeping ε σ β) :
    (writing update >>= next).forget s = (next ⟨⟩).forget (update s) := rfl

end Rules

section Runs

variable {ι : Type*} (step : ι → Keeping ε σ α)

/-- A property of every step of a run, with the state that the step is taken from. -/
def AllSteps (P : σ → ι → Prop) : σ → List ι → Prop
  | _, [] => True
  | s, item :: items => P s item ∧
      ∀ result s', (step item).runFrom s = some (result, s') → AllSteps P s' items

theorem allSteps_congr {P Q : σ → ι → Prop} (h : ∀ s item, P s item ↔ Q s item) (s : σ)
    (items : List ι) : AllSteps step P s items ↔ AllSteps step Q s items := by
  induction items generalizing s with
  | nil => rfl
  | cons item items ih =>
      exact and_congr (h s item) (forall_congr' fun result => forall_congr' fun s' =>
        imp_congr_right fun _ => ih s')

def runAll : σ → List ι → Option σ
  | s, [] => some s
  | s, item :: items => ((step item).runFrom s).bind fun ending => runAll ending.2 items

/-- If no step stops the program and each step relates the states before and after it, the
run goes through and relates the first state to the last. -/
theorem exists_runAll {P : σ → ι → Prop} {R : List ι → σ → σ → Prop} (hnil : ∀ s, R [] s s)
    (hcons : ∀ item items s, P s item → ∃ result s', (step item).runFrom s = some (result, s') ∧
      ∀ s'', R items s' s'' → R (item :: items) s s'')
    {s : σ} {items : List ι} (h : AllSteps step P s items) :
    ∃ s', runAll step s items = some s' ∧ R items s s' := by
  induction items generalizing s with
  | nil => exact ⟨s, rfl, hnil s⟩
  | cons item items ih =>
      obtain ⟨result, s', hstep, hrest⟩ := hcons item items s h.1
      obtain ⟨s'', hrun, hR⟩ := ih (h.2 result s' hstep)
      refine ⟨s'', ?_, hrest s'' hR⟩
      rw [runAll, hstep]
      exact hrun

end Runs

end Keeping

end Foundation

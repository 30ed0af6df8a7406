import Mathlib.Algebra.BigOperators.Group.List.Basic

/-!
# Metered computations

A computation may fail with an error, and the program may be stopped while it runs
(`none`). `Adds` says what a computation that goes through adds to a meter, whatever
else it does to the state. The rules follow the computation: an update adds what it
adds, the amounts of two computations in a row are added up, and so are those of a
list.
-/

namespace Foundation

universe u

/-- A computation that may fail or be stopped. -/
abbrev Halting (ε : Type u) := ExceptT ε Option

namespace Halting

variable {ε α β : Type u}

/-- The computation goes through with this value. -/
def Returns (computation : Halting ε α) (value : α) : Prop :=
  computation.run = some (.ok value)

/-- An operation of a build that may stop. -/
def ofOption (value : Option α) : Halting ε α := ExceptT.lift value

theorem returns_pure_iff {value value' : α} :
    (pure value : Halting ε α).Returns value' ↔ value = value' := by
  rw [Returns, ExceptT.run_pure]
  exact Option.some_inj.trans ⟨fun h => Except.ok.inj h, congrArg _⟩

theorem not_returns_throw (e : ε) (value : α) : ¬ (throw e : Halting ε α).Returns value := by
  intro h
  cases h

theorem returns_ofOption_iff {option : Option α} {value : α} :
    (ofOption option : Halting ε α).Returns value ↔ option = some value := by
  cases option with
  | none => exact iff_of_false (fun h => by cases h) (fun h => by cases h)
  | some a => exact returns_pure_iff.trans Option.some_inj.symm

theorem returns_bind_iff {first : Halting ε α} {next : α → Halting ε β} {value : β} :
    (first >>= next).Returns value ↔ ∃ a, first.Returns a ∧ (next a).Returns value := by
  rw [Returns, ExceptT.run_bind]
  constructor
  · intro h
    obtain ⟨result, hfirst, hnext⟩ := Option.bind_eq_some_iff.mp h
    cases result with
    | error e => cases hnext
    | ok a => exact ⟨a, hfirst, hnext⟩
  · rintro ⟨a, hfirst, hnext⟩
    exact Option.bind_eq_some_iff.mpr ⟨.ok a, hfirst, hnext⟩

def mapError (f : ε → ε) (computation : Halting ε α) : Halting ε α := ExceptT.adapt f computation

theorem returns_mapError_iff {f : ε → ε} {computation : Halting ε α} {value : α} :
    (computation.mapError f).Returns value ↔ computation.Returns value := by
  refine Option.map_eq_some_iff.trans ⟨?_, fun h => ⟨.ok value, h, rfl⟩⟩
  rintro ⟨result, hresult, hvalue⟩
  cases result with
  | error e => cases hvalue
  | ok a =>
      cases hvalue
      exact hresult

end Halting

section Metered

variable {ε σ ι : Type u} {M : Type*} [AddMonoid M] (meter : σ → M)

/-- Where the computation goes through, it adds this amount to the meter. -/
def Adds (computation : σ → Halting ε σ) (amount : M) : Prop :=
  ∀ s s', (computation s).Returns s' → meter s' = meter s + amount

variable {meter}

theorem adds_pure {update : σ → σ} {amount : M} (h : ∀ s, meter (update s) = meter s + amount) :
    Adds meter (fun s => (pure (update s) : Halting ε σ)) amount := by
  intro s s' hs
  rw [← Halting.returns_pure_iff.mp hs]
  exact h s

theorem Adds.of_bind {α : Type u} {first : σ → Halting ε α} {next : α → σ → Halting ε σ}
    {amount : M} (h : ∀ a, Adds meter (next a) amount) :
    Adds meter (fun s => first s >>= fun a => next a s) amount := by
  intro s s' hs
  obtain ⟨a, -, hnext⟩ := Halting.returns_bind_iff.mp hs
  exact h a s s' hnext

theorem Adds.bind {first next : σ → Halting ε σ} {amount amount' : M}
    (h : Adds meter first amount) (h' : Adds meter next amount') :
    Adds meter (fun s => first s >>= next) (amount + amount') := by
  intro s s' hs
  obtain ⟨t, hfirst, hnext⟩ := Halting.returns_bind_iff.mp hs
  rw [h' t s' hnext, h s t hfirst, add_assoc]

theorem adds_foldlM {step : σ → ι → Halting ε σ} {amount : ι → M}
    (h : ∀ i, Adds meter (fun s => step s i) (amount i)) (items : List ι) :
    Adds meter (fun s => items.foldlM step s) (items.map amount).sum := by
  induction items with
  | nil =>
      intro s s' hs
      rw [← Halting.returns_pure_iff.mp hs, List.map_nil, List.sum_nil, add_zero]
  | cons item items ih =>
      rw [List.map_cons, List.sum_cons]
      exact (h item).bind ih

end Metered

end Foundation

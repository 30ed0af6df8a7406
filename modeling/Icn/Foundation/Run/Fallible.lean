import Mathlib.Data.List.Forall2

/-!
# Computations that may fail

A chain of computations succeeds exactly when each of its links does. The rules
take a successful chain apart and put it together, over a bind, a guard and a
list.
-/

namespace Foundation

namespace Fallible

universe u v

variable {ε : Type u} {α β : Type v} {γ : Type*}

theorem bind_eq_ok_iff {first : Except ε α} {next : α → Except ε β} {value : β} :
    first >>= next = .ok value ↔ ∃ a, first = .ok a ∧ next a = .ok value := by
  cases first <;> simp [bind, Except.bind]

theorem map_eq_ok_iff {result : Except ε α} {f : α → γ} {value : γ} :
    result.map f = .ok value ↔ ∃ a, result = .ok a ∧ f a = value := by
  cases result <;> simp [Except.map]

/-- Naming the error differently changes no success. -/
theorem mapError_eq_ok_iff {ε' : Type*} {result : Except ε α} {f : ε → ε'} {value : α} :
    result.mapError f = .ok value ↔ result = .ok value := by
  cases result with
  | error e =>
      constructor
      · intro h
        cases h
      · intro h
        cases h
  | ok a =>
      constructor
      · intro h
        rw [Except.ok.inj h]
      · rintro ⟨⟩
        rfl

theorem mapM_map_eq_ok {read : α → Except ε β} {write : γ → α} {value : γ → β}
    (l : List γ) (h : ∀ a ∈ l, read (write a) = .ok (value a)) :
    (l.map write).mapM read = .ok (l.map value) := by
  induction l with
  | nil => rfl
  | cons a l ih =>
      rw [List.map_cons, List.mapM_cons, h a (by simp),
        ih fun b hb => h b (List.mem_cons_of_mem a hb)]
      rfl

theorem map_mapM {δ : Type v} {read : α → Except ε β} {f : β → δ} (l : List α) :
    (l.mapM read).map (List.map f) = l.mapM fun a => (read a).map f := by
  induction l with
  | nil => rfl
  | cons a l ih =>
      rw [List.mapM_cons, List.mapM_cons, ← ih]
      cases read a with
      | error e => rfl
      | ok b => cases l.mapM read <;> rfl

/-- A result is seen as a value exactly if it is a success that is seen so. -/
theorem toOption_map_eq_some_iff {result : Except ε α} {f : α → γ} {value : γ} :
    result.toOption.map f = some value ↔ result.map f = .ok value := by
  cases result <;> simp [Except.map, Except.toOption]

/-- A computation takes a list of items exactly when it takes each of them. -/
theorem mapM_eq_ok_iff {read : α → Except ε β} {l : List α} {values : List β} :
    l.mapM read = .ok values ↔ List.Forall₂ (fun a b => read a = .ok b) l values := by
  induction l generalizing values with
  | nil =>
      rw [List.mapM_nil, List.forall₂_nil_left_iff]
      exact ⟨fun h => (Except.ok.inj h).symm, fun h => by rw [h]; rfl⟩
  | cons a l ih =>
      rw [List.mapM_cons, List.forall₂_cons_left_iff, bind_eq_ok_iff]
      constructor
      · rintro ⟨b, hb, hrest⟩
        obtain ⟨bs, hbs, hvalues⟩ := bind_eq_ok_iff.mp hrest
        exact ⟨b, bs, hb, ih.mp hbs, (Except.ok.inj hvalues).symm⟩
      · rintro ⟨b, bs, hb, hbs, rfl⟩
        exact ⟨b, hb, bind_eq_ok_iff.mpr ⟨bs, ih.mpr hbs, rfl⟩⟩

/-- A fold whose step goes through on the items that are fine goes through on a list of
them. -/
theorem foldlM_eq_ok_iff {δ : Type v} {next : δ → α → Except ε δ} {step : δ → α → δ}
    {fine : α → Prop} (h : ∀ acc a out, next acc a = .ok out ↔ fine a ∧ step acc a = out)
    {l : List α} {acc out : δ} :
    l.foldlM next acc = .ok out ↔ (∀ a ∈ l, fine a) ∧ l.foldl step acc = out := by
  induction l generalizing acc with
  | nil =>
      rw [List.foldlM_nil, List.foldl_nil]
      constructor
      · intro hout
        exact ⟨by simp, Except.ok.inj hout⟩
      · rintro ⟨_, rfl⟩
        rfl
  | cons a l ih =>
      rw [List.foldlM_cons, bind_eq_ok_iff, List.foldl_cons, List.forall_mem_cons]
      constructor
      · rintro ⟨acc', hnext, hrest⟩
        obtain ⟨hfine, rfl⟩ := (h acc a acc').mp hnext
        exact ⟨⟨hfine, (ih.mp hrest).1⟩, (ih.mp hrest).2⟩
      · rintro ⟨⟨hfine, hl⟩, hout⟩
        exact ⟨step acc a, (h acc a _).mpr ⟨hfine, rfl⟩, ih.mpr ⟨hl, hout⟩⟩

end Fallible

end Foundation

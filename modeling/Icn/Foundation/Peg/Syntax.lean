import Mathlib.Data.List.Basic

/-!
# Parsing expressions

A grammar has an expression for every rule. The rules differ in what they leave behind and
in whether something may be skipped within: blanks between the parts of a sequence are
skipped unless an atomic rule is around it.
-/

namespace Foundation

namespace Peg

inductive Atomicity where
  | nonAtomic
  | atomic
  | compoundAtomic
deriving DecidableEq, Repr

/-- An atomic rule hides the rules within, a compound atomic one does not. -/
inductive Kind where
  | normal
  | atomic
  | compoundAtomic
  | silent
deriving DecidableEq, Repr

inductive Expr (R : Type) where
  | str (text : List Char)
  | test (p : Char → Bool)
  | seq (first second : Expr R)
  | choice (first second : Expr R)
  | many (body : Expr R)
  | not (body : Expr R)
  | call (rule : R)
  | skip

structure Grammar (R : Type) where
  kind : R → Kind
  body : R → Expr R
  skip : Expr R

variable {R : Type}

namespace Expr

def empty : Expr R := .str []

def char (c : Char) : Expr R := .test (· = c)

def any : Expr R := .test fun _ => true

def tie (first second : Expr R) : Expr R := .seq first (.seq .skip second)

def ties : List (Expr R) → Expr R
  | [] => empty
  | [e] => e
  | e :: e' :: es => tie e (ties (e' :: es))

def choices : List (Expr R) → Expr R
  | [] => .not empty
  | [e] => e
  | e :: e' :: es => .choice e (choices (e' :: es))

def opt (e : Expr R) : Expr R := .choice e empty

def star (e : Expr R) : Expr R := opt (.seq e (.many (.seq .skip e)))

def plus (e : Expr R) : Expr R := tie e (star e)

end Expr

namespace Atomicity

def inside (mode : Atomicity) : Kind → Atomicity
  | .atomic => .atomic
  | .compoundAtomic => .compoundAtomic
  | .normal => mode
  | .silent => mode

def records (mode : Atomicity) : Kind → Bool
  | .silent => false
  | .compoundAtomic => true
  | .normal => mode ≠ .atomic
  | .atomic => mode ≠ .atomic

end Atomicity

/-- What a rule leaves behind: the text that it took and what the rules within left. -/
inductive Pair (R : Type) where
  | mk (rule : R) (text : List Char) (inner : List (Pair R))

namespace Pair

def rule : Pair R → R
  | .mk rule _ _ => rule

def text : Pair R → List Char
  | .mk _ text _ => text

def inner : Pair R → List (Pair R)
  | .mk _ _ inner => inner

end Pair

/-- What an expression found: a text in front of the rest. -/
structure Match (R : Type) where
  pairs : List (Pair R)
  text : List Char
  rest : List Char

namespace Match

def nothing (s : List Char) : Match R := ⟨[], [], s⟩

def andThen (found next : Match R) : Match R :=
  ⟨found.pairs ++ next.pairs, found.text ++ next.text, next.rest⟩

def inRule (recorded : Bool) (rule : R) (found : Match R) : Match R :=
  if recorded then { found with pairs := [.mk rule found.text found.pairs] } else found

def before (found : Match R) (t : List Char) : Match R := { found with rest := found.rest ++ t }

@[simp] theorem andThen_pairs (found next : Match R) :
    (found.andThen next).pairs = found.pairs ++ next.pairs := rfl

@[simp] theorem andThen_text (found next : Match R) :
    (found.andThen next).text = found.text ++ next.text := rfl

@[simp] theorem andThen_rest (found next : Match R) : (found.andThen next).rest = next.rest := rfl

theorem andThen_assoc (first second third : Match R) :
    (first.andThen second).andThen third = first.andThen (second.andThen third) := by
  simp [andThen]

@[simp] theorem inRule_text (recorded : Bool) (rule : R) (found : Match R) :
    (found.inRule recorded rule).text = found.text := by
  unfold inRule
  split <;> rfl

@[simp] theorem inRule_rest (recorded : Bool) (rule : R) (found : Match R) :
    (found.inRule recorded rule).rest = found.rest := by
  unfold inRule
  split <;> rfl

@[simp] theorem inRule_false (rule : R) (found : Match R) : found.inRule false rule = found := rfl

end Match

inductive Outcome (R : Type) where
  | accept (found : Match R)
  | reject

namespace Outcome

def behind (found : Match R) : Outcome R → Outcome R
  | accept next => .accept (found.andThen next)
  | reject => .reject

def inRule (recorded : Bool) (rule : R) : Outcome R → Outcome R
  | accept found => .accept (found.inRule recorded rule)
  | reject => .reject

def negated (s : List Char) : Outcome R → Outcome R
  | accept _ => .reject
  | reject => .accept (.nothing s)

def before (t : List Char) : Outcome R → Outcome R
  | accept found => .accept (found.before t)
  | reject => .reject

end Outcome

def matchText (text s : List Char) : Outcome R :=
  if text.isPrefixOf s then .accept ⟨[], text, s.drop text.length⟩ else .reject

def matchTest (p : Char → Bool) : List Char → Outcome R
  | [] => .reject
  | c :: rest => if p c then .accept ⟨[], [c], rest⟩ else .reject

theorem of_matchText {text s : List Char} {found : Match R}
    (h : Outcome.accept found = matchText text s) : ∃ t, s = text ++ t ∧ found = ⟨[], text, t⟩ := by
  rw [matchText] at h
  split at h
  · next hprefix =>
      rcases List.isPrefixOf_iff_prefix.mp hprefix with ⟨t, rfl⟩
      rw [List.drop_left] at h
      exact ⟨t, rfl, Outcome.accept.inj h⟩
  · cases h

theorem of_matchTest {p : Char → Bool} {s : List Char} {found : Match R}
    (h : Outcome.accept found = matchTest p s) :
    ∃ c t, s = c :: t ∧ p c = true ∧ found = ⟨[], [c], t⟩ := by
  cases s with
  | nil => cases h
  | cons c t =>
      rw [matchTest] at h
      split at h
      · next hp => exact ⟨c, t, rfl, hp, Outcome.accept.inj h⟩
      · cases h

end Peg

end Foundation

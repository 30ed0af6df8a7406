import Icn.Foundation.Peg.Equivalence

/-!
# Texts that end at a delimiter

An expression that takes no delimiter sees it as the end of the input: what it does to a
text alone it does to the text in front of the delimiter.
-/

namespace Foundation

namespace Peg

variable {R : Type}

/-- An expression takes no delimiter, when the rules that it calls take none. -/
def avoids (d : Char) (rules : R → Bool) : Expr R → Bool
  | .str text => !text.contains d
  | .test p => !p d
  | .seq first second => avoids d rules first && avoids d rules second
  | .choice first second => avoids d rules first && avoids d rules second
  | .many body => avoids d rules body
  | .not body => avoids d rules body
  | .call rule => rules rule
  | .skip => true

/-- Some rules take no delimiter, and are atomic whatever is around them. -/
structure Avoids (g : Grammar R) (d : Char) (rules : R → Bool) : Prop where
  kind_ne : ∀ rule, rules rule = true → g.kind rule ≠ .compoundAtomic
  avoids_body : ∀ rule, rules rule = true → avoids d rules (g.body rule) = true

theorem isPrefixOf_append_delimiter {text : List Char} {d : Char} (h : d ∉ text)
    (s t : List Char) : text.isPrefixOf (s ++ d :: t) = text.isPrefixOf s := by
  induction text generalizing s with
  | nil => rfl
  | cons c text ih =>
      rw [List.mem_cons, not_or] at h
      cases s with
      | nil => simp [List.isPrefixOf, Ne.symm h.1]
      | cons c' s => rw [List.cons_append, List.isPrefixOf, List.isPrefixOf, ih h.2]

theorem matchText_append {text : List Char} {d : Char} (h : d ∉ text) (s t : List Char) :
    (matchText text (s ++ d :: t) : Outcome R) = (matchText text s).before (d :: t) := by
  rw [matchText, matchText, isPrefixOf_append_delimiter h]
  split
  · next hprefix =>
      rcases List.isPrefixOf_iff_prefix.mp hprefix with ⟨rest, rfl⟩
      rw [List.append_assoc, List.drop_left, List.drop_left]
      rfl
  · rfl

theorem matchTest_append {p : Char → Bool} {d : Char} (h : p d = false) (s t : List Char) :
    (matchTest p (s ++ d :: t) : Outcome R) = (matchTest p s).before (d :: t) := by
  cases s with
  | nil => simp [matchTest, h, Outcome.before]
  | cons c s =>
      rw [List.cons_append, matchTest, matchTest]
      split <;> rfl

section

variable {s t : List Char}

theorem Outcome.before_behind (t : List Char) (found : Match R) (next : Outcome R) :
    (next.behind found).before t = (next.before t).behind (found.before t) := by
  cases next <;> rfl

theorem Outcome.before_negated (t s : List Char) (outcome : Outcome R) :
    (outcome.negated s).before t = (outcome.before t).negated (s ++ t) := by
  cases outcome <;> rfl

theorem Outcome.before_inRule (t : List Char) (recorded : Bool) (rule : R)
    (outcome : Outcome R) :
    (outcome.inRule recorded rule).before t = (outcome.before t).inRule recorded rule := by
  cases outcome with
  | reject => rfl
  | accept found => cases recorded <;> rfl

end

/-- In front of a delimiter, the outcome is that of the text alone. -/
theorem Yields.before_delimiter {g : Grammar R} {d : Char} {rules : R → Bool}
    (hg : Avoids g d rules) {e : Expr R} {s : List Char} {outcome : Outcome R}
    (h : Yields g .atomic e s outcome) (he : avoids d rules e = true) (t : List Char) :
    Yields g .atomic e (s ++ d :: t) (outcome.before (d :: t)) := by
  generalize hmode : Atomicity.atomic = mode at h
  induction h with
  | str =>
      subst hmode
      rw [← matchText_append (by simpa [avoids] using he)]
      exact .str
  | test =>
      subst hmode
      rw [← matchTest_append (by simpa [avoids] using he)]
      exact .test
  | seq hfirst hsecond ihfirst ihsecond =>
      rw [avoids, Bool.and_eq_true] at he
      rw [Outcome.before_behind]
      exact .seq (ihfirst he.1 hmode) (ihsecond he.2 hmode)
  | seqReject hfirst ihfirst =>
      rw [avoids, Bool.and_eq_true] at he
      exact .seqReject (ihfirst he.1 hmode)
  | choice hfirst ihfirst =>
      rw [avoids, Bool.and_eq_true] at he
      exact .choice (ihfirst he.1 hmode)
  | choiceReject hfirst hsecond ihfirst ihsecond =>
      rw [avoids, Bool.and_eq_true] at he
      exact .choiceReject (ihfirst he.1 hmode) (ihsecond he.2 hmode)
  | many hbody hrest ihbody ihrest =>
      rw [Outcome.before_behind]
      exact .many (ihbody he hmode) (ihrest he hmode)
  | manyReject hbody ihbody => exact .manyReject (ihbody he hmode)
  | not hbody ihbody =>
      rw [Outcome.before_negated]
      exact .not (ihbody he hmode)
  | call hbody ihbody =>
      rename_i rule s outcome
      rw [Outcome.before_inRule]
      refine .call (ihbody (hg.avoids_body rule he) ?_)
      subst hmode
      have hkind := hg.kind_ne rule he
      cases hrule : g.kind rule with
      | compoundAtomic => exact absurd hrule hkind
      | normal => rfl
      | atomic => rfl
      | silent => rfl
  | skip hskip ihskip => cases hmode
  | skipNothing hne => exact .skipNothing hne

end Peg

end Foundation

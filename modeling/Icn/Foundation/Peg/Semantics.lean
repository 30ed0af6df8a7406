import Icn.Foundation.Peg.Syntax

/-!
# What a parsing expression takes

`Yields` relates an expression and an input to an outcome. A choice is made once: when an
alternative succeeds, the later ones are not tried. An expression that runs for ever has no
outcome, and no expression has two (`Yields.unique`).
-/

namespace Foundation

namespace Peg

variable {R : Type}

inductive Yields (g : Grammar R) : Atomicity → Expr R → List Char → Outcome R → Prop
  | str {mode text s} : Yields g mode (.str text) s (matchText text s)
  | test {mode p s} : Yields g mode (.test p) s (matchTest p s)
  | seq {mode first second s found outcome} (hfirst : Yields g mode first s (.accept found))
      (hsecond : Yields g mode second found.rest outcome) :
      Yields g mode (.seq first second) s (outcome.behind found)
  | seqReject {mode first second s} (hfirst : Yields g mode first s .reject) :
      Yields g mode (.seq first second) s .reject
  | choice {mode first second s found} (hfirst : Yields g mode first s (.accept found)) :
      Yields g mode (.choice first second) s (.accept found)
  | choiceReject {mode first second s outcome} (hfirst : Yields g mode first s .reject)
      (hsecond : Yields g mode second s outcome) : Yields g mode (.choice first second) s outcome
  | many {mode body s found outcome} (hbody : Yields g mode body s (.accept found))
      (hrest : Yields g mode (.many body) found.rest outcome) :
      Yields g mode (.many body) s (outcome.behind found)
  | manyReject {mode body s} (hbody : Yields g mode body s .reject) :
      Yields g mode (.many body) s (.accept (.nothing s))
  | not {mode body s outcome} (hbody : Yields g mode body s outcome) :
      Yields g mode (.not body) s (outcome.negated s)
  | call {mode rule s outcome}
      (hbody : Yields g (mode.inside (g.kind rule)) (g.body rule) s outcome) :
      Yields g mode (.call rule) s (outcome.inRule (mode.records (g.kind rule)) rule)
  | skip {s outcome} (hskip : Yields g .atomic g.skip s outcome) :
      Yields g .nonAtomic .skip s outcome
  | skipNothing {mode s} (hmode : mode ≠ .nonAtomic) :
      Yields g mode .skip s (.accept (.nothing s))

variable {g : Grammar R} {mode : Atomicity} {s : List Char} {outcome : Outcome R}

/-! ### What an outcome comes from -/

namespace Yields

theorem of_str {text : List Char} (h : Yields g mode (.str text) s outcome) :
    outcome = matchText text s := by
  cases h
  rfl

theorem of_test {p : Char → Bool} (h : Yields g mode (.test p) s outcome) :
    outcome = matchTest p s := by
  cases h
  rfl

theorem of_seq {first second : Expr R} (h : Yields g mode (.seq first second) s outcome) :
    (Yields g mode first s .reject ∧ outcome = .reject) ∨
      ∃ found next, Yields g mode first s (.accept found) ∧
        Yields g mode second found.rest next ∧ outcome = next.behind found := by
  cases h with
  | seq hfirst hsecond => exact .inr ⟨_, _, hfirst, hsecond, rfl⟩
  | seqReject hfirst => exact .inl ⟨hfirst, rfl⟩

theorem of_choice {first second : Expr R} (h : Yields g mode (.choice first second) s outcome) :
    (∃ found, Yields g mode first s (.accept found) ∧ outcome = .accept found) ∨
      (Yields g mode first s .reject ∧ Yields g mode second s outcome) := by
  cases h with
  | choice hfirst => exact .inl ⟨_, hfirst, rfl⟩
  | choiceReject hfirst hsecond => exact .inr ⟨hfirst, hsecond⟩

theorem of_many {body : Expr R} (h : Yields g mode (.many body) s outcome) :
    (Yields g mode body s .reject ∧ outcome = .accept (.nothing s)) ∨
      ∃ found next, Yields g mode body s (.accept found) ∧
        Yields g mode (.many body) found.rest next ∧ outcome = next.behind found := by
  cases h with
  | many hbody hrest => exact .inr ⟨_, _, hbody, hrest, rfl⟩
  | manyReject hbody => exact .inl ⟨hbody, rfl⟩

theorem of_not {body : Expr R} (h : Yields g mode (.not body) s outcome) :
    ∃ inner, Yields g mode body s inner ∧ outcome = inner.negated s := by
  cases h with
  | not hbody => exact ⟨_, hbody, rfl⟩

theorem of_call {rule : R} (h : Yields g mode (.call rule) s outcome) :
    ∃ inner, Yields g (mode.inside (g.kind rule)) (g.body rule) s inner ∧
      outcome = inner.inRule (mode.records (g.kind rule)) rule := by
  cases h with
  | call hbody => exact ⟨_, hbody, rfl⟩

theorem of_skip (h : Yields g .nonAtomic .skip s outcome) : Yields g .atomic g.skip s outcome := by
  cases h with
  | skip hskip => exact hskip
  | skipNothing hmode => exact absurd rfl hmode

theorem of_skip_nothing (hmode : mode ≠ .nonAtomic) (h : Yields g mode .skip s outcome) :
    outcome = .accept (.nothing s) := by
  cases h with
  | skip _ => exact absurd rfl hmode
  | skipNothing _ => rfl

theorem unique {e : Expr R} {outcome' : Outcome R} (h : Yields g mode e s outcome)
    (h' : Yields g mode e s outcome') : outcome = outcome' := by
  induction h generalizing outcome' with
  | str => exact h'.of_str.symm
  | test => exact h'.of_test.symm
  | seq hfirst hsecond ihfirst ihsecond =>
      rcases h'.of_seq with ⟨hreject, -⟩ | ⟨found', next', hfirst', hsecond', rfl⟩
      · cases ihfirst hreject
      · cases ihfirst hfirst'
        rw [ihsecond hsecond']
  | seqReject hfirst ihfirst =>
      rcases h'.of_seq with ⟨-, rfl⟩ | ⟨found', next', hfirst', -, -⟩
      · rfl
      · cases ihfirst hfirst'
  | choice hfirst ihfirst =>
      rcases h'.of_choice with ⟨found', hfirst', rfl⟩ | ⟨hreject, -⟩
      · exact ihfirst hfirst'
      · cases ihfirst hreject
  | choiceReject hfirst hsecond ihfirst ihsecond =>
      rcases h'.of_choice with ⟨found', hfirst', -⟩ | ⟨-, hsecond'⟩
      · cases ihfirst hfirst'
      · exact ihsecond hsecond'
  | many hbody hrest ihbody ihrest =>
      rcases h'.of_many with ⟨hreject, -⟩ | ⟨found', next', hbody', hrest', rfl⟩
      · cases ihbody hreject
      · cases ihbody hbody'
        rw [ihrest hrest']
  | manyReject hbody ihbody =>
      rcases h'.of_many with ⟨-, rfl⟩ | ⟨found', next', hbody', -, -⟩
      · rfl
      · cases ihbody hbody'
  | not hbody ihbody =>
      rcases h'.of_not with ⟨inner, hbody', rfl⟩
      rw [ihbody hbody']
  | call hbody ihbody =>
      rcases h'.of_call with ⟨inner, hbody', rfl⟩
      rw [ihbody hbody']
  | skip hskip ihskip => exact ihskip h'.of_skip
  | skipNothing hmode => exact (of_skip_nothing hmode h').symm

theorem text_append_rest {e : Expr R} {found : Match R}
    (h : Yields g mode e s (.accept found)) : found.text ++ found.rest = s := by
  generalize hout : Outcome.accept found = outcome at h
  induction h generalizing found with
  | str =>
      rcases of_matchText hout with ⟨t, rfl, rfl⟩
      rfl
  | test =>
      rcases of_matchTest hout with ⟨c, t, rfl, -, rfl⟩
      rfl
  | seq hfirst hsecond ihfirst ihsecond =>
      rename_i next
      cases next with
      | reject => cases hout
      | accept next =>
          cases hout
          rw [Match.andThen_text, Match.andThen_rest, List.append_assoc, ihsecond rfl, ihfirst rfl]
  | seqReject hfirst ihfirst => cases hout
  | choice hfirst ihfirst => exact ihfirst hout
  | choiceReject hfirst hsecond ihfirst ihsecond => exact ihsecond hout
  | many hbody hrest ihbody ihrest =>
      rename_i next
      cases next with
      | reject => cases hout
      | accept next =>
          cases hout
          rw [Match.andThen_text, Match.andThen_rest, List.append_assoc, ihrest rfl, ihbody rfl]
  | manyReject hbody ihbody =>
      cases hout
      rfl
  | not hbody ihbody =>
      rename_i inner
      cases inner with
      | accept _ => cases hout
      | reject =>
          cases hout
          rfl
  | call hbody ihbody =>
      rename_i inner
      cases inner with
      | reject => cases hout
      | accept inner =>
          cases hout
          rw [Match.inRule_text, Match.inRule_rest, ihbody rfl]
  | skip hskip ihskip => exact ihskip hout
  | skipNothing hmode =>
      cases hout
      rfl

end Yields

end Peg

end Foundation

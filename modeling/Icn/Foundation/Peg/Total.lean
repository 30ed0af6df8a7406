import Icn.Foundation.Peg.Semantics

/-!
# Grammars whose expressions always have an outcome

A grammar runs for ever when a rule comes back to itself before it took a character, or when
something that takes nothing is repeated. A `Measure` excludes both: it says which rules may
take nothing and ranks the rules, so that a rule is entered without progress only from a rule
of higher rank.
-/

namespace Foundation

namespace Peg

variable {R : Type}

/-- Which rules may take nothing, and how the rules are ranked. What is skipped has a rank
of its own, and all of them are below the top. -/
structure Measure (R : Type) where
  nullable : R → Bool
  rank : R → ℕ
  skipRank : ℕ
  top : ℕ

namespace Measure

variable (μ : Measure R)

/-- An expression may take nothing. -/
def nullableExpr : Expr R → Bool
  | .str text => text.isEmpty
  | .test _ => false
  | .seq first second => nullableExpr first && nullableExpr second
  | .choice first second => nullableExpr first || nullableExpr second
  | .many _ => true
  | .not _ => true
  | .call rule => μ.nullable rule
  | .skip => true

/-- Before an expression took a character, it enters only rules below a bound. -/
def guarded (bound : ℕ) : Expr R → Bool
  | .str _ => true
  | .test _ => true
  | .seq first second =>
      guarded bound first && guarded (if μ.nullableExpr first then bound else μ.top) second
  | .choice first second => guarded bound first && guarded bound second
  | .many body => !μ.nullableExpr body && guarded bound body
  | .not body => guarded bound body
  | .call rule => μ.rank rule < bound
  | .skip => μ.skipRank < bound

end Measure

/-- A measure fits a grammar. -/
structure WellFormed (g : Grammar R) (μ : Measure R) : Prop where
  nullable_body : ∀ rule, μ.nullableExpr (g.body rule) = true → μ.nullable rule = true
  guarded_body : ∀ rule, μ.guarded (μ.rank rule) (g.body rule) = true
  guarded_skip : μ.guarded μ.skipRank g.skip = true
  rank_le : ∀ rule, μ.rank rule ≤ μ.top
  skipRank_le : μ.skipRank ≤ μ.top

variable {g : Grammar R} {μ : Measure R}

theorem Yields.rest_length_le {mode : Atomicity} {e : Expr R} {s : List Char} {found : Match R}
    (h : Yields g mode e s (.accept found)) : found.rest.length ≤ s.length := by
  rw [← h.text_append_rest]
  simp

namespace WellFormed

variable (hwf : WellFormed g μ)

include hwf

theorem text_ne_nil {mode : Atomicity} {e : Expr R} {s : List Char} {found : Match R}
    (h : Yields g mode e s (.accept found)) (he : μ.nullableExpr e = false) :
    found.text ≠ [] := by
  generalize hout : Outcome.accept found = outcome at h
  induction h generalizing found with
  | str =>
      rcases of_matchText hout with ⟨t, rfl, rfl⟩
      simpa [Measure.nullableExpr] using he
  | test =>
      rcases of_matchTest hout with ⟨c, t, rfl, -, rfl⟩
      simp
  | seq hfirst hsecond ihfirst ihsecond =>
      rename_i next
      cases next with
      | reject => cases hout
      | accept next =>
          cases hout
          rw [Measure.nullableExpr, Bool.and_eq_false_iff] at he
          rcases he with he | he
          · simp [ihfirst he rfl]
          · simp [ihsecond he rfl]
  | seqReject hfirst ihfirst => cases hout
  | choice hfirst ihfirst =>
      rw [Measure.nullableExpr, Bool.or_eq_false_iff] at he
      exact ihfirst he.1 hout
  | choiceReject hfirst hsecond ihfirst ihsecond =>
      rw [Measure.nullableExpr, Bool.or_eq_false_iff] at he
      exact ihsecond he.2 hout
  | many hbody hrest ihbody ihrest => cases he
  | manyReject hbody ihbody => cases he
  | not hbody ihbody => cases he
  | call hbody ihbody =>
      rename_i rule s inner
      cases inner with
      | reject => cases hout
      | accept inner =>
          cases hout
          rw [Match.inRule_text]
          refine ihbody ?_ rfl
          rw [← Bool.not_eq_true] at he ⊢
          exact fun hnull => he (hwf.nullable_body rule hnull)
  | skip hskip ihskip => cases he
  | skipNothing hmode => cases he

theorem rest_length_lt {mode : Atomicity} {e : Expr R} {s : List Char} {found : Match R}
    (h : Yields g mode e s (.accept found)) (he : μ.nullableExpr e = false) :
    found.rest.length < s.length := by
  have hpos := List.length_pos_of_ne_nil (hwf.text_ne_nil h he)
  rw [← h.text_append_rest, List.length_append]
  omega

theorem exists_yields_of_guarded (n bound : ℕ) (hbound : bound ≤ μ.top) {e : Expr R}
    (he : μ.guarded bound e = true) (mode : Atomicity) {s : List Char} (hs : s.length < n) :
    ∃ outcome, Yields g mode e s outcome := by
  induction n generalizing bound e mode s with
  | zero => exact absurd hs (Nat.not_lt_zero _)
  | succ n ihn =>
  induction bound using Nat.strongRecOn generalizing e mode s with
  | ind bound ihbound =>
  induction e generalizing mode s with
  | str text => exact ⟨_, .str⟩
  | test p => exact ⟨_, .test⟩
  | seq first second ihfirst ihsecond =>
      simp only [Measure.guarded, Bool.and_eq_true] at he
      rcases ihfirst he.1 mode hs with ⟨outcome, hfirst⟩
      cases outcome with
      | reject => exact ⟨_, .seqReject hfirst⟩
      | accept found =>
          have hle := hfirst.rest_length_le
          have hnext : ∃ next, Yields g mode second found.rest next := by
            cases hnull : μ.nullableExpr first with
            | true =>
                rw [hnull, if_pos rfl] at he
                exact ihsecond he.2 mode (by omega)
            | false =>
                rw [hnull, if_neg (by simp)] at he
                have hlt := hwf.rest_length_lt hfirst hnull
                exact ihn μ.top (Nat.le_refl _) he.2 mode (by omega)
          rcases hnext with ⟨next, hnext⟩
          exact ⟨_, .seq hfirst hnext⟩
  | choice first second ihfirst ihsecond =>
      simp only [Measure.guarded, Bool.and_eq_true] at he
      rcases ihfirst he.1 mode hs with ⟨outcome, hfirst⟩
      cases outcome with
      | accept found => exact ⟨_, .choice hfirst⟩
      | reject =>
          rcases ihsecond he.2 mode hs with ⟨next, hsecond⟩
          exact ⟨_, .choiceReject hfirst hsecond⟩
  | many body ihbody =>
      have hparts := he
      simp only [Measure.guarded, Bool.and_eq_true, Bool.not_eq_true'] at hparts
      rcases ihbody hparts.2 mode hs with ⟨outcome, hbody⟩
      cases outcome with
      | reject => exact ⟨_, .manyReject hbody⟩
      | accept found =>
          have hlt := hwf.rest_length_lt hbody hparts.1
          rcases ihn bound hbound he mode (show found.rest.length < n by omega) with ⟨next, hrest⟩
          exact ⟨_, .many hbody hrest⟩
  | not body ihbody =>
      rcases ihbody he mode hs with ⟨outcome, hbody⟩
      exact ⟨_, .not hbody⟩
  | call rule =>
      simp only [Measure.guarded, decide_eq_true_eq] at he
      rcases ihbound _ he (hwf.rank_le rule) (hwf.guarded_body rule)
        (mode.inside (g.kind rule)) hs with ⟨outcome, hbody⟩
      exact ⟨_, .call hbody⟩
  | skip =>
      simp only [Measure.guarded, decide_eq_true_eq] at he
      by_cases hmode : mode = .nonAtomic
      · subst hmode
        rcases ihbound _ he hwf.skipRank_le hwf.guarded_skip .atomic hs with ⟨outcome, hskip⟩
        exact ⟨_, .skip hskip⟩
      · exact ⟨_, .skipNothing hmode⟩

theorem existsUnique_yields {e : Expr R} (he : μ.guarded μ.top e = true) (mode : Atomicity)
    (s : List Char) : ∃! outcome, Yields g mode e s outcome := by
  rcases hwf.exists_yields_of_guarded _ μ.top (Nat.le_refl _) he mode
    (Nat.lt_succ_self s.length) with ⟨outcome, h⟩
  exact ⟨outcome, h, fun _ h' => h'.unique h⟩

end WellFormed

end Peg

end Foundation

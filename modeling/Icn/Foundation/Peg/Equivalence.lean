import Icn.Foundation.Peg.Semantics

/-!
# Rules for parsing expressions

Rules for the derived operators, and expressions that have the same outcomes. Within atomic
rules nothing is skipped, so the repetitions of a grammar become plain ones
(`SameOutcomes.star`), and a repeated test takes as much as it can (`accepts_many_test`).
-/

namespace Foundation

namespace Peg

variable {R : Type}

abbrev Accepts (g : Grammar R) (mode : Atomicity) (e : Expr R) (s : List Char)
    (found : Match R) : Prop :=
  Yields g mode e s (.accept found)

abbrev Rejects (g : Grammar R) (mode : Atomicity) (e : Expr R) (s : List Char) : Prop :=
  Yields g mode e s .reject

section Rules

variable {g : Grammar R} {mode : Atomicity} {e first second : Expr R} {s : List Char}
  {found next between : Match R}

theorem accepts_str (text t : List Char) :
    Accepts g mode (.str text) (text ++ t) ⟨[], text, t⟩ := by
  have h : matchText text (text ++ t) = (.accept ⟨[], text, t⟩ : Outcome R) := by
    rw [matchText, if_pos (List.isPrefixOf_iff_prefix.mpr (List.prefix_append text t)),
      List.drop_left]
  rw [Accepts, ← h]
  exact .str

theorem rejects_str {text : List Char} (h : ¬ text <+: s) : Rejects g mode (.str text) s := by
  have h : matchText text s = (.reject : Outcome R) :=
    if_neg fun hprefix => h (List.isPrefixOf_iff_prefix.mp hprefix)
  rw [Rejects, ← h]
  exact .str

theorem accepts_call (g : Grammar R) (mode : Atomicity) (rule : R)
    (h : Accepts g (mode.inside (g.kind rule)) (g.body rule) s found) :
    Accepts g mode (.call rule) s (found.inRule (mode.records (g.kind rule)) rule) :=
  .call h

theorem rejects_call (g : Grammar R) (mode : Atomicity) (rule : R)
    (h : Rejects g (mode.inside (g.kind rule)) (g.body rule) s) :
    Rejects g mode (.call rule) s :=
  .call h

theorem accepts_empty (s : List Char) : Accepts g mode .empty s (.nothing s) :=
  accepts_str [] s

theorem accepts_test {p : Char → Bool} {c : Char} (h : p c = true) (t : List Char) :
    Accepts g mode (.test p) (c :: t) ⟨[], [c], t⟩ := by
  have h : matchTest p (c :: t) = (.accept ⟨[], [c], t⟩ : Outcome R) := if_pos h
  rw [Accepts, ← h]
  exact .test

theorem rejects_test {p : Char → Bool} (h : ∀ c ∈ s.head?, p c = false) :
    Rejects g mode (.test p) s := by
  have h : matchTest p s = (.reject : Outcome R) := by
    cases s with
    | nil => rfl
    | cons c t => exact if_neg (by simp [h c rfl])
  rw [Rejects, ← h]
  exact .test

namespace Yields

theorem opt (h : Accepts g mode e s found) : Accepts g mode (.opt e) s found :=
  .choice h

theorem optReject (h : Rejects g mode e s) : Accepts g mode (.opt e) s (.nothing s) :=
  .choiceReject h (accepts_empty s)

theorem tie {outcome : Outcome R} (hfirst : Accepts g mode first s found)
    (hskip : Accepts g mode .skip found.rest between)
    (hsecond : Yields g mode second between.rest outcome) :
    Yields g mode (.tie first second) s ((outcome.behind between).behind found) :=
  .seq hfirst (.seq hskip hsecond)

theorem tieReject (h : Rejects g mode first s) : Rejects g mode (.tie first second) s :=
  .seqReject h

theorem starReject (h : Rejects g mode e s) : Accepts g mode (.star e) s (.nothing s) :=
  optReject (.seqReject h)

end Yields

theorem accepts_of_many {outcome : Outcome R} (h : Yields g mode (.many e) s outcome) :
    ∃ found, outcome = .accept found := by
  generalize hmany : Expr.many e = b at h
  induction h with
  | many hbody hrest _ ihrest =>
      rcases ihrest hmany with ⟨next, rfl⟩
      exact ⟨_, rfl⟩
  | manyReject hbody _ => exact ⟨_, rfl⟩
  | _ => cases hmany

theorem not_rejects_many : ¬ Rejects g mode (.many e) s := by
  intro h
  rcases accepts_of_many h with ⟨_, h⟩
  cases h

theorem many_of_same {e' : Expr R} {outcome : Outcome R}
    (he : ∀ s outcome, Yields g mode e s outcome → Yields g mode e' s outcome)
    (h : Yields g mode (.many e) s outcome) : Yields g mode (.many e') s outcome := by
  generalize hmany : Expr.many e = b at h
  induction h with
  | many hbody hrest _ ihrest =>
      cases hmany
      exact .many (he _ _ hbody) (ihrest he rfl)
  | manyReject hbody _ =>
      cases hmany
      exact .manyReject (he _ _ hbody)
  | _ => cases hmany

theorem accepts_choices (before after : List (Expr R))
    (hbefore : ∀ e ∈ before, Rejects g mode e s) (h : Accepts g mode e s found) :
    Accepts g mode (.choices (before ++ e :: after)) s found := by
  induction before with
  | nil =>
      cases after with
      | nil => exact h
      | cons e' after => exact .choice h
  | cons e' before ih =>
      have hrest := ih fun e'' he'' => hbefore e'' (by simp [he''])
      have he' := hbefore e' (by simp)
      cases before with
      | nil => exact .choiceReject he' hrest
      | cons e'' before => exact .choiceReject he' hrest

theorem rejects_choices {es : List (Expr R)} (hes : es ≠ [])
    (h : ∀ e ∈ es, Rejects g mode e s) : Rejects g mode (.choices es) s := by
  induction es with
  | nil => exact absurd rfl hes
  | cons e es ih =>
      cases es with
      | nil => exact h e (by simp)
      | cons e' es =>
          exact .choiceReject (h e (by simp))
            (ih (by simp) fun e'' he'' => h e'' (List.mem_cons_of_mem e he''))

end Rules

/-! ### The same outcomes -/

def SameOutcomes (g : Grammar R) (mode : Atomicity) (e e' : Expr R) : Prop :=
  ∀ s outcome, Yields g mode e s outcome ↔ Yields g mode e' s outcome

namespace SameOutcomes

variable {g : Grammar R} {mode : Atomicity} {e e' e'' first first' second second' : Expr R}

theorem refl (e : Expr R) : SameOutcomes g mode e e := fun _ _ => Iff.rfl

theorem symm (h : SameOutcomes g mode e e') : SameOutcomes g mode e' e :=
  fun s outcome => (h s outcome).symm

theorem trans (h : SameOutcomes g mode e e') (h' : SameOutcomes g mode e' e'') :
    SameOutcomes g mode e e'' :=
  fun s outcome => (h s outcome).trans (h' s outcome)

theorem seq (hfirst : SameOutcomes g mode first first')
    (hsecond : SameOutcomes g mode second second') :
    SameOutcomes g mode (.seq first second) (.seq first' second') := by
  have one : ∀ {a a' b b' : Expr R}, SameOutcomes g mode a a' → SameOutcomes g mode b b' →
      ∀ s outcome, Yields g mode (.seq a b) s outcome → Yields g mode (.seq a' b') s outcome := by
    intro a a' b b' ha hb s outcome h
    rcases h.of_seq with ⟨hreject, rfl⟩ | ⟨found, next, hfound, hnext, rfl⟩
    · exact .seqReject ((ha _ _).mp hreject)
    · exact .seq ((ha _ _).mp hfound) ((hb _ _).mp hnext)
  exact fun s outcome => ⟨one hfirst hsecond s outcome, one hfirst.symm hsecond.symm s outcome⟩

theorem choice (hfirst : SameOutcomes g mode first first')
    (hsecond : SameOutcomes g mode second second') :
    SameOutcomes g mode (.choice first second) (.choice first' second') := by
  have one : ∀ {a a' b b' : Expr R}, SameOutcomes g mode a a' → SameOutcomes g mode b b' →
      ∀ s outcome, Yields g mode (.choice a b) s outcome →
        Yields g mode (.choice a' b') s outcome := by
    intro a a' b b' ha hb s outcome h
    rcases h.of_choice with ⟨found, hfound, rfl⟩ | ⟨hreject, hnext⟩
    · exact .choice ((ha _ _).mp hfound)
    · exact .choiceReject ((ha _ _).mp hreject) ((hb _ _).mp hnext)
  exact fun s outcome => ⟨one hfirst hsecond s outcome, one hfirst.symm hsecond.symm s outcome⟩

theorem many (h : SameOutcomes g mode e e') : SameOutcomes g mode (.many e) (.many e') :=
  fun _ _ => ⟨many_of_same fun s o => (h s o).mp, many_of_same fun s o => (h s o).mpr⟩

theorem not (h : SameOutcomes g mode e e') : SameOutcomes g mode (.not e) (.not e') := by
  have one : ∀ {a a' : Expr R}, SameOutcomes g mode a a' → ∀ s outcome,
      Yields g mode (.not a) s outcome → Yields g mode (.not a') s outcome := by
    intro a a' ha s outcome h
    rcases h.of_not with ⟨inner, hinner, rfl⟩
    exact .not ((ha _ _).mp hinner)
  exact fun s outcome => ⟨one h s outcome, one h.symm s outcome⟩

/-- Nothing is skipped within atomic rules. -/
theorem seq_skip (hmode : mode ≠ .nonAtomic) (e : Expr R) :
    SameOutcomes g mode (.seq .skip e) e := by
  intro s outcome
  constructor
  · intro h
    rcases h.of_seq with ⟨hreject, -⟩ | ⟨found, next, hfound, hnext, rfl⟩
    · cases Yields.of_skip_nothing hmode hreject
    · cases Yields.of_skip_nothing hmode hfound
      cases next <;> exact hnext
  · intro h
    have hseq := Yields.seq (Yields.skipNothing hmode) h
    cases outcome <;> exact hseq

theorem tie (hmode : mode ≠ .nonAtomic) (hfirst : SameOutcomes g mode first first')
    (hsecond : SameOutcomes g mode second second') :
    SameOutcomes g mode (.tie first second) (.seq first' second') :=
  hfirst.seq ((seq_skip hmode second).trans hsecond)

theorem star (hmode : mode ≠ .nonAtomic) (h : SameOutcomes g mode e e') :
    SameOutcomes g mode (.star e) (.many e') := by
  have hinner : SameOutcomes g mode (.star e) (.opt (.seq e' (.many e'))) :=
    (h.seq ((seq_skip hmode e).trans h).many).choice (refl _)
  refine hinner.trans fun s outcome => ?_
  constructor
  · intro hopt
    rcases hopt.of_choice with ⟨found, hfound, rfl⟩ | ⟨hreject, hempty⟩
    · rcases hfound.of_seq with ⟨-, hout⟩ | ⟨first, next, hfirst, hnext, hout⟩
      · cases hout
      · rw [hout]
        exact .many hfirst hnext
    · rcases hreject.of_seq with ⟨hfirst, -⟩ | ⟨first, next, hfirst, hnext, hout⟩
      · rw [hempty.unique (accepts_empty s)]
        exact .manyReject hfirst
      · cases next with
        | accept _ => cases hout
        | reject => exact absurd hnext not_rejects_many
  · intro hmany
    rcases hmany.of_many with ⟨hreject, rfl⟩ | ⟨found, next, hfound, hnext, rfl⟩
    · exact Yields.optReject (.seqReject hreject)
    · cases next with
      | accept next => exact .choice (.seq hfound hnext)
      | reject => exact absurd hnext not_rejects_many

theorem of_forall {e' : Expr R} {f : List Char → Outcome R} (h : ∀ s, Yields g mode e s (f s))
    (h' : ∀ s, Yields g mode e' s (f s)) : SameOutcomes g mode e e' :=
  fun s _ => ⟨fun hs => hs.unique (h s) ▸ h' s, fun hs => hs.unique (h' s) ▸ h s⟩

theorem choice_test (p q : Char → Bool) :
    SameOutcomes g mode (.choice (.test p) (.test q)) (.test fun c => p c || q c) := by
  refine of_forall (f := matchTest fun c => p c || q c) (fun s => ?_) fun _ => .test
  cases s with
  | nil => exact .choiceReject (rejects_test (by simp)) .test
  | cons c t =>
      cases hp : p c with
      | true => simpa [matchTest, hp] using Yields.choice (accepts_test (g := g) hp t)
      | false =>
          have hreject : Rejects g mode (.test p) (c :: t) := rejects_test (by simp [hp])
          simpa [matchTest, hp] using Yields.choiceReject hreject (.test (p := q))

theorem str_singleton (c : Char) : SameOutcomes g mode (.str [c]) (.char c) := by
  refine of_forall (f := matchTest (· = c)) (fun s => ?_) fun _ => .test
  have h : matchTest (fun c' => decide (c' = c)) s = (matchText [c] s : Outcome R) := by
    cases s with
    | nil => rfl
    | cons c' s =>
        by_cases hc : c' = c
        · subst hc
          simp [matchTest, matchText]
        · simp [matchTest, matchText, hc, Ne.symm hc]
  rw [h]
  exact .str

theorem choices_chars (cs : List Char) (hcs : cs ≠ []) :
    SameOutcomes g mode (.choices (cs.map fun c => .str [c])) (.test fun c => cs.contains c) := by
  induction cs with
  | nil => exact absurd rfl hcs
  | cons c cs ih =>
      cases cs with
      | nil => simpa [Expr.choices, Expr.char] using str_singleton c
      | cons c' cs =>
          refine ((str_singleton c).choice (ih (by simp))).trans ((choice_test _ _).trans ?_)
          simpa using refl _

theorem not_test_any (p : Char → Bool) :
    SameOutcomes g mode (.seq (.not (.test p)) .any) (.test fun c => !p c) := by
  refine of_forall (f := matchTest fun c => !p c) (fun s => ?_) fun _ => .test
  cases s with
  | nil =>
      have hnot : Accepts g mode (.not (.test p)) [] (.nothing []) := .not (rejects_test (by simp))
      exact .seq hnot .test
  | cons c t =>
      cases hp : p c with
      | true =>
          have hnot : Rejects g mode (.not (.test p)) (c :: t) := .not (accepts_test hp t)
          simpa [matchTest, hp] using Yields.seqReject hnot
      | false =>
          have hnot : Accepts g mode (.not (.test p)) (c :: t) (.nothing (c :: t)) :=
            .not (rejects_test (by simp [hp]))
          rw [matchTest, if_pos (by simp [hp])]
          exact .seq hnot (accepts_test rfl t)

end SameOutcomes

/-- A repeated test takes every character up to the first that fails. -/
theorem accepts_many_test (g : Grammar R) (mode : Atomicity) (p : Char → Bool) (s : List Char) :
    Accepts g mode (.many (.test p)) s ⟨[], s.takeWhile p, s.dropWhile p⟩ := by
  induction s with
  | nil => exact .manyReject (rejects_test (by simp))
  | cons c t ih =>
      cases hp : p c with
      | true =>
          simpa [hp, Outcome.behind, Match.andThen] using
            Yields.many (accepts_test (g := g) hp t) ih
      | false =>
          have hreject : Rejects g mode (.test p) (c :: t) := rejects_test (by simp [hp])
          simpa [hp, Match.nothing] using Yields.manyReject hreject

end Peg

end Foundation

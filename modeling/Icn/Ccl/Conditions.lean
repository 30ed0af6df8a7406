import Icn.Foundation.Peg.Front
import Icn.Ccl.Operands

/-!
# Conditions of conditionals

A conditional whose operands stand between blanks is taken with its condition as it was
written, for four of the six operators. The other two begin with an operator that the
grammar tries before them, and what is left of them begins no operand.
-/

open Foundation Peg

namespace Icn

namespace Ccl

open GrammarRule

/-! ### Blanks -/

def NotSkipped (s : List Char) : Prop := ∀ c ∈ s.head?, c ∉ [' ', '\t', '\r', '\n', '/']

section Blanks

variable {s : List Char}

theorem rejects_comment (hs : NotSkipped s) : Rejects cclGrammar .atomic (.call comment) s := by
  refine rejects_call cclGrammar .atomic comment (Yields.tieReject (rejects_str fun hprefix => ?_))
  rcases hprefix with ⟨t, rfl⟩
  exact hs '/' rfl (by simp)

def blankChar : PegExpr :=
  .choices [text " ", text "\t", text "\r", text "\n", .call comment]

theorem rejects_blankChar (hs : NotSkipped s) : Rejects cclGrammar .atomic blankChar s := by
  have hchar : ∀ c ∈ [' ', '\t', '\r', '\n'], Rejects cclGrammar .atomic (.str [c]) s := by
    intro c hc
    refine rejects_str fun hprefix => ?_
    rcases hprefix with ⟨t, rfl⟩
    exact hs c rfl (List.mem_append_left ['/'] hc)
  refine rejects_choices (by simp) ?_
  simp only [List.forall_mem_cons, List.not_mem_nil, false_implies, implies_true, and_true]
  exact ⟨hchar ' ' (by simp), hchar '\t' (by simp), hchar '\r' (by simp), hchar '\n' (by simp),
    rejects_comment hs⟩

theorem rejects_whitespace (hs : NotSkipped s) :
    Rejects cclGrammar .atomic (.call whitespace) s :=
  rejects_call cclGrammar .atomic whitespace (Yields.tieReject (rejects_blankChar hs))

theorem accepts_comments (hs : NotSkipped s) :
    Accepts cclGrammar .atomic (.many (.seq (.call comment) (.many (.call whitespace)))) s
      (.nothing s) :=
  .manyReject (.seqReject (rejects_comment hs))

theorem accepts_skip_nothing (hs : NotSkipped s) :
    Accepts cclGrammar .nonAtomic .skip s (.nothing s) :=
  .skip (.seq (.manyReject (rejects_whitespace hs)) (accepts_comments hs))

theorem accepts_skip_blank (hs : NotSkipped s) :
    Accepts cclGrammar .nonAtomic .skip (' ' :: s) ⟨[], [' '], s⟩ := by
  have hblank : Accepts cclGrammar .atomic blankChar (' ' :: s) ⟨[], [' '], s⟩ :=
    .choice (accepts_str [' '] s)
  have hplus := hblank.tie (.skipNothing (by decide)) (Yields.starReject (rejects_blankChar hs))
  have hwhitespace : Accepts cclGrammar .atomic (.call whitespace) (' ' :: s) ⟨[], [' '], s⟩ :=
    accepts_call cclGrammar .atomic whitespace hplus
  exact .skip (.seq (.many hwhitespace (.manyReject (rejects_whitespace hs))) (accepts_comments hs))

theorem exists_accepts_skip (s : List Char) :
    ∃ found, Accepts cclGrammar .nonAtomic .skip s found := by
  rcases (wellFormed_cclGrammar.existsUnique_yields (e := .skip) (by decide) .nonAtomic s).exists
    with ⟨outcome, h⟩
  rcases h.of_skip.of_seq with ⟨hreject, -⟩ | ⟨found, next, hfound, hnext, rfl⟩
  · exact absurd hreject not_rejects_many
  · rcases accepts_of_many hnext with ⟨next, rfl⟩
    exact ⟨_, h⟩

end Blanks

/-! ### What begins nothing -/

/-- The rules that can begin with an equals sign, or with nothing. -/
def unsettled (rule : GrammarRule) : Bool := rule.nullable || rule = comparisonOperator

/-- The rules in front of a character that begins none of the others. -/
def nothingBegins (c : Char) : Fronts GrammarRule where
  char := c
  rule rule := if unsettled rule then .unknown else .refused
  skip := .idle

theorem confirmed_equals : (nothingBegins '=').Confirmed cclGrammar where
  rule_eq rule := by cases rule <;> decide
  skip_eq := by decide

theorem confirmed_brace : (nothingBegins '}').Confirmed cclGrammar where
  rule_eq rule := by cases rule <;> decide
  skip_eq := by decide

theorem rejects_of_confirmed {c : Char} (hc : (nothingBegins c).Confirmed cclGrammar)
    {rule : GrammarRule} (hrule : unsettled rule = false) (t : List Char) :
    Rejects cclGrammar .nonAtomic (.call rule) (c :: t) := by
  rcases (existsUnique_yields rule .nonAtomic (c :: t)).exists with ⟨outcome, h⟩
  have hreject := hc.reject_of_refused h (by simp [Fronts.front, nothingBegins, hrule])
  rwa [hreject] at h

/-! ### Conditionals -/

def comparisonOperators : List String := ["==", "!=", ">", "<", ">=", "<="]

def ifText (a op b : String) : String := "if " ++ a ++ " " ++ op ++ " " ++ b ++ " \x7b \x7d"

def conditionRaw (pair : Pair GrammarRule) : Except LowerError String :=
  match pair.inner with
  | [] => .error (.parse "If statement missing condition")
  | condition :: _ => .ok (String.ofList condition.text)

section Parts

theorem accepts_block (t : List Char) :
    Accepts cclGrammar .nonAtomic (.call block) ('{' :: ' ' :: '}' :: t)
      ⟨[.mk block ['{', ' ', '}'] []], ['{', ' ', '}'], t⟩ := by
  have hbrace : NotSkipped ('}' :: t) := by simp [NotSkipped]
  have hstatements : Accepts cclGrammar .nonAtomic (.star (.call statement)) ('}' :: t)
      (.nothing ('}' :: t)) :=
    Yields.starReject (rejects_of_confirmed confirmed_brace rfl t)
  have hclosing : Accepts cclGrammar .nonAtomic (text "\x7d") ('}' :: t) ⟨[], ['}'], t⟩ :=
    accepts_str ['}'] t
  have hinner := hstatements.tie (accepts_skip_nothing hbrace) hclosing
  have hbody := (accepts_str ['{'] (' ' :: '}' :: t)).tie (accepts_skip_blank hbrace) hinner
  exact accepts_call cclGrammar .nonAtomic block hbody

/-- The grammar takes the first operator that the text begins with. -/
theorem accepts_comparisonOperator (before after : List String) (taken : String)
    (hoperators : comparisonOperators = before ++ taken :: after) {t : List Char}
    (hbefore : ∀ op ∈ before, ¬ op.toList <+: taken.toList ++ t) :
    Accepts cclGrammar .nonAtomic (.call comparisonOperator) (taken.toList ++ t)
      ⟨[.mk comparisonOperator taken.toList []], taken.toList, t⟩ := by
  have hbody : comparisonOperator.body =
      .choices (before.map text ++ text taken :: after.map text) := by
    rw [← List.map_cons, ← List.map_append, ← hoperators]
    rfl
  have hrejected : ∀ e ∈ before.map text,
      Rejects cclGrammar .nonAtomic e (taken.toList ++ t) :=
    List.forall_mem_map.mpr fun op hop => rejects_str (hbefore op hop)
  have hchoice : Accepts cclGrammar .nonAtomic comparisonOperator.body (taken.toList ++ t)
      ⟨[], taken.toList, t⟩ := by
    rw [hbody]
    exact accepts_choices _ _ hrejected (accepts_str taken.toList t)
  exact accepts_call cclGrammar .nonAtomic comparisonOperator hchoice

theorem accepts_whole_operator {op : String} (hop : op ∈ comparisonOperators) (hge : op ≠ ">=")
    (hle : op ≠ "<=") (t : List Char) :
    Accepts cclGrammar .nonAtomic (.call comparisonOperator) (op.toList ++ ' ' :: t)
      ⟨[.mk comparisonOperator op.toList []], op.toList, ' ' :: t⟩ := by
  simp only [comparisonOperators, List.mem_cons, List.not_mem_nil, or_false] at hop
  rcases hop with rfl | rfl | rfl | rfl | rfl | rfl
  · exact accepts_comparisonOperator [] ["!=", ">", "<", ">=", "<="] "==" rfl (by simp)
  · exact accepts_comparisonOperator ["=="] [">", "<", ">=", "<="] "!=" rfl (by simp)
  · exact accepts_comparisonOperator ["==", "!="] ["<", ">=", "<="] ">" rfl (by simp)
  · exact accepts_comparisonOperator ["==", "!=", ">"] [">=", "<="] "<" rfl (by simp)
  · exact absurd rfl hge
  · exact absurd rfl hle

theorem accepts_first_of_operator {op : String} (hop : op = ">=" ∨ op = "<=") (t : List Char) :
    ∃ pairs taken, Accepts cclGrammar .nonAtomic (.call comparisonOperator)
      (op.toList ++ t) ⟨pairs, taken, '=' :: t⟩ := by
  rcases hop with rfl | rfl
  · exact ⟨_, _, accepts_comparisonOperator ["==", "!="] ["<", ">=", "<="] ">" rfl
      (t := '=' :: t) (by simp)⟩
  · exact ⟨_, _, accepts_comparisonOperator ["==", "!=", ">"] [">=", "<="] "<" rfl
      (t := '=' :: t) (by simp)⟩

theorem notSkipped_operator {op : String} (hop : op ∈ comparisonOperators) (t : List Char) :
    NotSkipped (op.toList ++ t) := by
  simp only [comparisonOperators, List.mem_cons, List.not_mem_nil, or_false] at hop
  rcases hop with rfl | rfl | rfl | rfl | rfl | rfl <;> simp [NotSkipped]

theorem notSkipped_operand {s : List Char} (h : IsOperand s) (t : List Char) :
    NotSkipped (s ++ t) := by
  rcases head_of_operand h with ⟨c, w, rfl, hc⟩
  intro c' hc'
  cases hc'
  exact hc

variable {a b : List Char} {op : String}

def conditionText (a : List Char) (op : String) (b : List Char) : List Char :=
  a ++ ' ' :: (op.toList ++ ' ' :: b)

theorem accepts_comparisonExpression (ha : IsOperand a) (hb : IsOperand b)
    (hop : op ∈ comparisonOperators) (hge : op ≠ ">=") (hle : op ≠ "<=") (t : List Char) :
    ∃ inner, Accepts cclGrammar .nonAtomic (.call comparisonExpression)
      (a ++ ' ' :: (op.toList ++ ' ' :: (b ++ ' ' :: t)))
      ⟨[.mk comparisonExpression (conditionText a op b) inner], conditionText a op b,
        ' ' :: t⟩ := by
  rcases accepts_comparisonOperand ha (op.toList ++ ' ' :: (b ++ ' ' :: t)) with ⟨left, hleft⟩
  rcases accepts_comparisonOperand hb t with ⟨right, hright⟩
  have hoperator := accepts_whole_operator hop hge hle (b ++ ' ' :: t)
  have hbehind := hoperator.tie (accepts_skip_blank (notSkipped_operand hb (' ' :: t))) hright
  have hbody := hleft.tie (accepts_skip_blank (notSkipped_operator hop (' ' :: (b ++ ' ' :: t))))
    hbehind
  exact ⟨_, accepts_call cclGrammar .nonAtomic comparisonExpression hbody⟩

/-- What is left of the other two operators begins no operand. -/
theorem rejects_comparisonExpression (ha : IsOperand a) (hop : op = ">=" ∨ op = "<=")
    (t : List Char) : Rejects cclGrammar .nonAtomic (.call comparisonExpression)
      (a ++ ' ' :: (op.toList ++ t)) := by
  have hmem : op ∈ comparisonOperators := by rcases hop with rfl | rfl <;> decide
  rcases accepts_comparisonOperand ha (op.toList ++ t) with ⟨left, hleft⟩
  rcases accepts_first_of_operator hop t with ⟨pairs, taken, hoperator⟩
  have hequals : NotSkipped ('=' :: t) := by simp [NotSkipped]
  have hoperand : Rejects cclGrammar .nonAtomic (.call comparisonOperand) ('=' :: t) :=
    rejects_of_confirmed confirmed_equals rfl t
  have hbehind := hoperator.tie (accepts_skip_nothing hequals) hoperand
  have hbody := hleft.tie (accepts_skip_blank (notSkipped_operator hmem t)) hbehind
  exact rejects_call cclGrammar .nonAtomic comparisonExpression hbody

theorem exists_accepts_elseBranch (s : List Char) :
    ∃ found, Accepts cclGrammar .nonAtomic (.opt (.tie (text "else") (.call block))) s found := by
  rcases (wellFormed_cclGrammar.existsUnique_yields
    (e := .tie (text "else") (.call block)) (by decide) .nonAtomic s).exists with ⟨outcome, h⟩
  cases outcome with
  | accept found => exact ⟨found, h.opt⟩
  | reject => exact ⟨_, h.optReject⟩

theorem accepts_ifStatement (ha : IsOperand a) (hb : IsOperand b)
    (hop : op ∈ comparisonOperators) (hge : op ≠ ">=") (hle : op ≠ "<=") (t : List Char) :
    ∃ inner more taken rest, Accepts cclGrammar .nonAtomic (.call ifStatement)
      ('i' :: 'f' :: ' ' ::
        (a ++ ' ' :: (op.toList ++ ' ' :: (b ++ ' ' :: '{' :: ' ' :: '}' :: t))))
      ⟨[.mk ifStatement taken (.mk comparisonExpression (conditionText a op b) inner :: more)],
        taken, rest⟩ := by
  rcases accepts_comparisonExpression ha hb hop hge hle ('{' :: ' ' :: '}' :: t) with
    ⟨inner, hcondition⟩
  rcases exists_accepts_skip t with ⟨between, hbetween⟩
  rcases exists_accepts_elseBranch between.rest with ⟨branch, hbranch⟩
  have hbrace : NotSkipped ('{' :: ' ' :: '}' :: t) := by simp [NotSkipped]
  have hblock := (accepts_block t).tie hbetween hbranch
  have hbehind := hcondition.tie (accepts_skip_blank hbrace) hblock
  have hbody := (accepts_str ['i', 'f'] _).tie
    (accepts_skip_blank (notSkipped_operand ha _)) hbehind
  exact ⟨_, _, _, _, accepts_call cclGrammar .nonAtomic ifStatement hbody⟩

theorem rejects_ifStatement (ha : IsOperand a) (hop : op = ">=" ∨ op = "<=") (t : List Char) :
    Rejects cclGrammar .nonAtomic (.call ifStatement)
      ('i' :: 'f' :: ' ' :: (a ++ ' ' :: (op.toList ++ t))) := by
  have hmem : op ∈ comparisonOperators := by rcases hop with rfl | rfl <;> decide
  have hbehind : Rejects cclGrammar .nonAtomic (.ties [.call comparisonExpression, .call block,
      .opt (.tie (text "else") (.call block))]) (a ++ ' ' :: (op.toList ++ t)) :=
    Yields.tieReject (rejects_comparisonExpression ha hop t)
  have hbody := (accepts_str ['i', 'f'] _).tie (accepts_skip_blank (notSkipped_operand ha _))
    hbehind
  exact rejects_call cclGrammar .nonAtomic ifStatement hbody

end Parts

theorem toList_ifText (a op b rest : String) :
    (ifText a op b ++ rest).toList = 'i' :: 'f' :: ' ' :: (a.toList ++ ' ' :: (op.toList ++
      ' ' :: (b.toList ++ ' ' :: '{' :: ' ' :: '}' :: rest.toList))) := by
  simp [ifText]

/-- A conditional is taken with its condition as it was written, whatever follows, unless the
operator is one of those that a shorter one hides. -/
theorem condition_parses_iff {a op b : String} (ha : IsOperand a.toList)
    (hb : IsOperand b.toList) (hop : op ∈ comparisonOperators) (rest : String) :
    (∃ pair taken left, Accepts cclGrammar .nonAtomic (.call ifStatement)
        (ifText a op b ++ rest).toList ⟨[pair], taken, left⟩ ∧
      conditionRaw pair = .ok (a ++ " " ++ op ++ " " ++ b)) ↔ op ≠ ">=" ∧ op ≠ "<=" := by
  rw [toList_ifText]
  constructor
  · rintro ⟨pair, taken, left, h, -⟩
    by_contra hne
    have hhidden : op = ">=" ∨ op = "<=" := by
      by_contra hboth
      exact hne (not_or.mp hboth)
    cases h.unique (rejects_ifStatement ha hhidden _)
  · rintro ⟨hge, hle⟩
    rcases accepts_ifStatement ha hb hop hge hle rest.toList with ⟨inner, more, taken, left, h⟩
    refine ⟨_, taken, left, h, congrArg Except.ok ?_⟩
    apply String.toList_inj.mp
    simp [Pair.text, conditionText]

theorem condition_parses_votes :
    ∃ pair taken left, Accepts cclGrammar .nonAtomic (.call ifStatement)
        (ifText "votes" ">" "quorum" ++ " on").toList ⟨[pair], taken, left⟩ ∧
      conditionRaw pair = .ok ("votes" ++ " " ++ ">" ++ " " ++ "quorum") := by
  refine (condition_parses_iff ⟨identifier, by decide, ?_⟩ ⟨identifier, by decide, ?_⟩
    (by decide) " on").mpr ⟨by decide, by decide⟩
  · exact isToken_identifier rfl (List.all_eq_true.mp rfl)
  · exact isToken_identifier rfl (List.all_eq_true.mp rfl)

/-- A conditional that asks for at least a quorum is refused. -/
theorem condition_at_least_refused :
    IsOperand "votes".toList ∧ IsOperand "quorum".toList ∧ ">=" ∈ comparisonOperators ∧
      Rejects cclGrammar .nonAtomic (.call ifStatement)
        (ifText "votes" ">=" "quorum" ++ "").toList := by
  have hvotes : IsOperand "votes".toList :=
    ⟨identifier, by decide, isToken_identifier rfl (List.all_eq_true.mp rfl)⟩
  refine ⟨hvotes, ⟨identifier, by decide, isToken_identifier rfl (List.all_eq_true.mp rfl)⟩,
    by decide, ?_⟩
  rw [toList_ifText]
  exact rejects_ifStatement hvotes (.inl rfl) _

end Ccl

end Icn

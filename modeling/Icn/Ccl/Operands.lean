import Icn.Foundation.Peg.Delimiter
import Icn.Ccl.Literals
import Mathlib.Data.List.TakeWhile

/-!
# Operands of comparisons

An operand is an identifier, a path of identifiers, a number or a literal. In front of a
blank the grammar takes it as a whole (`accepts_comparisonOperand`): an identifier is no
path there, and a number is no duration.
-/

open Foundation Peg

namespace Icn

namespace Ccl

open GrammarRule

def operandRules : List GrammarRule := [identifier, pathIdentifier, number, stringLiteral]

def IsOperand (s : List Char) : Prop := ∃ rule ∈ operandRules, IsToken rule s

/-! ### In front of a blank -/

def endsAtBlank (rule : GrammarRule) : Bool := [identifier, pathIdentifier, number].contains rule

theorem avoids_blank : Avoids cclGrammar ' ' endsAtBlank where
  kind_ne rule h := by cases rule <;> first | decide | cases h
  avoids_body rule h := by cases rule <;> first | decide | cases h

theorem kind_of_endsAtBlank {rule : GrammarRule} (h : endsAtBlank rule = true) :
    rule.kind = .atomic := by
  cases rule <;> first | rfl | cases h

theorem IsToken.exists_body {rule : GrammarRule} (hkind : rule.kind = .atomic) {s : List Char}
    (h : IsToken rule s) : ∃ pairs, Accepts cclGrammar .atomic rule.body s ⟨pairs, s, []⟩ := by
  rcases h with ⟨pairs, h⟩
  rcases h.of_call with ⟨inner, hinner, hout⟩
  change Yields cclGrammar (Atomicity.inside .nonAtomic rule.kind) rule.body s inner at hinner
  rw [hkind] at hinner
  cases inner with
  | reject => cases hout
  | accept inner =>
      have hmatch := Outcome.accept.inj hout
      have htext := congrArg Match.text hmatch
      have hrest := congrArg Match.rest hmatch
      rw [Match.inRule_text] at htext
      rw [Match.inRule_rest] at hrest
      rw [show inner = ⟨inner.pairs, s, []⟩ by rw [show s = inner.text from htext,
        show [] = inner.rest from hrest]] at hinner
      exact ⟨inner.pairs, hinner⟩

section Tokens

variable {mode : Atomicity}

theorem IsToken.before_blank {rule : GrammarRule} (hrule : endsAtBlank rule = true)
    {s : List Char} (h : IsToken rule s) (mode : Atomicity) (t : List Char) :
    ∃ pairs, Accepts cclGrammar mode (.call rule) (s ++ ' ' :: t) ⟨pairs, s, ' ' :: t⟩ := by
  have hkind := kind_of_endsAtBlank hrule
  rcases h.exists_body hkind with ⟨pairs, hbody⟩
  have hblank := hbody.before_delimiter avoids_blank (avoids_blank.avoids_body rule hrule) t
  have hinside : mode.inside (cclGrammar.kind rule) = .atomic := by
    change mode.inside rule.kind = .atomic
    rw [hkind]
    rfl
  rw [← hinside] at hblank
  have hcall := accepts_call cclGrammar mode rule hblank
  cases hrecords : mode.records (cclGrammar.kind rule) with
  | true =>
      rw [hrecords] at hcall
      exact ⟨_, hcall⟩
  | false =>
      rw [hrecords] at hcall
      exact ⟨_, hcall⟩

/-! ### Identifiers and paths -/

def startsIdentifier (c : Char) : Bool := c.isAlpha || c = '_'

def continuesIdentifier (c : Char) : Bool := c.isAlphanum || c = '_'

theorem sameOutcomes_identifier :
    SameOutcomes cclGrammar .atomic identifier.body
      (.seq (.test startsIdentifier) (.many (.test continuesIdentifier))) := by
  have hmode : Atomicity.atomic ≠ .nonAtomic := by decide
  have hcharacter : ∀ p : Char → Bool, SameOutcomes cclGrammar .atomic
      (.choices [.test p, text "_"]) (.test fun c => p c || c = '_') :=
    fun p => ((SameOutcomes.refl _).choice (.str_singleton '_')).trans (.choice_test _ _)
  exact .tie hmode (hcharacter _) (.star hmode (hcharacter _))

theorem isToken_identifier {c : Char} {w : List Char} (hc : startsIdentifier c = true)
    (hw : ∀ c ∈ w, continuesIdentifier c = true) : IsToken identifier (c :: w) := by
  have hseq := Yields.seq (accepts_test (g := cclGrammar) hc w)
    (accepts_many_test cclGrammar .atomic continuesIdentifier w)
  rw [List.takeWhile_eq_self_iff.mpr hw, List.dropWhile_eq_nil_iff.mpr hw] at hseq
  exact ⟨_, accepts_call cclGrammar .nonAtomic identifier ((sameOutcomes_identifier _ _).mpr hseq)⟩

theorem startsIdentifier_of_isDigit {c : Char} (h : c.isDigit = true) :
    startsIdentifier c = false := by
  have hne : c ≠ '_' := by
    rintro rfl
    cases h
  simp only [Char.isDigit, Bool.and_eq_true, decide_eq_true_eq, UInt32.le_iff_toNat_le] at h
  change 48 ≤ c.toNat ∧ c.toNat ≤ 57 at h
  have halpha : c.isAlpha = false := by
    refine Bool.eq_false_iff.mpr fun halpha => ?_
    rcases (Bool.or_eq_true _ _).mp halpha with hupper | hlower
    · have hupper : 65 ≤ c.toNat := UInt32.le_iff_toNat_le.mp (of_decide_eq_true hupper).1
      omega
    · have hlower : 97 ≤ c.toNat :=
        UInt32.le_iff_toNat_le.mp (of_decide_eq_true ((Bool.and_eq_true _ _).mp hlower).1)
      omega
  rw [startsIdentifier, halpha, decide_eq_false hne]
  rfl

theorem rejects_identifier {s : List Char} (hs : ∀ c ∈ s.head?, startsIdentifier c = false) :
    Rejects cclGrammar mode (.call identifier) s := by
  refine rejects_call cclGrammar mode identifier (Yields.tieReject ?_)
  refine .choiceReject (rejects_test fun c hc => ?_) (rejects_str fun hprefix => ?_)
  · have := hs c hc
    simp_all [startsIdentifier]
  · rcases hprefix with ⟨t, rfl⟩
    have := hs '_' rfl
    simp [startsIdentifier] at this

theorem rejects_pathIdentifier {s : List Char}
    (hs : ∀ c ∈ s.head?, startsIdentifier c = false) :
    Rejects cclGrammar mode (.call pathIdentifier) s :=
  rejects_call cclGrammar mode pathIdentifier (Yields.tieReject (rejects_identifier hs))

theorem rejects_generalIdentifier {s : List Char}
    (hs : ∀ c ∈ s.head?, startsIdentifier c = false) :
    Rejects cclGrammar mode (.call generalIdentifier) s :=
  rejects_call cclGrammar mode generalIdentifier
    (.choiceReject (rejects_pathIdentifier hs) (rejects_identifier hs))

theorem rejects_pathIdentifier_of_identifier {s : List Char} (h : IsToken identifier s)
    (t : List Char) : Rejects cclGrammar mode (.call pathIdentifier) (s ++ ' ' :: t) := by
  rcases h.before_blank rfl .atomic t with ⟨pairs, hidentifier⟩
  have hdot : Rejects cclGrammar .atomic (.plus (.tie (text ".") (.call identifier)))
      (' ' :: t) := by
    refine Yields.tieReject (Yields.tieReject (rejects_str fun hprefix => ?_))
    simp [List.cons_prefix_cons] at hprefix
  exact rejects_call cclGrammar mode pathIdentifier
    (hidentifier.tie (.skipNothing (by decide)) hdot)

/-! ### Numbers -/

def fraction : PegExpr := .opt (.tie (text ".") (.plus (.test Char.isDigit)))

def exponent : PegExpr :=
  .opt (.ties [.test fun c => c = 'e' || c = 'E', .opt (.choices [text "+", text "-"]),
    .plus (.test Char.isDigit)])

def wholePart : PegExpr :=
  .choice (.str ['0']) (.seq (.test asciiNonzeroDigit) (.many (.test Char.isDigit)))

theorem sameOutcomes_number :
    SameOutcomes cclGrammar .atomic number.body
      (.seq (.opt (.str ['-'])) (.seq wholePart (.seq fraction exponent))) := by
  have hmode : Atomicity.atomic ≠ .nonAtomic := by decide
  have hwhole : SameOutcomes cclGrammar .atomic
      (.choices [text "0", .tie (.test asciiNonzeroDigit) (.star (.test Char.isDigit))])
      wholePart :=
    (SameOutcomes.refl _).choice (.tie hmode (.refl _) (.star hmode (.refl _)))
  exact .tie hmode (.refl _) (.tie hmode hwhole (.tie hmode (.refl _) (.refl _)))

/-- What begins neither a fraction nor an exponent is left behind a whole number. -/
theorem accepts_fraction_exponent {r : List Char} (hr : ∀ c ∈ r.head?, c ∉ ['.', 'e', 'E']) :
    Accepts cclGrammar mode (.seq fraction exponent) r (.nothing r) := by
  have hfraction : Accepts cclGrammar mode fraction r (.nothing r) := by
    refine Yields.optReject (Yields.tieReject (rejects_str fun hprefix => ?_))
    rcases hprefix with ⟨t, rfl⟩
    exact hr '.' rfl (by simp)
  have hexponent : Accepts cclGrammar mode exponent r (.nothing r) := by
    refine Yields.optReject (Yields.tieReject (rejects_test fun c hc => ?_))
    have := hr c hc
    simp_all
  exact .seq hfraction hexponent

/-- A number begins with a sign, or with digits and what no digit continues. -/
theorem number_parts {s : List Char} (h : IsToken number s) :
    (∃ w, s = '-' :: w) ∨ ∃ digits r, s = digits ++ r ∧ digits ≠ [] ∧
      (∀ c ∈ digits, c.isDigit = true) ∧ ∀ c ∈ r.head?, c ∈ ['.', 'e', 'E'] := by
  rcases h.exists_body rfl with ⟨pairs, hbody⟩
  have hseq := (sameOutcomes_number _ _).mp hbody
  by_cases hsign : ∃ w, s = '-' :: w
  · exact .inl hsign
  · refine .inr ?_
    have hnosign : Accepts cclGrammar .atomic (.opt (.str ['-'])) s (.nothing s) := by
      refine Yields.optReject (rejects_str fun hprefix => hsign ?_)
      rcases hprefix with ⟨w, hw⟩
      exact ⟨w, hw.symm⟩
    have htail : ∀ {r : List Char} {next : Outcome GrammarRule} {first : Match GrammarRule},
        Yields cclGrammar .atomic (.seq fraction exponent) r next →
        Outcome.accept ⟨pairs, s, []⟩ = next.behind first → ∀ c ∈ r.head?, c ∈ ['.', 'e', 'E'] := by
      intro r next first hnext hout c hc
      by_contra hne
      have hr : ∀ c ∈ r.head?, c ∉ ['.', 'e', 'E'] := by
        intro c' hc'
        rwa [← Option.some.inj (hc.symm.trans hc')]
      cases hnext.unique (accepts_fraction_exponent hr)
      have hrest : [] = r := congrArg Match.rest (Outcome.accept.inj hout)
      rw [← hrest] at hc
      cases hc
    rcases hseq.of_seq with ⟨-, hout⟩ | ⟨found, next, hfound, hnext, hout⟩
    · cases hout
    cases hfound.unique hnosign
    rcases hnext.of_seq with ⟨-, rfl⟩ | ⟨whole, next, hwhole, hmore, rfl⟩
    · cases hout
    have hbehind : Outcome.accept ⟨pairs, s, []⟩ = next.behind whole := by
      cases next with
      | reject => cases hout
      | accept next => exact hout
    rcases hwhole.of_choice with ⟨found, hzero, hfound⟩ | ⟨-, hdigits⟩
    · cases hfound
      rcases of_matchText hzero.of_str with ⟨r, rfl, rfl⟩
      exact ⟨['0'], r, rfl, by simp, by simp, htail hmore hbehind⟩
    · rcases hdigits.of_seq with ⟨-, hfound⟩ | ⟨first, digits, hfirst, hrest, hfound⟩
      · cases hfound
      rcases of_matchTest hfirst.of_test with ⟨c, w, rfl, hc, rfl⟩
      cases hrest.unique (accepts_many_test cclGrammar .atomic Char.isDigit w)
      cases hfound
      refine ⟨c :: w.takeWhile Char.isDigit, w.dropWhile Char.isDigit, ?_, by simp, ?_,
        htail hmore hbehind⟩
      · simp
      · have hcdigit : c.isDigit = true := by
          rw [asciiNonzeroDigit, Bool.and_eq_true] at hc
          exact hc.1
        rw [List.forall_mem_cons]
        exact ⟨hcdigit, fun c' hc' => List.mem_takeWhile_imp hc'⟩

theorem head_of_number {s : List Char} (h : IsToken number s) :
    ∃ c w, s = c :: w ∧ (c = '-' ∨ c.isDigit = true) := by
  rcases number_parts h with ⟨w, rfl⟩ | ⟨digits, r, rfl, hne, hdigits, -⟩
  · exact ⟨'-', w, rfl, .inl rfl⟩
  · cases digits with
    | nil => exact absurd rfl hne
    | cons c digits => exact ⟨c, digits ++ r, rfl, .inr (hdigits c (by simp))⟩

theorem rejects_duration_of_number {s : List Char} (h : IsToken number s) (t : List Char) :
    Rejects cclGrammar mode (.call duration) (s ++ ' ' :: t) := by
  have hmode : Atomicity.atomic ≠ .nonAtomic := by decide
  have hunit : SameOutcomes cclGrammar .atomic
      (.choices [text "d", text "h", text "m", text "s"])
      (.test fun c => ['d', 'h', 'm', 's'].contains c) :=
    SameOutcomes.choices_chars ['d', 'h', 'm', 's'] (by simp)
  have hbody : SameOutcomes cclGrammar .atomic duration.body
      (.seq (.seq (.test Char.isDigit) (.many (.test Char.isDigit)))
        (.test fun c => ['d', 'h', 'm', 's'].contains c)) :=
    .tie hmode (.tie hmode (.refl _) (.star hmode (.refl _))) hunit
  refine rejects_call cclGrammar mode duration ((hbody _ _).mpr ?_)
  rcases number_parts h with ⟨w, rfl⟩ | ⟨digits, r, rfl, hne, hdigits, hr⟩
  · exact .seqReject (.seqReject (rejects_test (by simp)))
  · cases digits with
    | nil => exact absurd rfl hne
    | cons c digits =>
        rw [List.forall_mem_cons] at hdigits
        have hhead : ∀ c ∈ (r ++ ' ' :: t).head?, c ∈ [' ', '.', 'e', 'E'] := by
          cases r with
          | nil => simp
          | cons c r =>
              have hc := hr c rfl
              simp_all
        have hstop : (r ++ ' ' :: t).dropWhile Char.isDigit = r ++ ' ' :: t := by
          cases hrest : r ++ ' ' :: t with
          | nil => rfl
          | cons c rest =>
              rw [hrest] at hhead
              have hc := hhead c rfl
              refine List.dropWhile_cons_of_neg ?_
              simp only [List.mem_cons, List.not_mem_nil, or_false] at hc
              rcases hc with rfl | rfl | rfl | rfl <;> decide
        have hall : (digits ++ (r ++ ' ' :: t)).dropWhile Char.isDigit = r ++ ' ' :: t := by
          rw [List.dropWhile_append, List.dropWhile_eq_nil_iff.mpr hdigits.2]
          simpa using hstop
        have hmany := accepts_many_test cclGrammar .atomic Char.isDigit
          (digits ++ (r ++ ' ' :: t))
        rw [hall] at hmany
        rw [List.append_assoc, List.cons_append]
        refine .seq (.seq (accepts_test hdigits.1 _) hmany) (rejects_test fun c hc => ?_)
        have hmem := hhead c hc
        simp only [List.mem_cons, List.not_mem_nil, or_false] at hmem
        rcases hmem with rfl | rfl | rfl | rfl <;> decide

theorem accepts_value_of_number {s : List Char} (h : IsToken number s) (t : List Char) :
    ∃ pairs, Accepts cclGrammar .nonAtomic (.call value) (s ++ ' ' :: t) ⟨pairs, s, ' ' :: t⟩ := by
  rcases h.before_blank rfl .nonAtomic t with ⟨pairs, hnumber⟩
  rcases head_of_number h with ⟨c, w, rfl, hc⟩
  have hliteral : Rejects cclGrammar .nonAtomic (.call stringLiteral) (c :: w ++ ' ' :: t) := by
    refine rejects_stringLiteral fun c' hc' => ?_
    cases hc'
    rintro rfl
    simp at hc
  have hvalue := accepts_choices [.call stringLiteral, .call duration]
    [.call boolean, .call functionCall, .call array, .call object, .call rangeValue,
      .call generalIdentifier]
    (by simpa using ⟨hliteral, rejects_duration_of_number h t⟩) hnumber
  exact ⟨_, accepts_call cclGrammar .nonAtomic value hvalue⟩

/-! ### Operands -/

theorem head_of_identifier {s : List Char} (h : IsToken identifier s ∨ IsToken pathIdentifier s) :
    ∃ c w, s = c :: w ∧ startsIdentifier c = true := by
  have hhead : ¬ ∀ c ∈ s.head?, startsIdentifier c = false := by
    intro hs
    rcases h with ⟨pairs, h⟩ | ⟨pairs, h⟩
    · cases h.unique (rejects_identifier hs)
    · cases h.unique (rejects_pathIdentifier hs)
  cases s with
  | nil => simp at hhead
  | cons c w => exact ⟨c, w, rfl, by simpa using hhead⟩

theorem accepts_comparisonOperand {s : List Char} (h : IsOperand s) (t : List Char) :
    ∃ pairs, Accepts cclGrammar .nonAtomic (.call comparisonOperand) (s ++ ' ' :: t)
      ⟨pairs, s, ' ' :: t⟩ := by
  rcases h with ⟨rule, hrule, h⟩
  have hgeneral : ∀ {pairs}, Accepts cclGrammar .nonAtomic (.call generalIdentifier)
      (s ++ ' ' :: t) ⟨pairs, s, ' ' :: t⟩ →
      ∃ pairs, Accepts cclGrammar .nonAtomic (.call comparisonOperand) (s ++ ' ' :: t)
        ⟨pairs, s, ' ' :: t⟩ :=
    fun hfound => ⟨_, accepts_call cclGrammar .nonAtomic comparisonOperand (.choice hfound)⟩
  have hvalue : ∀ {pairs c w}, s = c :: w → startsIdentifier c = false →
      Accepts cclGrammar .nonAtomic (.call value) (s ++ ' ' :: t) ⟨pairs, s, ' ' :: t⟩ →
      ∃ pairs, Accepts cclGrammar .nonAtomic (.call comparisonOperand) (s ++ ' ' :: t)
        ⟨pairs, s, ' ' :: t⟩ := by
    intro pairs c w hs hc hfound
    have hreject : Rejects cclGrammar .nonAtomic (.call generalIdentifier) (s ++ ' ' :: t) :=
      rejects_generalIdentifier (by simpa [hs] using hc)
    exact ⟨_, accepts_call cclGrammar .nonAtomic comparisonOperand (.choiceReject hreject hfound)⟩
  simp only [operandRules, List.mem_cons, List.not_mem_nil, or_false] at hrule
  rcases hrule with rfl | rfl | rfl | rfl
  · rcases h.before_blank rfl .nonAtomic t with ⟨pairs, hidentifier⟩
    exact hgeneral (accepts_call cclGrammar .nonAtomic generalIdentifier
      (.choiceReject (rejects_pathIdentifier_of_identifier h t) hidentifier))
  · rcases h.before_blank rfl .nonAtomic t with ⟨pairs, hpath⟩
    exact hgeneral (accepts_call cclGrammar .nonAtomic generalIdentifier (.choice hpath))
  · rcases accepts_value_of_number h t with ⟨pairs, hnumber⟩
    rcases head_of_number h with ⟨c, w, hs, hc⟩
    refine hvalue hs ?_ hnumber
    rcases hc with rfl | hdigit
    · rfl
    · exact startsIdentifier_of_isDigit hdigit
  · rcases isToken_stringLiteral_iff.mp h with ⟨b, hb, rfl⟩
    have hliteral : Accepts cclGrammar .nonAtomic (.call value) ('"' :: (b ++ '"' :: ' ' :: t)) _ :=
      accepts_call cclGrammar .nonAtomic value (.choice (accepts_stringLiteral hb (' ' :: t)))
    have happend : '"' :: (b ++ '"' :: ' ' :: t) = '"' :: (b ++ ['"']) ++ ' ' :: t := by simp
    rw [happend] at hliteral
    exact hvalue rfl rfl hliteral

theorem head_of_operand {s : List Char} (h : IsOperand s) :
    ∃ c w, s = c :: w ∧ c ∉ [' ', '\t', '\r', '\n', '/'] := by
  have hstart : ∀ {c : Char}, startsIdentifier c = true → c ∉ [' ', '\t', '\r', '\n', '/'] := by
    intro c hc hmem
    simp only [List.mem_cons, List.not_mem_nil, or_false] at hmem
    rcases hmem with rfl | rfl | rfl | rfl | rfl <;> cases hc
  rcases h with ⟨rule, hrule, h⟩
  simp only [operandRules, List.mem_cons, List.not_mem_nil, or_false] at hrule
  rcases hrule with rfl | rfl | rfl | rfl
  · rcases head_of_identifier (.inl h) with ⟨c, w, hs, hc⟩
    exact ⟨c, w, hs, hstart hc⟩
  · rcases head_of_identifier (.inr h) with ⟨c, w, hs, hc⟩
    exact ⟨c, w, hs, hstart hc⟩
  · rcases head_of_number h with ⟨c, w, hs, hc⟩
    refine ⟨c, w, hs, fun hmem => ?_⟩
    simp only [List.mem_cons, List.not_mem_nil, or_false] at hmem
    rcases hmem with rfl | rfl | rfl | rfl | rfl <;> simp at hc
  · rcases isToken_stringLiteral_iff.mp h with ⟨b, hb, rfl⟩
    exact ⟨'"', b ++ ['"'], rfl, by simp⟩

end Tokens

end Ccl

end Icn

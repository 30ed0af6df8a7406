import Icn.Foundation.Peg.Equivalence
import Icn.Foundation.Run.Fallible
import Icn.Ccl.Lower
import Icn.Ccl.Pest

/-!
# String literals

The grammar takes a literal of plain characters and escapes (`isToken_stringLiteral_iff`).
Two readers take it apart: one takes the quotes off both ends, the other replaces escapes.
They agree on the literals without a backslash and on no others.
-/

open Foundation Peg

namespace Icn

namespace Ccl

open GrammarRule

/-- A rule takes a text as a whole. -/
def IsToken (rule : GrammarRule) (s : List Char) : Prop :=
  ∃ pairs, Accepts cclGrammar .nonAtomic (.call rule) s ⟨pairs, s, []⟩

def isPlain (c : Char) : Bool := !(['"', '\\'].contains c)

def isEscape (c : Char) : Bool := ['"', '\\', '/', 'b', 'f', 'n', 'r', 't'].contains c

/-- What stands between the quotes of a literal. -/
inductive LiteralBody : List Char → Prop
  | nil : LiteralBody []
  | plain {c s} (hc : isPlain c = true) (h : LiteralBody s) : LiteralBody (c :: s)
  | escape {c s} (hc : isEscape c = true) (h : LiteralBody s) : LiteralBody ('\\' :: c :: s)

/-- A text that no body goes on with. -/
def EndsBody (t : List Char) : Prop :=
  (∀ c ∈ t.head?, isPlain c = false) ∧ ∀ c t', t = '\\' :: c :: t' → isEscape c = false

theorem endsBody_quote (t : List Char) : EndsBody ('"' :: t) := by
  constructor
  · simp [isPlain]
  · intro c t' h
    simp at h

/-! ### The rule -/

section Rule

variable {mode : Atomicity}

def plainRun : PegExpr := .many (.test isPlain)

def escapedRuns : PegExpr :=
  .many (.seq (.seq (.char '\\') (.test isEscape)) plainRun)

theorem sameOutcomes_plainChar (hmode : mode ≠ .nonAtomic) :
    SameOutcomes cclGrammar mode plainChar (.test isPlain) := by
  have hquote : SameOutcomes cclGrammar mode quoteOrBackslash
      (.test fun c => ['"', '\\'].contains c) :=
    SameOutcomes.choices_chars ['"', '\\'] (by simp)
  have hnot : SameOutcomes cclGrammar mode (.not quoteOrBackslash)
      (.not (.test fun c => ['"', '\\'].contains c)) := hquote.not
  exact (SameOutcomes.tie hmode hnot (.refl _)).trans (SameOutcomes.not_test_any _)

theorem sameOutcomes_innerString (hmode : mode ≠ .nonAtomic) :
    SameOutcomes cclGrammar mode innerString.body (.seq plainRun escapedRuns) := by
  have hplain := SameOutcomes.star hmode (sameOutcomes_plainChar hmode)
  have hescape : SameOutcomes cclGrammar mode escapeChar (.test isEscape) :=
    SameOutcomes.choices_chars ['"', '\\', '/', 'b', 'f', 'n', 'r', 't'] (by simp)
  have hbackslash : SameOutcomes cclGrammar mode (text "\\") (.char '\\') :=
    SameOutcomes.str_singleton '\\'
  exact .tie hmode hplain (.star hmode (.tie hmode (.tie hmode hbackslash hescape) hplain))

theorem accepts_bodyRuns {b t : List Char} (hb : LiteralBody b) (ht : EndsBody t) :
    Accepts cclGrammar mode (.seq plainRun escapedRuns) (b ++ t) ⟨[], b, t⟩ := by
  induction hb with
  | nil =>
      have hplain : Accepts cclGrammar mode plainRun t (.nothing t) :=
        .manyReject (rejects_test ht.1)
      have hescaped : Accepts cclGrammar mode escapedRuns t (.nothing t) := by
        refine .manyReject (.seqReject ?_)
        cases t with
        | nil => exact .seqReject (rejects_test (by simp))
        | cons c t =>
            by_cases hc : c = '\\'
            · subst hc
              refine .seq (accepts_test (by simp) t) (rejects_test fun c hc => ?_)
              cases t with
              | nil => simp at hc
              | cons c' t =>
                  cases hc
                  exact ht.2 _ t rfl
            · exact .seqReject (rejects_test (by simpa using hc))
      exact .seq hplain hescaped
  | plain hc hb ih =>
      rcases ih.of_seq with ⟨-, hout⟩ | ⟨found, next, hfound, hnext, hout⟩
      · cases hout
      · cases next with
        | reject => cases hout
        | accept next =>
            have hseq := Yields.seq (.many (accepts_test hc _) hfound) hnext
            simp only [Outcome.behind, Match.andThen_assoc] at hseq hout
            rw [← Outcome.accept.inj hout] at hseq
            exact hseq
  | @escape c s hc hb ih =>
      rcases ih.of_seq with ⟨-, hout⟩ | ⟨found, next, hfound, hnext, hout⟩
      · cases hout
      · cases next with
        | reject => cases hout
        | accept next =>
            have hplain : Accepts cclGrammar mode plainRun ('\\' :: c :: (s ++ t)) _ :=
              .manyReject (rejects_test (by simp [isPlain]))
            have hbackslash : Accepts cclGrammar mode (.char '\\') ('\\' :: c :: (s ++ t)) _ :=
              accepts_test (by simp) _
            have hpair := Yields.seq hbackslash (accepts_test hc _)
            have hseq := Yields.seq hplain (.many (.seq hpair hfound) hnext)
            simp only [Outcome.behind, Match.andThen_assoc] at hseq hout
            rw [← Outcome.accept.inj hout] at hseq
            exact hseq

theorem exists_body_append : ∀ s : List Char, ∃ b t, s = b ++ t ∧ LiteralBody b ∧ EndsBody t
  | [] => ⟨[], [], rfl, .nil, by simp, by simp⟩
  | [c] => by
      cases hc : isPlain c with
      | true => exact ⟨[c], [], rfl, .plain hc .nil, by simp, by simp⟩
      | false => exact ⟨[], [c], rfl, .nil, by simpa using hc, by simp⟩
  | c :: c' :: s => by
      cases hc : isPlain c with
      | true =>
          rcases exists_body_append (c' :: s) with ⟨b, t, hs, hb, ht⟩
          exact ⟨c :: b, t, by rw [hs, List.cons_append], .plain hc hb, ht⟩
      | false =>
          by_cases hescape : c = '\\' ∧ isEscape c' = true
          · rcases hescape with ⟨rfl, hc'⟩
            rcases exists_body_append s with ⟨b, t, hs, hb, ht⟩
            exact ⟨'\\' :: c' :: b, t, by rw [hs]; rfl, .escape hc' hb, ht⟩
          · refine ⟨[], c :: c' :: s, rfl, .nil, by simpa using hc, fun c'' t h => ?_⟩
            cases h
            simpa using hescape

theorem accepts_innerString {b t : List Char} (hb : LiteralBody b) (ht : EndsBody t) :
    Accepts cclGrammar .compoundAtomic (.call innerString) (b ++ t)
      ⟨[.mk innerString b []], b, t⟩ := by
  have hbody : Accepts cclGrammar .atomic innerString.body (b ++ t) ⟨[], b, t⟩ :=
    (sameOutcomes_innerString (by decide) _ _).mpr (accepts_bodyRuns hb ht)
  exact accepts_call cclGrammar .compoundAtomic innerString hbody

theorem rejects_stringLiteral {s : List Char} (hs : ∀ c ∈ s.head?, c ≠ '"') :
    Rejects cclGrammar mode (.call stringLiteral) s := by
  have hquote : Rejects cclGrammar .compoundAtomic (text "\"") s := by
    refine rejects_str fun hprefix => ?_
    rcases hprefix with ⟨t, rfl⟩
    exact hs '"' rfl rfl
  exact rejects_call cclGrammar mode stringLiteral (Yields.tieReject hquote)

theorem rejects_stringLiteral_body {b t : List Char} (hb : LiteralBody b) (ht : EndsBody t)
    (hquote : ∀ c ∈ t.head?, c ≠ '"') :
    Rejects cclGrammar mode (.call stringLiteral) ('"' :: (b ++ t)) := by
  have hclosing : Rejects cclGrammar .compoundAtomic (text "\"") t := by
    refine rejects_str fun hprefix => ?_
    rcases hprefix with ⟨t, rfl⟩
    exact hquote '"' rfl rfl
  have hinner := (accepts_innerString hb ht).tie (.skipNothing (by decide)) hclosing
  have hbody := (accepts_str ['"'] (b ++ t)).tie (.skipNothing (by decide)) hinner
  exact rejects_call cclGrammar mode stringLiteral hbody

theorem accepts_stringLiteral {b : List Char} (hb : LiteralBody b) (t : List Char) :
    Accepts cclGrammar mode (.call stringLiteral) ('"' :: (b ++ '"' :: t))
      ⟨[.mk stringLiteral ('"' :: (b ++ ['"'])) [.mk innerString b []]], '"' :: (b ++ ['"']),
        t⟩ := by
  have hclosing : Accepts cclGrammar .compoundAtomic (text "\"") ('"' :: t) ⟨[], ['"'], t⟩ :=
    accepts_str ['"'] t
  have hinner := (accepts_innerString hb (endsBody_quote t)).tie (.skipNothing (by decide)) hclosing
  have hbody := (accepts_str ['"'] (b ++ '"' :: t)).tie (.skipNothing (by decide)) hinner
  exact accepts_call cclGrammar mode stringLiteral hbody

end Rule

theorem isToken_stringLiteral_iff {s : List Char} :
    IsToken stringLiteral s ↔ ∃ b, LiteralBody b ∧ s = '"' :: (b ++ ['"']) := by
  constructor
  · rintro ⟨pairs, h⟩
    cases s with
    | nil => cases h.unique (rejects_stringLiteral (by simp))
    | cons c s =>
        by_cases hc : c = '"'
        · subst hc
          rcases exists_body_append s with ⟨b, t, rfl, hb, ht⟩
          cases t with
          | nil => cases h.unique (rejects_stringLiteral_body hb ht (by simp))
          | cons c t =>
              by_cases hc : c = '"'
              · subst hc
                have hmatch := Outcome.accept.inj (h.unique (accepts_stringLiteral hb t))
                have hrest : [] = t := congrArg Match.rest hmatch
                rw [← hrest]
                exact ⟨b, hb, rfl⟩
              · cases h.unique (rejects_stringLiteral_body hb ht (by simpa using hc))
        · cases h.unique (rejects_stringLiteral (by simpa using hc))
  · rintro ⟨b, hb, rfl⟩
    exact ⟨_, accepts_stringLiteral hb []⟩

/-! ### The two readers -/

theorem unescape_cons {c : Char} (hc : c ≠ '\\') (s : List Char) :
    unescape (c :: s) = (unescape s).map (c :: ·) := by
  rw [unescape]
  · rintro rfl
    exact absurd rfl hc
  · rintro other rest rfl
    exact absurd rfl hc

/-- An escape leaves one character, and a backslash only where there were two. -/
theorem of_unescape_escape {c : Char} {s w : List Char}
    (h : unescape ('\\' :: c :: s) = .ok w) :
    ∃ c' w', unescape s = .ok w' ∧ w = c' :: w' ∧ (c' = '\\' → c = '\\') := by
  have hread : ∀ {c' : Char}, (c' = '\\' → c = '\\') →
      (unescape s).map (c' :: ·) = .ok w →
        ∃ c' w', unescape s = .ok w' ∧ w = c' :: w' ∧ (c' = '\\' → c = '\\') := by
    intro c' hc' hmap
    rcases Fallible.map_eq_ok_iff.mp hmap with ⟨w', hw', rfl⟩
    exact ⟨c', w', hw', rfl, hc'⟩
  unfold unescape at h
  split at h
  · next heq => cases heq
  · next heq => cases heq
  · next heq =>
      cases heq
      split at h
      · exact hread (by simp) h
      · exact hread (by simp) h
      · exact hread (by simp) h
      · exact hread (by simp) h
      · exact hread (by simp) h
      · cases h
  · next hescape heq =>
      cases heq
      exact absurd rfl (hescape c s rfl)

theorem unescape_of_not_mem {b : List Char} (h : '\\' ∉ b) : unescape b = .ok b := by
  induction b with
  | nil => rfl
  | cons c s ih =>
      rw [List.mem_cons, not_or] at h
      rw [unescape_cons (Ne.symm h.1), ih h.2]
      rfl

theorem count_unescape_le {b w : List Char} (hb : LiteralBody b) (h : unescape b = .ok w) :
    w.count '\\' ≤ b.count '\\' ∧ ('\\' ∈ b → w.count '\\' < b.count '\\') := by
  induction hb generalizing w with
  | nil =>
      cases h
      simp
  | plain hc hb ih =>
      rename_i c s
      have hne : c ≠ '\\' := by
        rintro rfl
        simp [isPlain] at hc
      rw [unescape_cons hne] at h
      rcases Fallible.map_eq_ok_iff.mp h with ⟨w', hw', rfl⟩
      simpa [List.count_cons, hne, Ne.symm hne] using ih hw'
  | escape hc hb ih =>
      rename_i c s
      rcases of_unescape_escape h with ⟨c', w', hw', rfl, hc'⟩
      have hle := (ih hw').1
      have hone : (if c' = '\\' then 1 else 0) ≤ (if c = '\\' then 1 else 0) := by
        split
        · next h => simp [hc' h]
        · simp
      simp only [List.count_cons, beq_iff_eq, if_true]
      omega

theorem count_dropWhile_quote (s : List Char) :
    (s.dropWhile (· = '"')).count '\\' = s.count '\\' := by
  induction s with
  | nil => rfl
  | cons c s ih =>
      rw [List.dropWhile_cons]
      split
      · next hc => simp_all
      · rfl

theorem count_trimQuotes (raw : String) :
    (trimQuotes raw).toList.count '\\' = raw.toList.count '\\' := by
  rw [trimQuotes, String.toList_ofList, List.count_reverse, count_dropWhile_quote,
    List.count_reverse, count_dropWhile_quote]

theorem LiteralBody.quote_not_mem {b : List Char} (hb : LiteralBody b) (h : '\\' ∉ b) :
    '"' ∉ b := by
  induction hb with
  | nil => simp
  | plain hc hb ih =>
      rename_i c s
      have hne : '"' ≠ c := by
        rintro rfl
        simp [isPlain] at hc
      rw [List.mem_cons, not_or] at h ⊢
      exact ⟨hne, ih h.2⟩
  | escape hc hb ih => simp at h

theorem dropWhile_quote_of_not_mem {b : List Char} (h : '"' ∉ b) :
    b.dropWhile (· = '"') = b := by
  cases b with
  | nil => rfl
  | cons c s =>
      rw [List.mem_cons, not_or] at h
      exact List.dropWhile_cons_of_neg (by simpa using Ne.symm h.1)

theorem trimQuotes_eq {raw : String} {b : List Char} (hraw : raw.toList = '"' :: (b ++ ['"']))
    (hb : '"' ∉ b) : trimQuotes raw = String.ofList b := by
  have hleft : raw.toList.dropWhile (· = '"') = (b ++ ['"']).dropWhile (· = '"') := by
    simp [hraw]
  have hright : ((b ++ ['"']).dropWhile (· = '"')).reverse.dropWhile (· = '"') = b.reverse := by
    cases b with
    | nil => simp
    | cons c s =>
        have hreverse : '"' ∉ (c :: s).reverse := by rwa [List.mem_reverse]
        rw [List.dropWhile_append, dropWhile_quote_of_not_mem hb]
        simpa using dropWhile_quote_of_not_mem hreverse
  rw [trimQuotes, hleft, hright, List.reverse_reverse]

/-- Both readers give the same for the literals without a backslash. -/
theorem literal_readings_agree_iff {token : String} (h : IsToken stringLiteral token.toList) :
    extractStringLiteral token = .ok (trimQuotes token) ↔ '\\' ∉ token.toList := by
  rcases isToken_stringLiteral_iff.mp h with ⟨b, hb, htoken⟩
  have hmem : '\\' ∈ token.toList ↔ '\\' ∈ b := by simp [htoken]
  have hextract : extractStringLiteral token = (unescape b).map String.ofList := by
    rw [extractStringLiteral, htoken, List.tail_cons, List.dropLast_concat]
  rw [hextract, hmem]
  constructor
  · intro hread hbackslash
    rcases Fallible.map_eq_ok_iff.mp hread with ⟨w, hw, heq⟩
    have hlt := (count_unescape_le hb hw).2 hbackslash
    have hlist : (String.ofList w).toList = w := String.toList_ofList
    have hcount : w.count '\\' = b.count '\\' := by
      rw [← hlist, heq, count_trimQuotes, htoken]
      simp
    omega
  · intro hbackslash
    rw [unescape_of_not_mem hbackslash, trimQuotes_eq htoken (hb.quote_not_mem hbackslash)]
    rfl

theorem literal_readings_agree_vote :
    extractStringLiteral "\"vote\"" = .ok (trimQuotes "\"vote\"") := by
  refine (literal_readings_agree_iff (isToken_stringLiteral_iff.mpr ⟨"vote".toList, ?_, ?_⟩)).mpr ?_
  · exact .plain rfl (.plain rfl (.plain rfl (.plain rfl .nil)))
  · decide
  · decide

/-- The grammar has an escaped slash, which is an error to one reader and two characters to
the other. -/
theorem literal_readings_slash :
    IsToken stringLiteral "\"a\\/b\"".toList ∧
      extractStringLiteral "\"a\\/b\"" =
        .error (.parse ("Invalid escape sequence: \\" ++ String.singleton '/')) ∧
      trimQuotes "\"a\\/b\"" = "a\\/b" := by
  refine ⟨isToken_stringLiteral_iff.mpr ⟨"a\\/b".toList, ?_, by decide⟩, rfl, by decide⟩
  exact .plain rfl (.escape rfl (.plain rfl .nil))

end Ccl

end Icn

import Icn.Ccl.Structure

/-!
# Where calls are named

In a block whose fields do not have the key `function_name`, and in which a call is the
value of a field only under its own name, every call that is lowered stands under the name
of its function (`callsNamedIn_of_lowerBlock`). Call statements are of this kind, and
what stands in arrays and in arguments does not matter.
-/

open Foundation

namespace Icn

namespace Ccl

variable {T : DslTypes}

mutual

/-- What a value may be behind a key. -/
def Value.NamedUnder (key : String) : Value → Prop
  | .functionCall name _ => name = key
  | .object pairs => PairsNamed pairs
  | .rangeValue _ _ block => BlockNamed block
  | .stringLiteral _ => True
  | .duration _ => True
  | .number _ => True
  | .boolean _ => True
  | .array _ => True
  | .generalIdentifier _ => True

def ObjectPair.Named : ObjectPair → Prop
  | .mk key value => trimQuotes key ≠ "function_name" ∧ value.NamedUnder (trimQuotes key)

def PairsNamed : List ObjectPair → Prop
  | [] => True
  | pair :: pairs => pair.Named ∧ PairsNamed pairs

def Payload.NamedUnder (key : String) : Payload → Prop
  | .value value => value.NamedUnder key
  | .block block => BlockNamed block
  | .absent => True
  | .generalIdentifier _ => True

/-- What a statement may be in a block. -/
def Statement.Named : Statement → Prop
  | .anyStatement key payload =>
      trimQuotes key ≠ "function_name" ∧ payload.NamedUnder (trimQuotes key)
  | .ifStatement _ _ _ thenBlock elseBlock => BlockNamed thenBlock ∧ ElseNamed elseBlock
  | .rangeStatement _ _ block => BlockNamed block
  | .functionCallStatement name _ => name ≠ "function_name"
  | .organizationDef _ _ => True
  | .rolesDef _ => True
  | .roleDef _ _ => True
  | .sectionDef _ _ => True
  | .actionsDef _ => True
  | .actionDef _ _ => True
  | .mintToken _ => True
  | .anchorData _ => True
  | .performMeteredAction _ _ _ _ => True
  | .budgetDef _ _ => True
  | .bylawsDef _ _ _ => True
  | .electionDef _ _ => True
  | .proposalDef _ _ => True
  | .scenarioDef _ _ => True
  | .namedConstruct _ _ _ => True

def BlockNamed : List Statement → Prop
  | [] => True
  | statement :: block => statement.Named ∧ BlockNamed block

def ElseNamed : Option (List Statement) → Prop
  | none => True
  | some block => BlockNamed block

end

/-- A rule that does not make a call of the map that it is in. -/
def Rule.Ordinary (rule : Rule T) : Prop := rule.key ≠ "function_name" ∧ rule.CallsNamed

theorem callsNamedIn_of_ordinary {rules : List (Rule T)} (h : ∀ rule ∈ rules, rule.Ordinary) :
    CallsNamedIn rules := by
  induction rules with
  | nil => trivial
  | cons rule rules ih =>
      rw [List.forall_mem_cons] at h
      exact ⟨h.1.2, ih h.2⟩

theorem callsNamed_map (key : String) {rules : List (Rule T)} (h : ∀ rule ∈ rules, rule.Ordinary) :
    (Rule.mk key (.map rules)).CallsNamed := by
  have hcall : ¬ isFunctionCall rules = true := by
    cases rules with
    | nil => exact Bool.false_ne_true
    | cons rule rules =>
        intro hcall
        exact (h rule List.mem_cons_self).1 (of_decide_eq_true hcall)
  rw [Rule.CallsNamed, if_neg hcall]
  exact callsNamedIn_of_ordinary h

theorem forall_mem_concat {α : Type*} {p : α → Prop} {l : List α} {a : α} (hl : ∀ b ∈ l, p b)
    (ha : p a) : ∀ b ∈ l ++ [a], p b :=
  List.forall_mem_append.mpr ⟨hl, List.forall_mem_singleton.mpr ha⟩

/-- The keys that are made for ranges and conditionals are not the key of a name. -/
theorem ne_of_head?_ne {s : String} (h : s.toList.head? ≠ some 'f') : s ≠ "function_name" := by
  rintro rfl
  exact h rfl

variable {lib : LowerLibrary T}

theorem exists_of_lowerRangeStatement {start stop : String}
    {block : Except LowerError (String × List (Rule T))} {range : T.F64 × T.F64 × List (Rule T)}
    (h : lowerRangeStatement lib start stop block = .ok range) :
    ∃ body, block = .ok (body, range.2.2) := by
  obtain ⟨startVal, -, h⟩ := Fallible.bind_eq_ok_iff.mp h
  obtain ⟨endVal, -, h⟩ := Fallible.bind_eq_ok_iff.mp h
  obtain ⟨⟨body, rules⟩, hblock, h⟩ := Fallible.bind_eq_ok_iff.mp h
  obtain rfl := Except.ok.inj h
  exact ⟨body, hblock⟩

mutual

theorem callsNamed_of_lowerValueRule : ∀ {value : Value} {key : String} {lowered : RuleValue T},
    value.NamedUnder key → lowerValueRule lib value = .ok lowered →
      (Rule.mk key lowered).CallsNamed
  | .stringLiteral raw, key, _, _, h => by
      obtain rfl := Except.ok.inj h
      trivial
  | .number text, key, _, _, h => by
      obtain ⟨x, -, rfl⟩ := Fallible.map_eq_ok_iff.mp h
      trivial
  | .boolean b, key, _, _, h => by
      obtain rfl := Except.ok.inj h
      trivial
  | .duration text, key, _, _, h => by
      obtain rfl := Except.ok.inj h
      trivial
  | .generalIdentifier text, key, _, _, h => by
      obtain rfl := Except.ok.inj h
      trivial
  | .array elements, key, _, _, h => by
      obtain ⟨values, -, rfl⟩ := Fallible.map_eq_ok_iff.mp h
      trivial
  | .functionCall name args, key, _, hnamed, h => by
      obtain ⟨namedArgs, -, rfl⟩ := Fallible.map_eq_ok_iff.mp h
      obtain rfl := hnamed
      rw [functionCallRules, Rule.CallsNamed]
      exact ⟨namedArgs, rfl⟩
  | .object pairs, key, _, hnamed, h => by
      obtain ⟨rules, hrules, rfl⟩ := Fallible.map_eq_ok_iff.mp h
      exact callsNamed_map key (ordinary_of_lowerPairs hnamed hrules)
  | .rangeValue start stop block, key, _, hnamed, h => by
      rw [lowerValueRule] at h
      obtain ⟨⟨startVal, endVal, rules⟩, hrange, h⟩ := Fallible.bind_eq_ok_iff.mp h
      obtain rfl := Except.ok.inj h
      obtain ⟨body, hblock⟩ := exists_of_lowerRangeStatement hrange
      exact callsNamedIn_of_ordinary
        (ordinary_of_lowerBlock hnamed (List.forall_mem_nil _) hblock)

theorem ordinary_of_lowerPairs : ∀ {pairs : List ObjectPair} {rules : List (Rule T)},
    PairsNamed pairs → lowerPairs lib pairs = .ok rules → ∀ rule ∈ rules, rule.Ordinary
  | [], _, _, h => by
      obtain rfl := Except.ok.inj h
      intro rule hrule
      cases hrule
  | .mk key value :: pairs, _, hnamed, h => by
      obtain ⟨⟨hkey, hvalue⟩, hpairs⟩ := hnamed
      rw [lowerPairs, lowerPair] at h
      obtain ⟨rule, hrule, h⟩ := Fallible.bind_eq_ok_iff.mp h
      obtain ⟨lowered, hlowered, rfl⟩ := Fallible.map_eq_ok_iff.mp hrule
      obtain ⟨rules, hrules, h⟩ := Fallible.bind_eq_ok_iff.mp h
      obtain rfl := Except.ok.inj h
      rw [List.forall_mem_cons]
      exact ⟨⟨hkey, callsNamed_of_lowerValueRule hvalue hlowered⟩,
        ordinary_of_lowerPairs hpairs hrules⟩

theorem ordinary_of_lowerPayload : ∀ {payload : Payload} {key : String}
    {found found' : String × List (Rule T)}, key ≠ "function_name" → payload.NamedUnder key →
      (∀ rule ∈ found.2, rule.Ordinary) → lowerPayload lib key found payload = .ok found' →
        ∀ rule ∈ found'.2, rule.Ordinary
  | .absent, key, _, _, hkey, _, hfound, h => by
      obtain rfl := Except.ok.inj h
      exact forall_mem_concat hfound ⟨hkey, trivial⟩
  | .generalIdentifier text, key, _, _, hkey, _, hfound, h => by
      obtain rfl := Except.ok.inj h
      exact forall_mem_concat hfound ⟨hkey, trivial⟩
  | .block block, key, _, _, hkey, hnamed, hfound, h => by
      rw [lowerPayload] at h
      obtain ⟨⟨body, rules⟩, hblock, h⟩ := Fallible.bind_eq_ok_iff.mp h
      obtain rfl := Except.ok.inj h
      have hrules := ordinary_of_lowerBlock hnamed (List.forall_mem_nil _) hblock
      exact forall_mem_concat hfound ⟨hkey, callsNamed_map key hrules⟩
  | .value value, key, found, found', hkey, hnamed, hfound, h => by
      rw [lowerPayload] at h
      obtain ⟨lowered, hlowered, h⟩ := Fallible.bind_eq_ok_iff.mp h
      split_ifs at h with hdescription
      · -- a description is no rule
        have hsame : found'.2 = found.2 := by
          split at h <;> rw [← Except.ok.inj h]
        rw [hsame]
        exact hfound
      · obtain rfl := Except.ok.inj h
        exact forall_mem_concat hfound ⟨hkey, callsNamed_of_lowerValueRule hnamed hlowered⟩

theorem ordinary_of_lowerField : ∀ {statement : Statement}
    {found found' : String × List (Rule T)}, statement.Named →
      (∀ rule ∈ found.2, rule.Ordinary) → lowerField lib found statement = .ok found' →
        ∀ rule ∈ found'.2, rule.Ordinary
  | .anyStatement key payload, _, _, hnamed, hfound, h =>
      ordinary_of_lowerPayload hnamed.1 hnamed.2 hfound h
  | .rangeStatement start stop block, _, _, hnamed, hfound, h => by
      rw [lowerField] at h
      obtain ⟨⟨startVal, endVal, rules⟩, hrange, h⟩ := Fallible.bind_eq_ok_iff.mp h
      obtain rfl := Except.ok.inj h
      obtain ⟨body, hblock⟩ := exists_of_lowerRangeStatement hrange
      have hrules := ordinary_of_lowerBlock hnamed (List.forall_mem_nil _) hblock
      refine forall_mem_concat hfound ⟨ne_of_head?_ne ?_, callsNamedIn_of_ordinary hrules⟩
      simp [Rule.key, toString]
  | .ifStatement condition left right thenBlock elseBlock, _, _, hnamed, hfound, h => by
      rw [lowerField] at h
      obtain ⟨⟨body, thenRules⟩, hthen, h⟩ := Fallible.bind_eq_ok_iff.mp h
      obtain ⟨elseRules, helse, h⟩ := Fallible.bind_eq_ok_iff.mp h
      obtain rfl := Except.ok.inj h
      have hthenRules := ordinary_of_lowerBlock hnamed.1 (List.forall_mem_nil _) hthen
      refine forall_mem_concat hfound
        ⟨ne_of_head?_ne ?_, callsNamedIn_of_ordinary hthenRules,
          callsNamedInElse_of_lowerElse hnamed.2 helse⟩
      simp [Rule.key, toString]
  | .functionCallStatement name args, _, _, hnamed, hfound, h => by
      rw [lowerField] at h
      obtain ⟨namedArgs, -, h⟩ := Fallible.bind_eq_ok_iff.mp h
      obtain rfl := Except.ok.inj h
      refine forall_mem_concat hfound ⟨hnamed, ?_⟩
      rw [functionCallRules, Rule.CallsNamed]
      exact ⟨namedArgs, rfl⟩
  | .organizationDef _ _, _, _, _, hfound, h => Except.ok.inj h ▸ hfound
  | .rolesDef _, _, _, _, hfound, h => Except.ok.inj h ▸ hfound
  | .roleDef _ _, _, _, _, hfound, h => Except.ok.inj h ▸ hfound
  | .sectionDef _ _, _, _, _, hfound, h => Except.ok.inj h ▸ hfound
  | .actionsDef _, _, _, _, hfound, h => Except.ok.inj h ▸ hfound
  | .actionDef _ _, _, _, _, hfound, h => Except.ok.inj h ▸ hfound
  | .mintToken _, _, _, _, hfound, h => Except.ok.inj h ▸ hfound
  | .anchorData _, _, _, _, hfound, h => Except.ok.inj h ▸ hfound
  | .performMeteredAction _ _ _ _, _, _, _, hfound, h => Except.ok.inj h ▸ hfound
  | .budgetDef _ _, _, _, _, hfound, h => Except.ok.inj h ▸ hfound
  | .bylawsDef _ _ _, _, _, _, hfound, h => Except.ok.inj h ▸ hfound
  | .electionDef _ _, _, _, _, hfound, h => Except.ok.inj h ▸ hfound
  | .proposalDef _ _, _, _, _, hfound, h => Except.ok.inj h ▸ hfound
  | .scenarioDef _ _, _, _, _, hfound, h => Except.ok.inj h ▸ hfound
  | .namedConstruct _ _ _, _, _, _, hfound, h => Except.ok.inj h ▸ hfound

theorem ordinary_of_lowerBlock : ∀ {block : List Statement}
    {found found' : String × List (Rule T)}, BlockNamed block →
      (∀ rule ∈ found.2, rule.Ordinary) → lowerBlock lib block found = .ok found' →
        ∀ rule ∈ found'.2, rule.Ordinary
  | [], _, _, _, hfound, h => by
      rw [lowerBlock] at h
      obtain rfl := Except.ok.inj h
      exact hfound
  | statement :: block, _, _, hnamed, hfound, h => by
      rw [lowerBlock] at h
      obtain ⟨next, hnext, h⟩ := Fallible.bind_eq_ok_iff.mp h
      exact ordinary_of_lowerBlock hnamed.2 (ordinary_of_lowerField hnamed.1 hfound hnext) h

theorem callsNamedInElse_of_lowerElse : ∀ {block : Option (List Statement)}
    {rules : Option (List (Rule T))}, ElseNamed block → lowerElse lib block = .ok rules →
      CallsNamedInElse rules
  | none, _, _, h => by
      rw [lowerElse] at h
      obtain rfl := Except.ok.inj h
      trivial
  | some block, _, hnamed, h => by
      rw [lowerElse] at h
      obtain ⟨⟨body, rules⟩, hblock, h⟩ := Fallible.bind_eq_ok_iff.mp h
      obtain rfl := Except.ok.inj h
      exact callsNamedIn_of_ordinary (ordinary_of_lowerBlock hnamed (List.forall_mem_nil _) hblock)

end

theorem callsNamedIn_of_lowerBlock {block : List Statement} {found : String × List (Rule T)}
    (hnamed : BlockNamed block) (h : lowerBlockCommonFields lib block = .ok found) :
    CallsNamedIn found.2 :=
  callsNamedIn_of_ordinary (ordinary_of_lowerBlock hnamed (List.forall_mem_nil _) h)

end Ccl

end Icn

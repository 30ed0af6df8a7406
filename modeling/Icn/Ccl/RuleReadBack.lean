import Icn.Ccl.RuleJson

/-!
# Values of rules that survive JSON

A value that is written and read again is the same but for its empty maps, which are read as
empty lists, and its numbers, which are read as near as the parser can (`ofText_toText`). So
`readBack_eq_self_iff` says which values come back.
-/

open Foundation Codec Json

namespace Icn

namespace Ccl

variable {T : DslTypes}

/-! ### The values inside a value -/

@[elab_as_elim]
theorem RuleValue.inductionOn_rules {motive : RuleValue T → Prop} (value : RuleValue T)
    (string : ∀ text, motive (.string text)) (number : ∀ x, motive (.number x))
    (boolean : ∀ b, motive (.boolean b))
    (list : ∀ values, (∀ value ∈ values, motive value) → motive (.list values))
    (map : ∀ rules, (∀ rule ∈ rules, motive rule.value) → motive (.map rules))
    (range : ∀ start stop rules, (∀ rule ∈ rules, motive rule.value) →
      motive (.range start stop rules))
    (cond : ∀ conditionRaw thenRules elseRules, (∀ rule ∈ thenRules, motive rule.value) →
      (∀ rules ∈ elseRules, ∀ rule ∈ rules, motive rule.value) →
      motive (.cond conditionRaw thenRules elseRules)) : motive value :=
  @RuleValue.rec T (fun rule => motive rule.value) motive
    (fun values => ∀ value ∈ values, motive value)
    (fun rules => ∀ rule ∈ rules, motive rule.value)
    (fun elseRules => ∀ rules ∈ elseRules, ∀ rule ∈ rules, motive rule.value)
    (fun _ _ hvalue => hvalue) string number boolean list map range cond
    (fun _ h => absurd h List.not_mem_nil)
    (fun _ _ hvalue hvalues => List.forall_mem_cons.mpr ⟨hvalue, hvalues⟩)
    (fun _ h => absurd h List.not_mem_nil)
    (fun _ _ hrule hrules => List.forall_mem_cons.mpr ⟨hrule, hrules⟩)
    (fun _ h => absurd h (Option.not_mem_none _))
    (fun _ hrules _ h => (Option.mem_some_iff.mp h) ▸ hrules) value

mutual

def RuleValue.parts : RuleValue T → List (RuleValue T)
  | .string text => [.string text]
  | .number x => [.number x]
  | .boolean b => [.boolean b]
  | .list values => .list values :: valuesParts values
  | .map rules => .map rules :: rulesParts rules
  | .range start stop rules => .range start stop rules :: rulesParts rules
  | .cond conditionRaw thenRules elseRules =>
      .cond conditionRaw thenRules elseRules :: (rulesParts thenRules ++ elseParts elseRules)

def valuesParts : List (RuleValue T) → List (RuleValue T)
  | [] => []
  | value :: values => value.parts ++ valuesParts values

def Rule.parts : Rule T → List (RuleValue T)
  | .mk _ value => value.parts

def rulesParts : List (Rule T) → List (RuleValue T)
  | [] => []
  | rule :: rules => rule.parts ++ rulesParts rules

def elseParts : Option (List (Rule T)) → List (RuleValue T)
  | none => []
  | some rules => rulesParts rules

end

def RuleValue.numbers : RuleValue T → List T.F64
  | .number x => [x]
  | .range start stop _ => [start, stop]
  | _ => []

theorem Rule.parts_eq (rule : Rule T) : rule.parts = rule.value.parts := by
  cases rule
  rw [Rule.parts, Rule.value]

section Parts

variable {p : RuleValue T → Prop}

theorem forall_mem_valuesParts_iff {values : List (RuleValue T)} :
    (∀ part ∈ valuesParts values, p part) ↔ ∀ value ∈ values, ∀ part ∈ value.parts, p part := by
  induction values with
  | nil => simp [valuesParts]
  | cons value values ih =>
      rw [valuesParts, List.forall_mem_append, ih, List.forall_mem_cons]

theorem forall_mem_rulesParts_iff {rules : List (Rule T)} :
    (∀ part ∈ rulesParts rules, p part) ↔
      ∀ rule ∈ rules, ∀ part ∈ rule.value.parts, p part := by
  induction rules with
  | nil => simp [rulesParts]
  | cons rule rules ih =>
      rw [rulesParts, List.forall_mem_append, ih, List.forall_mem_cons, rule.parts_eq]

theorem forall_mem_elseParts_iff {elseRules : Option (List (Rule T))} :
    (∀ part ∈ elseParts elseRules, p part) ↔
      ∀ rules ∈ elseRules, ∀ rule ∈ rules, ∀ part ∈ rule.value.parts, p part := by
  cases elseRules with
  | none => simp [elseParts]
  | some rules =>
      rw [elseParts, forall_mem_rulesParts_iff]
      exact ⟨fun h _ hrules => Option.mem_some_iff.mp hrules ▸ h, fun h => h rules rfl⟩

end Parts

/-! ### What comes back -/

mutual

/-- A value as it comes back from JSON: an empty map is taken for an empty list. -/
def RuleValue.readBack (g : T.F64 → T.F64) : RuleValue T → RuleValue T
  | .string text => .string text
  | .number x => .number (g x)
  | .boolean b => .boolean b
  | .list values => .list (valuesReadBack g values)
  | .map rules => if rules.isEmpty then .list [] else .map (rulesReadBack g rules)
  | .range start stop rules => .range (g start) (g stop) (rulesReadBack g rules)
  | .cond conditionRaw thenRules elseRules =>
      .cond conditionRaw (rulesReadBack g thenRules) (elseReadBack g elseRules)

def valuesReadBack (g : T.F64 → T.F64) : List (RuleValue T) → List (RuleValue T)
  | [] => []
  | value :: values => value.readBack g :: valuesReadBack g values

def Rule.readBack (g : T.F64 → T.F64) : Rule T → Rule T
  | .mk key value => .mk key (value.readBack g)

def rulesReadBack (g : T.F64 → T.F64) : List (Rule T) → List (Rule T)
  | [] => []
  | rule :: rules => rule.readBack g :: rulesReadBack g rules

def elseReadBack (g : T.F64 → T.F64) : Option (List (Rule T)) → Option (List (Rule T))
  | none => none
  | some rules => some (rulesReadBack g rules)

end

section AsMaps

theorem valuesReadBack_eq_map (g : T.F64 → T.F64) (values : List (RuleValue T)) :
    valuesReadBack g values = values.map (RuleValue.readBack g) := by
  induction values with
  | nil => rfl
  | cons value values ih => rw [valuesReadBack, ih, List.map_cons]

theorem rulesReadBack_eq_map (g : T.F64 → T.F64) (rules : List (Rule T)) :
    rulesReadBack g rules = rules.map (Rule.readBack g) := by
  induction rules with
  | nil => rfl
  | cons rule rules ih => rw [rulesReadBack, ih, List.map_cons]

theorem valuesToJson_eq_map (lib : DslLibrary T) (values : List (RuleValue T)) :
    valuesToJson lib values = values.map (RuleValue.toJson lib) := by
  induction values with
  | nil => rfl
  | cons value values ih => rw [valuesToJson, ih, List.map_cons]

theorem rulesToJson_eq_map (lib : DslLibrary T) (rules : List (Rule T)) :
    rulesToJson lib rules = rules.map (Rule.toJson lib) := by
  induction rules with
  | nil => rfl
  | cons rule rules ih => rw [rulesToJson, ih, List.map_cons]

end AsMaps

theorem Rule.readBack_eq_self_iff {g : T.F64 → T.F64} {rule : Rule T} :
    rule.readBack g = rule ↔ rule.value.readBack g = rule.value := by
  cases rule with
  | mk key value => rw [Rule.readBack, Rule.value, Rule.mk.injEq, eq_self, true_and]

theorem map_eq_self_iff {α : Type*} {f : α → α} {l : List α} :
    l.map f = l ↔ ∀ a ∈ l, f a = a := by
  conv_lhs => rhs; rw [← List.map_id l]
  exact List.map_inj_left

/-- Nothing of a value itself is lost. -/
def RuleValue.Kept (g : T.F64 → T.F64) (value : RuleValue T) : Prop :=
  value ≠ .map [] ∧ ∀ x ∈ value.numbers, g x = x

theorem rulesReadBack_eq_self_iff {g : T.F64 → T.F64} {rules : List (Rule T)}
    (h : ∀ rule ∈ rules, rule.value.readBack g = rule.value ↔
      ∀ part ∈ rule.value.parts, part.Kept g) :
    rulesReadBack g rules = rules ↔ ∀ part ∈ rulesParts rules, part.Kept g := by
  rw [rulesReadBack_eq_map, map_eq_self_iff, forall_mem_rulesParts_iff]
  exact forall₂_congr fun rule hrule => Rule.readBack_eq_self_iff.trans (h rule hrule)

theorem RuleValue.readBack_eq_self_iff (g : T.F64 → T.F64) (value : RuleValue T) :
    value.readBack g = value ↔ ∀ part ∈ value.parts, part.Kept g := by
  induction value using RuleValue.inductionOn_rules with
  | string text => simp [RuleValue.readBack, parts, Kept, numbers]
  | number x => simp [RuleValue.readBack, parts, Kept, numbers]
  | boolean b => simp [RuleValue.readBack, parts, Kept, numbers]
  | list values ih =>
      rw [RuleValue.readBack, RuleValue.list.injEq, valuesReadBack_eq_map, map_eq_self_iff, parts,
        List.forall_mem_cons, forall_mem_valuesParts_iff, and_iff_right (by simp [Kept, numbers])]
      exact forall₂_congr ih
  | map rules ih =>
      rw [RuleValue.readBack, parts, List.forall_mem_cons]
      cases rules with
      | nil => simp [Kept]
      | cons rule rules =>
          rw [if_neg (by simp), RuleValue.map.injEq, rulesReadBack_eq_self_iff ih,
            and_iff_right (by simp [Kept, numbers])]
  | range start stop rules ih =>
      rw [RuleValue.readBack, parts, List.forall_mem_cons, RuleValue.range.injEq,
        rulesReadBack_eq_self_iff ih, ← and_assoc]
      exact and_congr_left' (by simp [Kept, numbers])
  | cond conditionRaw thenRules elseRules ihthen ihelse =>
      have hown : Kept g (.cond conditionRaw thenRules elseRules) := by simp [Kept, numbers]
      rw [RuleValue.readBack, parts, List.forall_mem_cons, List.forall_mem_append,
        RuleValue.cond.injEq, rulesReadBack_eq_self_iff ihthen, eq_self, true_and,
        and_iff_right hown]
      refine and_congr_right' ?_
      cases elseRules with
      | none => simp [elseReadBack, elseParts]
      | some rules =>
          rw [elseReadBack, Option.some.injEq, elseParts,
            rulesReadBack_eq_self_iff (ihelse rules rfl)]

/-! ### Reading what was written -/

def DslLibrary.mapNumbers (f : Number → Number) (lib : DslLibrary T) : DslLibrary T :=
  { lib with numberJson := fun x => (lib.numberJson x).mapNumbers f }

theorem mapNumbers_rulesToJson {f : Number → Number} {lib : DslLibrary T} {rules : List (Rule T)}
    (h : ∀ rule ∈ rules, (rule.value.toJson lib).mapNumbers f =
      rule.value.toJson (lib.mapNumbers f)) :
    (rulesToJson lib rules).map (Json.mapNumbers f) = rulesToJson (lib.mapNumbers f) rules := by
  rw [rulesToJson_eq_map, rulesToJson_eq_map, List.map_map]
  refine List.map_congr_left fun rule hrule => ?_
  cases rule with
  | mk key value =>
      have hvalue : (value.toJson lib).mapNumbers f = value.toJson (lib.mapNumbers f) :=
        h _ hrule
      rw [Function.comp_apply, Rule.toJson, Rule.toJson, mapNumbers_object, mapValues_cons,
        mapValues_cons, mapValues_nil, mapNumbers_string, hvalue]

theorem RuleValue.mapNumbers_toJson (f : Number → Number) (lib : DslLibrary T)
    (value : RuleValue T) :
    (value.toJson lib).mapNumbers f = value.toJson (lib.mapNumbers f) := by
  induction value using RuleValue.inductionOn_rules with
  | string text => rfl
  | number x => rw [RuleValue.toJson, RuleValue.toJson, DslLibrary.mapNumbers]
  | boolean b => rfl
  | list values ih =>
      rw [RuleValue.toJson, RuleValue.toJson, mapNumbers_array, valuesToJson_eq_map,
        valuesToJson_eq_map, List.map_map]
      exact congrArg Json.array (List.map_congr_left ih)
  | map rules ih =>
      rw [RuleValue.toJson, RuleValue.toJson, mapNumbers_array, mapNumbers_rulesToJson ih]
  | range start stop rules ih =>
      rw [RuleValue.toJson, RuleValue.toJson]
      simp only [mapNumbers_object, mapValues_cons, mapValues_nil, mapNumbers_array,
        mapNumbers_rulesToJson ih, DslLibrary.mapNumbers]
  | cond conditionRaw thenRules elseRules ihthen ihelse =>
      rw [RuleValue.toJson, RuleValue.toJson]
      cases elseRules with
      | none =>
          simp only [mapNumbers_object, mapValues_cons, mapValues_nil, mapNumbers_array,
            mapNumbers_string, mapNumbers_rulesToJson ihthen, elseToJson, mapNumbers_null]
      | some rules =>
          simp only [mapNumbers_object, mapValues_cons, mapValues_nil, mapNumbers_array,
            mapNumbers_string, mapNumbers_rulesToJson ihthen,
            mapNumbers_rulesToJson (ihelse rules rfl), elseToJson]

section Reading

variable {toF64 : Number → T.F64} {lib : DslLibrary T} {g : T.F64 → T.F64}

theorem readF64_eq_ok_iff {json : Json} {x : T.F64} :
    readF64 toF64 json = .ok x ↔ ∃ number, json = .number number ∧ toF64 number = x := by
  cases json <;> simp [readF64]

theorem rules_ofJson {rules : List (Rule T)}
    (h : ∀ rule ∈ rules, RuleValue.ofJson toF64 (rule.value.toJson lib) =
      .ok (rule.value.readBack g)) :
    readList (Rule.ofJson (RuleValue.ofJson toF64)) (.array (rulesToJson lib rules)) =
      .ok (rulesReadBack g rules) := by
  rw [readList, rulesToJson_eq_map, rulesReadBack_eq_map]
  refine Fallible.mapM_map_eq_ok rules fun rule hrule => ?_
  cases rule with
  | mk key value =>
      have hvalue : RuleValue.ofJson toF64 (value.toJson lib) = .ok (value.readBack g) :=
        h _ hrule
      simp only [Rule.toJson, Rule.ofJson, readRecord, List.foldlM_cons, List.foldlM_nil,
        Rule.visitEntry, readField, readString, hvalue, Except.map, bind, Except.bind, pure,
        Except.pure, Rule.finish, required, Rule.readBack]

theorem ofJson_rule_toJson (toF64 : Number → T.F64) (lib : DslLibrary T) (rule : Rule T) :
    ∃ e, RuleValue.ofJson toF64 (rule.toJson lib) = .error e := by
  cases rule with
  | mk key value =>
      rw [RuleValue.ofJson_eq, Rule.toJson]
      exact ⟨_, rfl⟩

theorem readList_rulesToJson (toF64 : Number → T.F64) (lib : DslLibrary T) (rule : Rule T)
    (rules : List (Rule T)) :
    ∃ e, readList (RuleValue.ofJson toF64) (.array (rulesToJson lib (rule :: rules))) =
      .error e := by
  obtain ⟨e, he⟩ := ofJson_rule_toJson toF64 lib rule
  rw [rulesToJson, readList, List.mapM_cons, he]
  exact ⟨e, rfl⟩

theorem RuleValue.ofJson_toJson (value : RuleValue T)
    (h : ∀ part ∈ value.parts, ∀ x ∈ part.numbers,
      readF64 toF64 (lib.numberJson x) = .ok (g x)) :
    ofJson toF64 (value.toJson lib) = .ok (value.readBack g) := by
  induction value using RuleValue.inductionOn_rules with
  | string text =>
      rw [ofJson_eq]
      rfl
  | number x =>
      have hx : readF64 toF64 (lib.numberJson x) = .ok (g x) := by
        simpa [parts, numbers] using h
      obtain ⟨number, hjson, hread⟩ := readF64_eq_ok_iff.mp hx
      rw [RuleValue.toJson, hjson, RuleValue.readBack, ← hread, ofJson_eq]
      rfl
  | boolean b =>
      rw [ofJson_eq]
      rfl
  | list values ih =>
      rw [parts, List.forall_mem_cons, forall_mem_valuesParts_iff] at h
      have hlist : readList (ofJson toF64) (.array (valuesToJson lib values)) =
          .ok (valuesReadBack g values) := by
        rw [readList, valuesToJson_eq_map, valuesReadBack_eq_map]
        exact Fallible.mapM_map_eq_ok values fun value hvalue => ih value hvalue (h.2 value hvalue)
      rw [RuleValue.toJson, RuleValue.readBack, ofJson_eq, readVariants,
        firstVariant_error ⟨_, rfl⟩, firstVariant_error ⟨_, rfl⟩, firstVariant_error ⟨_, rfl⟩]
      exact firstVariant_ok (by rw [hlist, Except.map])
  | map rules ih =>
      rw [parts, List.forall_mem_cons, forall_mem_rulesParts_iff] at h
      rw [RuleValue.toJson, RuleValue.readBack, ofJson_eq]
      cases rules with
      | nil => rfl
      | cons rule rules =>
          have hmap := rules_ofJson fun rule hrule => ih rule hrule (h.2 rule hrule)
          obtain ⟨e, he⟩ := readList_rulesToJson toF64 lib rule rules
          rw [readVariants, firstVariant_error ⟨_, rfl⟩, firstVariant_error ⟨_, rfl⟩,
            firstVariant_error ⟨_, rfl⟩, firstVariant_error ⟨e, by rw [he, Except.map]⟩]
          exact firstVariant_ok (by rw [hmap, Except.map]; rfl)
  | range start stop rules ih =>
      rw [parts, List.forall_mem_cons, forall_mem_rulesParts_iff] at h
      have hrules := rules_ofJson fun rule hrule => ih rule hrule (h.2 rule hrule)
      have hstart := h.1 start (by simp [numbers])
      have hstop := h.1 stop (by simp [numbers])
      rw [RuleValue.toJson, RuleValue.readBack, ofJson_eq, readVariants,
        firstVariant_error ⟨_, rfl⟩, firstVariant_error ⟨_, rfl⟩, firstVariant_error ⟨_, rfl⟩,
        firstVariant_error ⟨_, rfl⟩, firstVariant_error ⟨_, rfl⟩]
      refine firstVariant_ok ?_
      simp only [RangeRule.ofJson, readRecord, List.foldlM_cons, List.foldlM_nil,
        RangeRule.visitEntry, readField, hstart, hstop, hrules, Except.map, bind, Except.bind,
        pure, Except.pure, RangeRule.finish, required]
  | cond conditionRaw thenRules elseRules ihthen ihelse =>
      rw [parts, List.forall_mem_cons, List.forall_mem_append, forall_mem_rulesParts_iff,
        forall_mem_elseParts_iff] at h
      have hthen := rules_ofJson fun rule hrule => ihthen rule hrule (h.2.1 rule hrule)
      rw [RuleValue.toJson, RuleValue.readBack, ofJson_eq, readVariants,
        firstVariant_error ⟨_, rfl⟩, firstVariant_error ⟨_, rfl⟩, firstVariant_error ⟨_, rfl⟩,
        firstVariant_error ⟨_, rfl⟩, firstVariant_error ⟨_, rfl⟩, firstVariant_error ⟨_, rfl⟩]
      refine firstVariant_ok ?_
      have helse : readOption (readList (Rule.ofJson (ofJson toF64))) (elseToJson lib elseRules) =
          .ok (elseReadBack g elseRules) := by
        cases elseRules with
        | none => rfl
        | some rules =>
            rw [elseToJson, readOption, rules_ofJson fun rule hrule =>
              ihelse rules rfl rule hrule (h.2.2 rules rfl rule hrule)]
            · rfl
            · simp
      simp only [IfExpr.ofJson, readRecord, List.foldlM_cons, List.foldlM_nil, IfExpr.visitEntry,
        readField, readString, hthen, helse, Except.map, bind, Except.bind, pure, Except.pure,
        IfExpr.finish, required, Option.join_some]

end Reading

/-! ### Texts -/

/-- The numbers that JSON has a text for; the others are written as `null`. -/
def DslLibrary.Finite (lib : DslLibrary T) (x : T.F64) : Prop :=
  ∃ n, lib.numberJson x = .number n

def DslLibrary.rereadF64 (lib : DslLibrary T) (parser : Parser Empty) (toF64 : Number → T.F64)
    (x : T.F64) : T.F64 :=
  match lib.numberJson x with
  | .number n => toF64 (parser.reread n)
  | _ => x

variable (lib : DslLibrary T) (parser : Parser Empty) (toF64 : Number → T.F64)

theorem RuleValue.ofText_toText {value : RuleValue T}
    (hfinite : ∀ part ∈ value.parts, ∀ x ∈ part.numbers, lib.Finite x)
    (hdepth : (value.toJson lib).depth < recursionLimit) :
    ofText toF64 parser (value.toJson lib).toText =
      .ok (value.readBack (lib.rereadF64 parser toF64)) := by
  have hread : ofText toF64 parser (value.toJson lib).toText =
      ofJson toF64 ((value.toJson lib).mapNumbers parser.reread) := by
    rw [ofText, parser.parse_toText _ hdepth]
    rfl
  rw [hread, RuleValue.mapNumbers_toJson]
  refine RuleValue.ofJson_toJson value fun part hpart x hx => ?_
  obtain ⟨n, hn⟩ := hfinite part hpart x hx
  simp only [DslLibrary.mapNumbers, DslLibrary.rereadF64, hn, mapNumbers_number, readF64]

/-- A value survives its text when it is shallow enough for the parser, has no empty map and
only numbers that are read as they were. -/
theorem ruleValue_readBack_iff {value : RuleValue T}
    (hfinite : ∀ part ∈ value.parts, ∀ x ∈ part.numbers, lib.Finite x) :
    RuleValue.ofText toF64 parser (value.toJson lib).toText = .ok value ↔
      (value.toJson lib).depth < recursionLimit ∧ ∀ part ∈ value.parts,
        part ≠ .map [] ∧ ∀ x ∈ part.numbers, lib.rereadF64 parser toF64 x = x := by
  rw [show (∀ part ∈ value.parts, part ≠ .map [] ∧
      ∀ x ∈ part.numbers, lib.rereadF64 parser toF64 x = x) ↔
        value.readBack (lib.rereadF64 parser toF64) = value from
    (RuleValue.readBack_eq_self_iff _ value).symm]
  by_cases hdepth : (value.toJson lib).depth < recursionLimit
  · rw [RuleValue.ofText_toText lib parser toF64 hfinite hdepth, Except.ok.injEq,
      and_iff_right hdepth]
  · obtain ⟨e, he⟩ := parser.parse_deep _ (not_lt.mp hdepth)
    rw [RuleValue.ofText, he]
    constructor
    · intro h
      cases h
    · rintro ⟨h, -⟩
      exact absurd h hdepth

def wholeOfNumber (number : Number) : ℕ :=
  Nat.ofDigits 10 ((number.text.takeWhile (· ≠ 0x2e)).map fun byte => byte.toNat - 0x30).reverse

theorem ruleValue_readBack_quorum :
    RuleValue.ofText (T := wholeTypes) wholeOfNumber (Parser.exact Empty)
      ((RuleValue.list [.map [.mk "quorum" (.number (3 : ℕ))], .boolean true]).toJson
        wholeLibrary).toText =
      .ok (RuleValue.list [.map [.mk "quorum" (.number (3 : ℕ))], .boolean true] :
        RuleValue wholeTypes) := by
  refine (ruleValue_readBack_iff wholeLibrary (Parser.exact Empty) wholeOfNumber ?_).mpr ⟨?_, ?_⟩
  · intro part _ x _
    exact ⟨_, rfl⟩
  · decide
  · have hthree : wholeLibrary.rereadF64 (Parser.exact Empty) wholeOfNumber (3 : ℕ) = (3 : ℕ) := by
      decide
    simp [RuleValue.parts, valuesParts, rulesParts, Rule.parts, RuleValue.numbers, hthree]

/-- An empty map comes back as an empty list. -/
theorem emptyMap_not_readBack :
    RuleValue.ofText (T := wholeTypes) wholeOfNumber (Parser.exact Empty)
      ((RuleValue.map [] : RuleValue wholeTypes).toJson wholeLibrary).toText = .ok (.list []) ∧
    (.list [] : RuleValue wholeTypes) ≠ .map [] := by
  constructor
  · refine RuleValue.ofText_toText wholeLibrary (Parser.exact Empty) wholeOfNumber ?_ ?_
    · intro part _ x _
      exact ⟨_, rfl⟩
    · decide
  · intro h
    cases h

end Ccl

end Icn

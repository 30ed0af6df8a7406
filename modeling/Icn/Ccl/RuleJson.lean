import Icn.Foundation.Codec.JsonUntagged
import Icn.Foundation.Run.Fallible
import Icn.Ccl.Generator

/-!
# Values of rules in JSON

The JSON of a value has no tag, so the reader tries the variants in order: a list is tried
before a map, and a range before a conditional.

Every variant but one can be told from those before it. A map without rules is the JSON of
an empty list, and is read as one (`ofJson_toJson`).
-/

open Foundation Codec Json

namespace Icn

namespace Ccl

variable {T : DslTypes}

abbrev ReadDsl (α : Type) := Read Empty α

def readF64 (toF64 : Number → T.F64) : Json → ReadDsl T.F64
  | .number value => .ok (toF64 value)
  | _ => .error (.invalidType "f64")

section Readers

variable (toF64 : Number → T.F64) (read : Json → ReadDsl (RuleValue T))

namespace Rule

structure Fields (T : DslTypes) where
  key : Option String
  value : Option (RuleValue T)

def visitEntry (fields : Fields T) (entry : String × Json) : ReadDsl (Fields T) :=
  match entry with
  | ("key", json) => do
      let key ← readField "key" fields.key readString json
      return { fields with key }
  | ("value", json) => do
      let value ← readField "value" fields.value read json
      return { fields with value }
  | _ => .ok fields

def finish (fields : Fields T) : ReadDsl (Rule T) := do
  let key ← required "key" fields.key
  let value ← required "value" fields.value
  return .mk key value

def fromItems : List Json → ReadDsl (Rule T)
  | [first, second] => do
      let key ← readString first
      let value ← read second
      return .mk key value
  | items => .error (.invalidLength items.length "struct Rule with 2 elements")

def ofJson : Json → ReadDsl (Rule T) :=
  readRecord "struct Rule" (visitEntry read) ⟨none, none⟩ finish (fromItems read)

end Rule

namespace RangeRule

structure Fields (T : DslTypes) where
  start : Option T.F64
  stop : Option T.F64
  rules : Option (List (Rule T))

def visitEntry (fields : Fields T) (entry : String × Json) : ReadDsl (Fields T) :=
  match entry with
  | ("start", json) => do
      let start ← readField "start" fields.start (readF64 toF64) json
      return { fields with start }
  | ("end", json) => do
      let stop ← readField "end" fields.stop (readF64 toF64) json
      return { fields with stop }
  | ("rules", json) => do
      let rules ← readField "rules" fields.rules (readList (Rule.ofJson read)) json
      return { fields with rules }
  | _ => .ok fields

def finish (fields : Fields T) : ReadDsl (RuleValue T) := do
  let start ← required "start" fields.start
  let stop ← required "end" fields.stop
  let rules ← required "rules" fields.rules
  return .range start stop rules

def fromItems : List Json → ReadDsl (RuleValue T)
  | [first, second, third] => do
      let start ← readF64 toF64 first
      let stop ← readF64 toF64 second
      let rules ← readList (Rule.ofJson read) third
      return .range start stop rules
  | items => .error (.invalidLength items.length "struct RangeRule with 3 elements")

def ofJson : Json → ReadDsl (RuleValue T) :=
  readRecord "struct RangeRule" (visitEntry toF64 read) ⟨none, none, none⟩ finish
    (fromItems toF64 read)

end RangeRule

namespace IfExpr

structure Fields (T : DslTypes) where
  conditionRaw : Option String
  thenRules : Option (List (Rule T))
  elseRules : Option (Option (List (Rule T)))

def visitEntry (fields : Fields T) (entry : String × Json) : ReadDsl (Fields T) :=
  match entry with
  | ("condition_raw", json) => do
      let conditionRaw ← readField "condition_raw" fields.conditionRaw readString json
      return { fields with conditionRaw }
  | ("then_rules", json) => do
      let thenRules ← readField "then_rules" fields.thenRules (readList (Rule.ofJson read)) json
      return { fields with thenRules }
  | ("else_rules", json) => do
      let elseRules ← readField "else_rules" fields.elseRules
        (readOption (readList (Rule.ofJson read))) json
      return { fields with elseRules }
  | _ => .ok fields

/-- A conditional without a field for its second branch has none. -/
def finish (fields : Fields T) : ReadDsl (RuleValue T) := do
  let conditionRaw ← required "condition_raw" fields.conditionRaw
  let thenRules ← required "then_rules" fields.thenRules
  return .cond conditionRaw thenRules fields.elseRules.join

def fromItems : List Json → ReadDsl (RuleValue T)
  | [first, second, third] => do
      let conditionRaw ← readString first
      let thenRules ← readList (Rule.ofJson read) second
      let elseRules ← readOption (readList (Rule.ofJson read)) third
      return .cond conditionRaw thenRules elseRules
  | items => .error (.invalidLength items.length "struct IfExpr with 3 elements")

def ofJson : Json → ReadDsl (RuleValue T) :=
  readRecord "struct IfExpr" (visitEntry read) ⟨none, none, none⟩ finish (fromItems read)

end IfExpr

def RuleValue.readVariants (json : Json) : ReadDsl (RuleValue T) :=
  firstVariant "data did not match any variant of untagged enum RuleValue" json
    [fun json => (readString json).map .string, fun json => (readF64 toF64 json).map .number,
      fun json => (readBool json).map .boolean, fun json => (readList read json).map .list,
      fun json => (readList (Rule.ofJson read) json).map .map, RangeRule.ofJson toF64 read,
      IfExpr.ofJson read]

end Readers

namespace RuleValue

variable (toF64 : Number → T.F64)

def ofJson : Json → ReadDsl (RuleValue T) := byDepth (readVariants toF64)

def ofText (parser : Parser Empty) (text : String) : ReadDsl (RuleValue T) := do
  let json ← parser.parse text
  ofJson toF64 json

end RuleValue

/-! ### Readers look only inside -/

section Congruence

variable {toF64 : Number → T.F64} {read read' : Json → ReadDsl (RuleValue T)} {json : Json}

theorem Rule.ofJson_congr (h : AgreeInside json read read') :
    Rule.ofJson read json = Rule.ofJson read' json := by
  refine readRecord_congr ?_ ?_
  · intro entry hentry fields
    unfold visitEntry
    split
    · rfl
    · rw [readField_congr (h _ hentry)]
    · rfl
  · intro items hitems
    match items with
    | [first, second] =>
        have hsecond : read second = read' second :=
          h second (hitems second (by simp))
        rw [fromItems, fromItems, hsecond]
    | [] => rfl
    | [_] => rfl
    | _ :: _ :: _ :: _ => rfl

theorem rules_congr (h : AgreeInside json read read') :
    readList (Rule.ofJson read) json = readList (Rule.ofJson read') json :=
  AgreeInside.readList fun _ hitem => Rule.ofJson_congr (h.of_depth_le hitem.le)

theorem RangeRule.ofJson_congr (h : AgreeInside json read read') :
    RangeRule.ofJson toF64 read json = RangeRule.ofJson toF64 read' json := by
  refine readRecord_congr ?_ ?_
  · intro entry hentry fields
    unfold visitEntry
    split
    · rfl
    · rfl
    · rw [readField_congr (rules_congr (h.of_depth_le hentry.le))]
    · rfl
  · intro items hitems
    match items with
    | [first, second, third] =>
        have hthird := rules_congr (h.of_depth_le (hitems third (by simp)).le)
        rw [fromItems, fromItems, hthird]
    | [] => rfl
    | [_] => rfl
    | [_, _] => rfl
    | _ :: _ :: _ :: _ :: _ => rfl

theorem IfExpr.ofJson_congr (h : AgreeInside json read read') :
    IfExpr.ofJson read json = IfExpr.ofJson read' json := by
  have hoption : ∀ item : Json, item.depth < json.depth →
      readOption (readList (Rule.ofJson read)) item =
        readOption (readList (Rule.ofJson read')) item := by
    intro item hitem
    cases item with
    | null => rfl
    | _ => rw [readOption, readOption, rules_congr (h.of_depth_le hitem.le)] <;> simp
  refine readRecord_congr ?_ ?_
  · intro entry hentry fields
    unfold visitEntry
    split
    · rfl
    · rw [readField_congr (rules_congr (h.of_depth_le hentry.le))]
    · rw [readField_congr (hoption _ hentry)]
    · rfl
  · intro items hitems
    match items with
    | [first, second, third] =>
        have hsecond := rules_congr (h.of_depth_le (hitems second (by simp)).le)
        have hthird := hoption third (hitems third (by simp))
        rw [fromItems, fromItems, hsecond, hthird]
    | [] => rfl
    | [_] => rfl
    | [_, _] => rfl
    | _ :: _ :: _ :: _ :: _ => rfl

theorem RuleValue.readVariants_congr (h : AgreeInside json read read') :
    readVariants toF64 read json = readVariants toF64 read' json := by
  refine firstVariant_congr (.cons rfl (.cons rfl (.cons rfl (.cons ?_ (.cons ?_ (.cons ?_
    (.cons ?_ .nil)))))))
  · exact congrArg _ h.readList
  · exact congrArg _ (rules_congr h)
  · exact RangeRule.ofJson_congr h
  · exact IfExpr.ofJson_congr h

end Congruence

theorem RuleValue.ofJson_eq (toF64 : Number → T.F64) (json : Json) :
    ofJson toF64 json = readVariants toF64 (ofJson toF64) json :=
  byDepth_eq (readVariants toF64) (fun _ _ _ h => readVariants_congr h) json

end Ccl

end Icn

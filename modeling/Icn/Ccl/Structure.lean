import Icn.Foundation.Codec.JsonText
import Icn.Foundation.Run.Fallible
import Icn.Ccl.Lower

/-!
# What opcodes say about rules

The outline of some rules is what is left of them in a program: properties, calls, ranges
and conditionals in the order and the nesting of the source. A nested map is no level of
its own, its entries stand in its place, and a conditional has no key.

Generating the opcodes of rules is generating those of their outline
(`walkRules_eq_opsOf`), as long as every call stands under the name of its function, and
an outline can be read off its opcodes (`opsOf_append_inj`).
-/

open Foundation

namespace Icn

namespace Ccl

variable {T : DslTypes}

inductive Outline (F64 : Type) where
  | property (key : String) (value : Codec.Json)
  | call (fnName : String) (args : Codec.Json)
  | range (key : String) (start stop : F64) (entries : List (Outline F64))
  | cond (conditionRaw : String) (thenEntries : List (Outline F64))
      (elseEntries : Option (List (Outline F64)))

def calledFunction : List (Rule T) → Option (String × List (Rule T))
  | [.mk nameKey (.string fnName), .mk argsKey (.map args)] =>
      if nameKey = "function_name" ∧ argsKey = "args" then some (fnName, args) else none
  | _ => none

section Outlines

variable (lib : DslLibrary T)

mutual

def Rule.outline : Rule T → List (Outline T.F64)
  | .mk key (.string text) => [.property key (.string text)]
  | .mk key (.number x) => [.property key (lib.numberJson x)]
  | .mk key (.boolean b) => [.property key (.bool b)]
  | .mk key (.list values) => [.property key (.array (valuesToJson lib values))]
  | .mk _ (.map rules) =>
      match calledFunction rules with
      | some (fnName, args) => [.call fnName (.array (rulesToJson lib args))]
      | none => outlines rules
  | .mk key (.range start stop rules) => [.range key start stop (outlines rules)]
  | .mk _ (.cond conditionRaw thenRules elseRules) =>
      [.cond conditionRaw (outlines thenRules) (elseOutlines elseRules)]

def outlines : List (Rule T) → List (Outline T.F64)
  | [] => []
  | rule :: rules => rule.outline ++ outlines rules

def elseOutlines : Option (List (Rule T)) → Option (List (Outline T.F64))
  | none => none
  | some rules => some (outlines rules)

end

mutual

/-- Calls stand under the name of their function, as those of call statements do. -/
def Rule.CallsNamed : Rule T → Prop
  | .mk key (.map rules) =>
      if isFunctionCall rules then ∃ args, .map rules = functionCallRules key args
      else CallsNamedIn rules
  | .mk _ (.range _ _ rules) => CallsNamedIn rules
  | .mk _ (.cond _ thenRules elseRules) => CallsNamedIn thenRules ∧ CallsNamedInElse elseRules
  | .mk _ (.string _) => True
  | .mk _ (.number _) => True
  | .mk _ (.boolean _) => True
  | .mk _ (.list _) => True

def CallsNamedIn : List (Rule T) → Prop
  | [] => True
  | rule :: rules => rule.CallsNamed ∧ CallsNamedIn rules

def CallsNamedInElse : Option (List (Rule T)) → Prop
  | none => True
  | some rules => CallsNamedIn rules

end

def rangeKind (start stop : T.F64) : String :=
  s!"range_{lib.numberText start}_{lib.numberText stop}"

mutual

def Outline.ops : Outline T.F64 → List (Opcode T.F64)
  | .property key value => [.setProperty key value.toText]
  | .call fnName args => [.callHost fnName args.toText]
  | .range key start stop entries =>
      .beginSection (rangeKind lib start stop) (some key) :: opsOf entries ++ [.endSection]
  | .cond conditionRaw thenEntries elseEntries =>
      .ifOp conditionRaw :: opsOf thenEntries ++ opsOfElse elseEntries ++ [.endIf]

def opsOf : List (Outline T.F64) → List (Opcode T.F64)
  | [] => []
  | entry :: entries => entry.ops ++ opsOf entries

def opsOfElse : Option (List (Outline T.F64)) → List (Opcode T.F64)
  | none => []
  | some entries => .elseOp :: opsOf entries

end

end Outlines

section Refinement

variable (lib : DslLibrary T)

theorem jsonText_eq_toText (default : String) (json : Codec.Json) :
    jsonText default json = json.toText := by
  rw [jsonText, Codec.Json.ofUtf8_render]
  rfl

theorem opsOf_append (entries entries' : List (Outline T.F64)) :
    opsOf lib (entries ++ entries') = opsOf lib entries ++ opsOf lib entries' := by
  induction entries with
  | nil => rfl
  | cons entry entries ih =>
      rw [List.cons_append, opsOf, opsOf, ih, List.append_assoc]

theorem opsOf_singleton (entry : Outline T.F64) : opsOf lib [entry] = entry.ops lib := by
  rw [opsOf, opsOf, List.append_nil]

theorem calledFunction_eq_none {rules : List (Rule T)} (h : isFunctionCall rules = false) :
    calledFunction rules = none := by
  unfold calledFunction
  split
  · rename_i nameKey fnName argsKey args
    have hname : nameKey ≠ "function_name" := of_decide_eq_false h
    exact if_neg fun hkeys => hname hkeys.1
  · rfl

theorem outline_functionCallRules (key fnName : String) (args : List (Rule T)) :
    Rule.outline lib (.mk key (functionCallRules fnName args)) =
      [.call fnName ((RuleValue.map args).toJson lib)] := by
  rw [functionCallRules, Rule.outline, calledFunction, if_pos ⟨rfl, rfl⟩, RuleValue.toJson]

theorem WasmGenerator.walkRule_functionCallRules (fnName : String) (args : List (Rule T)) :
    WasmGenerator.walkRule lib (.mk fnName (functionCallRules fnName args)) [] =
      [.callHost fnName ((RuleValue.map args).toJson lib).toText] := by
  rw [← jsonText_eq_toText "\x7b\x7d"]
  rfl

mutual

theorem WasmGenerator.walkRules_eq_opsOf : ∀ {rules : List (Rule T)}, CallsNamedIn rules →
    WasmGenerator.walkRules lib rules [] = opsOf lib (outlines lib rules)
  | [], _ => by
      rw [walkRules, outlines, opsOf]
  | rule :: rules, h => by
      rw [walkRules_cons, outlines, opsOf_append, walkRule_eq_opsOf h.1, walkRules_eq_opsOf h.2]

theorem WasmGenerator.walkRule_eq_opsOf : ∀ {rule : Rule T}, rule.CallsNamed →
    WasmGenerator.walkRule lib rule [] = opsOf lib (rule.outline lib)
  | .mk key (.cond conditionRaw thenRules elseRules), h => by
      rw [walkRule_cond, Rule.outline, opsOf_singleton, Outline.ops, walkRules_eq_opsOf h.1,
        walkElse_eq_opsOfElse h.2]
  | .mk key (.range start stop rules), h => by
      rw [walkRule_range, Rule.outline, opsOf_singleton, Outline.ops, walkRules_eq_opsOf h,
        rangeKind]
  | .mk key (.map rules), h => by
      rw [Rule.CallsNamed] at h
      split_ifs at h with hcall
      · obtain ⟨args, hargs⟩ := h
        rw [hargs, walkRule_functionCallRules, outline_functionCallRules, opsOf_singleton,
          Outline.ops]
      · have hnone := calledFunction_eq_none (Bool.eq_false_iff.mpr hcall)
        rw [walkRule, if_neg hcall, Rule.outline, hnone]
        exact walkRules_eq_opsOf h
  | .mk key (.string text), _ => by
      rw [walkRule, setProperty, jsonText_eq_toText]
      rfl
  | .mk key (.number x), _ => by
      rw [walkRule, setProperty, jsonText_eq_toText]
      rfl
  | .mk key (.boolean b), _ => by
      rw [walkRule, setProperty, jsonText_eq_toText]
      rfl
  | .mk key (.list values), _ => by
      rw [walkRule, setProperty, jsonText_eq_toText]
      rfl

theorem WasmGenerator.walkElse_eq_opsOfElse : ∀ {rules : Option (List (Rule T))},
    CallsNamedInElse rules →
      WasmGenerator.walkElse lib rules [] = opsOfElse lib (elseOutlines lib rules)
  | none, _ => by
      rw [walkElse, elseOutlines, opsOfElse]
  | some rules, h => by
      rw [walkElse_some, elseOutlines, opsOfElse, walkRules_eq_opsOf h]

end

end Refinement

/-- Numbers are shown as different texts, without underscores. -/
structure DslLibrary.ShowsNumbers (lib : DslLibrary T) : Prop where
  injective : Function.Injective lib.numberText
  not_mem : ∀ x, '_' ∉ (lib.numberText x).toList

section Reading

/-- The opcodes that end a list of rules. -/
def Opcode.Ends {F64 : Type} : Opcode F64 → Prop
  | .endSection => True
  | .elseOp => True
  | .endIf => True
  | _ => False

/-- What stands behind the opcodes of some rules. -/
def Follows {F64 : Type} (rest : List (Opcode F64)) : Prop := ∀ op ∈ rest.head?, op.Ends

theorem follows_cons {F64 : Type} (op : Opcode F64) (h : op.Ends) (rest : List (Opcode F64)) :
    Follows (op :: rest) := by
  intro other hother
  obtain rfl := Option.some.inj hother
  exact h

variable {lib : DslLibrary T}

theorem not_follows_ops (entry : Outline T.F64) (rest : List (Opcode T.F64)) :
    ¬ Follows (entry.ops lib ++ rest) := by
  intro h
  cases entry with
  | property key value => exact h _ rfl
  | call fnName args => exact h _ rfl
  | range key start stop entries => exact h _ rfl
  | cond conditionRaw thenEntries elseEntries => exact h _ rfl

theorem follows_opsOfElse (entries : Option (List (Outline T.F64))) (rest : List (Opcode T.F64)) :
    Follows (opsOfElse lib entries ++ .endIf :: rest) := by
  cases entries with
  | none => exact follows_cons .endIf trivial rest
  | some entries => exact follows_cons .elseOp trivial _

theorem bounds_eq_of_kind_eq (hlib : lib.ShowsNumbers) {start stop start' stop' : T.F64}
    (h : rangeKind lib start stop = rangeKind lib start' stop') :
    start = start' ∧ stop = stop' := by
  have hlist := congrArg String.toList h
  simp only [rangeKind, toString, String.toList_append, List.append_assoc] at hlist
  obtain ⟨hstart, -, hstop⟩ := (List.append_cons_inj_of_notMem (hlib.not_mem start)
    (hlib.not_mem stop)).mp (List.append_cancel_left hlist)
  exact ⟨hlib.injective (String.toList_injective hstart),
    hlib.injective (String.toList_injective hstop)⟩

mutual

/-- An entry and what follows it, both read off the opcodes. -/
theorem ops_append_inj (hlib : lib.ShowsNumbers) : ∀ (entry entry' : Outline T.F64)
    {rest rest' : List (Opcode T.F64)},
    entry.ops lib ++ rest = entry'.ops lib ++ rest' → entry = entry' ∧ rest = rest'
  | .property key value, entry', _, _, h => by
      cases entry' with
      | property key' value' =>
          rw [Outline.ops, Outline.ops] at h
          obtain ⟨hop, hrest⟩ := List.cons.inj h
          obtain ⟨rfl, hvalue⟩ := Opcode.setProperty.inj hop
          obtain rfl := Codec.Json.toText_injective hvalue
          exact ⟨rfl, hrest⟩
      | _ => cases h
  | .call fnName args, entry', _, _, h => by
      cases entry' with
      | call fnName' args' =>
          rw [Outline.ops, Outline.ops] at h
          obtain ⟨hop, hrest⟩ := List.cons.inj h
          obtain ⟨rfl, hargs⟩ := Opcode.callHost.inj hop
          obtain rfl := Codec.Json.toText_injective hargs
          exact ⟨rfl, hrest⟩
      | _ => cases h
  | .range key start stop entries, entry', _, _, h => by
      cases entry' with
      | range key' start' stop' entries' =>
          simp only [Outline.ops, List.cons_append, List.append_assoc] at h
          obtain ⟨hop, hbody⟩ := List.cons.inj h
          obtain ⟨hkind, hkey⟩ := Opcode.beginSection.inj hop
          obtain rfl := Option.some.inj hkey
          obtain ⟨rfl, rfl⟩ := bounds_eq_of_kind_eq hlib hkind
          obtain ⟨rfl, htail⟩ := opsOf_append_inj hlib entries entries'
            (follows_cons .endSection trivial _) (follows_cons .endSection trivial _) hbody
          exact ⟨rfl, (List.cons.inj htail).2⟩
      | _ => cases h
  | .cond conditionRaw thenEntries elseEntries, entry', _, _, h => by
      cases entry' with
      | cond conditionRaw' thenEntries' elseEntries' =>
          simp only [Outline.ops, List.cons_append, List.append_assoc] at h
          obtain ⟨hop, hbody⟩ := List.cons.inj h
          obtain rfl := Opcode.ifOp.inj hop
          obtain ⟨rfl, htail⟩ := opsOf_append_inj hlib thenEntries thenEntries'
            (follows_opsOfElse _ _) (follows_opsOfElse _ _) hbody
          obtain ⟨rfl, hrest⟩ := opsOfElse_append_inj hlib elseEntries elseEntries' htail
          exact ⟨rfl, hrest⟩
      | _ => cases h

/-- The induction follows the first list; the opcode behind it cannot begin an entry. -/
theorem opsOf_append_inj (hlib : lib.ShowsNumbers) : ∀ (entries entries' : List (Outline T.F64))
    {rest rest' : List (Opcode T.F64)}, Follows rest → Follows rest' →
      opsOf lib entries ++ rest = opsOf lib entries' ++ rest' → entries = entries' ∧ rest = rest'
  | [], [], _, _, _, _, h => ⟨rfl, h⟩
  | [], entry' :: entries', _, _, hrest, _, h => by
      rw [opsOf, opsOf, List.nil_append, List.append_assoc] at h
      exact absurd (h ▸ hrest) (not_follows_ops entry' _)
  | entry :: entries, [], _, _, _, hrest', h => by
      rw [opsOf, opsOf, List.nil_append, List.append_assoc] at h
      exact absurd (h ▸ hrest') (not_follows_ops entry _)
  | entry :: entries, entry' :: entries', _, _, hrest, hrest', h => by
      rw [opsOf, opsOf, List.append_assoc, List.append_assoc] at h
      obtain ⟨rfl, htail⟩ := ops_append_inj hlib entry entry' h
      obtain ⟨rfl, hrests⟩ := opsOf_append_inj hlib entries entries' hrest hrest' htail
      exact ⟨rfl, hrests⟩

theorem opsOfElse_append_inj (hlib : lib.ShowsNumbers) :
    ∀ (entries entries' : Option (List (Outline T.F64))) {rest rest' : List (Opcode T.F64)},
      opsOfElse lib entries ++ .endIf :: rest = opsOfElse lib entries' ++ .endIf :: rest' →
        entries = entries' ∧ rest = rest'
  | none, none, _, _, h => ⟨rfl, (List.cons.inj h).2⟩
  | none, some _, _, _, h => by cases h
  | some _, none, _, _, h => by cases h
  | some entries, some entries', _, _, h => by
      obtain ⟨rfl, hrests⟩ := opsOf_append_inj hlib entries entries' (follows_cons .endIf trivial _)
        (follows_cons .endIf trivial _) (List.cons.inj h).2
      exact ⟨rfl, (List.cons.inj hrests).2⟩

end

theorem opsOf_injective (hlib : lib.ShowsNumbers) : Function.Injective (opsOf lib) := by
  intro entries entries' h
  have hend : Follows ([] : List (Opcode T.F64)) := fun op hop => by cases hop
  exact (opsOf_append_inj hlib entries entries' hend hend (by rw [h])).1

end Reading

theorem WasmGenerator.walkRules_append (lib : DslLibrary T) (rules rules' : List (Rule T)) :
    WasmGenerator.walkRules lib (rules ++ rules') [] =
      WasmGenerator.walkRules lib rules [] ++ WasmGenerator.walkRules lib rules' [] := by
  induction rules with
  | nil => rw [List.nil_append, walkRules, List.nil_append]
  | cons rule rules ih =>
      rw [List.cons_append, walkRules_cons, walkRules_cons, ih, List.append_assoc]

theorem WasmGenerator.walkRules_singleton (lib : DslLibrary T) (rule : Rule T) :
    WasmGenerator.walkRules lib [rule] [] = WasmGenerator.walkRule lib rule [] := by
  rw [walkRules, walkRules]

theorem walkRules_of_functionCallStatement {lib : LowerLibrary T}
    {found found' : String × List (Rule T)} {name : String} {args : List ObjectPair}
    (h : lowerField lib found (.functionCallStatement name args) = .ok found') :
    ∃ namedArgs, lowerPairs lib args = .ok namedArgs ∧
      WasmGenerator.walkRules lib.toDslLibrary found'.2 [] =
        WasmGenerator.walkRules lib.toDslLibrary found.2 [] ++
          [.callHost name ((RuleValue.map namedArgs).toJson lib.toDslLibrary).toText] := by
  rw [lowerField] at h
  obtain ⟨namedArgs, hargs, h⟩ := Fallible.bind_eq_ok_iff.mp h
  obtain rfl := Except.ok.inj h
  refine ⟨namedArgs, hargs, ?_⟩
  rw [WasmGenerator.walkRules_append, WasmGenerator.walkRules_singleton,
    WasmGenerator.walkRule_functionCallRules]

/-- **The opcodes of a section determine the outline of its rules**, and a lowered call
gives one call of the host. -/
theorem generate_eq_iff_outlines_eq {lib : DslLibrary T} (hlib : lib.ShowsNumbers) (kind : String)
    (title : Option String) {rules rules' : List (Rule T)} (hrules : CallsNamedIn rules)
    (hrules' : CallsNamedIn rules') :
    ((WasmGenerator.generate lib [.genericSection ⟨kind, title, rules⟩]).ops =
        (WasmGenerator.generate lib [.genericSection ⟨kind, title, rules'⟩]).ops ↔
      outlines lib rules = outlines lib rules') ∧
    ∀ (fnName : String) (args : List (Rule T)),
      WasmGenerator.walkRules lib [.mk fnName (functionCallRules fnName args)] [] =
        [.callHost fnName ((RuleValue.map args).toJson lib).toText] := by
  constructor
  · rw [WasmGenerator.generate_ops, WasmGenerator.generate_ops, List.flatMap_singleton,
      List.flatMap_singleton, WasmGenerator.walkModule_genericSection,
      WasmGenerator.walkModule_genericSection, List.append_left_inj, List.cons_inj_right,
      WasmGenerator.walkRules_eq_opsOf lib hrules, WasmGenerator.walkRules_eq_opsOf lib hrules']
    exact (opsOf_injective hlib).eq_iff
  · intro fnName args
    rw [WasmGenerator.walkRules_singleton, WasmGenerator.walkRule_functionCallRules]

theorem wholeLibrary_showsNumbers : wholeLibrary.ShowsNumbers where
  injective := by
    intro n n' h
    have hdigits : Nat.toDigits 10 n = Nat.toDigits 10 n' := by
      rw [← Nat.toList_repr, ← Nat.toList_repr]
      exact congrArg String.toList h
    rw [← Nat.ofDigitChars_toDigits (b := 10) (n := n) (by decide) (by decide), hdigits,
      Nat.ofDigitChars_toDigits (by decide) (by decide)]
  not_mem := by
    intro n h
    have hdigit := Nat.isDigit_of_mem_toDigits (by decide) (by decide) (Nat.toList_repr ▸ h)
    exact absurd hdigit (by decide)

/-- `settings { mode "open"; }; notify();` -/
def quietRules : List (Rule wholeTypes) :=
  [.mk "settings" (.map [.mk "mode" (.string "open")]),
    .mk "notify" (functionCallRules "notify" [])]

/-- `mode "open"; notify(to: "all");` -/
def loudRules : List (Rule wholeTypes) :=
  [.mk "mode" (.string "open"),
    .mk "notify" (functionCallRules "notify" [.mk "to" (.string "all")])]

theorem generate_quietRules_ne :
    (WasmGenerator.generate wholeLibrary [.genericSection ⟨"process", none, quietRules⟩]).ops ≠
      (WasmGenerator.generate wholeLibrary [.genericSection ⟨"process", none, loudRules⟩]).ops := by
  have hquiet : CallsNamedIn quietRules := ⟨⟨trivial, trivial⟩, ⟨[], rfl⟩, trivial⟩
  have hloud : CallsNamedIn loudRules := ⟨trivial, ⟨_, rfl⟩, trivial⟩
  have houtlines : outlines wholeLibrary quietRules ≠ outlines wholeLibrary loudRules := by
    simp [quietRules, loudRules, functionCallRules, calledFunction, outlines, Rule.outline,
      rulesToJson]
  have hiff := (generate_eq_iff_outlines_eq wholeLibrary_showsNumbers "process" none hquiet hloud).1
  exact hiff.not.mpr houtlines

/-- A source of one section `process` is lowered to a section with these rules. -/
def LowersTo (source : String) (block : List Statement) (rules : List (Rule wholeTypes)) :
    Prop :=
  lowerStr (sourceLibrary source [.sectionDef .process block]) source =
    .ok [.genericSection ⟨"process", none, rules⟩]

/-- Two lists of rules have the same opcodes in such a section. -/
def Collide (rules rules' : List (Rule wholeTypes)) : Prop :=
  rules ≠ rules' ∧
    (WasmGenerator.generate wholeLibrary [.genericSection ⟨"process", none, rules⟩]).ops =
      (WasmGenerator.generate wholeLibrary [.genericSection ⟨"process", none, rules'⟩]).ops

def openMode : Statement := .anyStatement "mode" (.value (.stringLiteral "\"open\""))

/-- `modes [..];` -/
def modesField (mode : Value) : Statement := .anyStatement "modes" (.value (.array [mode]))

/-- The key of a nested map is not kept, and in a list an empty map is written as an empty
list is. -/
theorem sources_collide :
    (LowersTo "process \x7b settings \x7b mode \"open\"; \x7d; \x7d"
          [.anyStatement "settings" (.block [openMode])]
          [.mk "settings" (.map [.mk "mode" (.string "open")])] ∧
        LowersTo "process \x7b mode \"open\"; \x7d" [openMode]
          [.mk "mode" (.string "open")] ∧
        Collide [.mk "settings" (.map [.mk "mode" (.string "open")])]
          [.mk "mode" (.string "open")]) ∧
      LowersTo "process \x7b modes [\x7b\x7d]; \x7d" [modesField (.object [])]
          [.mk "modes" (.list [.map []])] ∧
        LowersTo "process \x7b modes [[]]; \x7d" [modesField (.array [])]
          [.mk "modes" (.list [.list []])] ∧
        Collide [.mk "modes" (.list [.map []])] [.mk "modes" (.list [.list []])] := by
  refine ⟨⟨rfl, rfl, ?_, rfl⟩, rfl, rfl, ?_, rfl⟩
  · simp
  · simp

end Ccl

end Icn

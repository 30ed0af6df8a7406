import Icn.Foundation.Codec.Json
import Icn.Ccl.Dsl

/-!
# Generating opcodes

The generator walks over the modules and appends opcodes to those it has already.
The walk over rules is recursive: maps, ranges and the two branches of a
conditional hold rules of their own.

What a walk appends does not depend on the opcodes that are there
(`walkRules_eq_append`, `walkModule_eq_append`), so the program of a list of
modules is put together from the programs of the modules.
-/

open Foundation

namespace Icn

namespace Ccl

open Economics

variable {T : DslTypes}

/-- How floating point numbers are displayed and written as JSON, and the debugging
text of a module. -/
structure DslLibrary (T : DslTypes) where
  numberText : T.F64 → String
  numberJson : T.F64 → Codec.Json
  debugModule : DslModule T → String

/-- Whole numbers as floating point numbers, and texts as identifiers. -/
abbrev wholeTypes : DslTypes := ⟨ℕ, String⟩

def wholeLibrary : DslLibrary wholeTypes where
  numberText n := toString (n : ℕ)
  numberJson n := .number
    { text := (Codec.Json.Number.ofNat n).text ++ [0x2e, 0x30]
      text_ne_nil := by simp
      mem_numeralBytes := by
        intro byte hbyte
        rcases List.mem_append.mp hbyte with hbyte | hbyte
        · exact (Codec.Json.Number.ofNat n).mem_numeralBytes byte hbyte
        · have hsubset : [0x2e, 0x30] ⊆ Codec.Json.numeralBytes := by decide
          exact hsubset hbyte }
  debugModule _ := "DslModule"

/-- The maps that the compiler makes of calls begin with a function name. -/
def isFunctionCall : List (Rule T) → Bool
  | [] => false
  | first :: _ => first.key = "function_name"

variable (lib : DslLibrary T)

mutual

def RuleValue.toJson : RuleValue T → Codec.Json
  | .string text => .string text
  | .number x => lib.numberJson x
  | .boolean b => .bool b
  | .list values => .array (valuesToJson values)
  | .map rules => .array (rulesToJson rules)
  | .range start stop rules =>
      .object [("start", lib.numberJson start), ("end", lib.numberJson stop),
        ("rules", .array (rulesToJson rules))]
  | .cond conditionRaw thenRules elseRules =>
      .object [("condition_raw", .string conditionRaw),
        ("then_rules", .array (rulesToJson thenRules)), ("else_rules", elseToJson elseRules)]

def valuesToJson : List (RuleValue T) → List Codec.Json
  | [] => []
  | value :: values => value.toJson :: valuesToJson values

def Rule.toJson : Rule T → Codec.Json
  | .mk key value => .object [("key", .string key), ("value", value.toJson)]

def rulesToJson : List (Rule T) → List Codec.Json
  | [] => []
  | rule :: rules => rule.toJson :: rulesToJson rules

def elseToJson : Option (List (Rule T)) → Codec.Json
  | none => .null
  | some rules => .array (rulesToJson rules)

end

def jsonText (default : String) (json : Codec.Json) : String :=
  (Codec.ofUtf8 json.render).getD default

namespace WasmGenerator

def walkFunctionCall (fnName : String) (argsRule : RuleValue T) (ops : List (Opcode T.F64)) :
    List (Opcode T.F64) :=
  ops ++ [.callHost fnName (jsonText "\x7b\x7d" (argsRule.toJson lib))]

/-- The arguments of a call, which are an empty list if there are none. -/
def callArgs (rules : List (Rule T)) : RuleValue T :=
  ((rules.find? fun rule => rule.key = "args").map Rule.value).getD (.list [])

def setProperty (key : String) (value : RuleValue T) (ops : List (Opcode T.F64)) :
    List (Opcode T.F64) :=
  ops ++ [.setProperty key (jsonText "\"<serialization error>\"" (value.toJson lib))]

mutual

def walkRules : List (Rule T) → List (Opcode T.F64) → List (Opcode T.F64)
  | [], ops => ops
  | rule :: rules, ops => walkRules rules (walkRule rule ops)

def walkRule : Rule T → List (Opcode T.F64) → List (Opcode T.F64)
  | .mk _ (.cond conditionRaw thenRules elseRules), ops =>
      let ops := walkRules thenRules (ops ++ [.ifOp conditionRaw])
      walkElse elseRules ops ++ [.endIf]
  | .mk key (.range start stop rules), ops =>
      let kind := s!"range_{lib.numberText start}_{lib.numberText stop}"
      walkRules rules (ops ++ [.beginSection kind (some key)]) ++ [.endSection]
  | .mk key (.map rules), ops =>
      if isFunctionCall rules then walkFunctionCall lib key (callArgs rules) ops
      else walkRules rules ops
  | .mk key (.string text), ops => setProperty lib key (.string text) ops
  | .mk key (.number x), ops => setProperty lib key (.number x) ops
  | .mk key (.boolean b), ops => setProperty lib key (.boolean b) ops
  | .mk key (.list values), ops => setProperty lib key (.list values) ops

def walkElse : Option (List (Rule T)) → List (Opcode T.F64) → List (Opcode T.F64)
  | none, ops => ops
  | some rules, ops => walkRules rules (ops ++ [.elseOp])

end

def walkStep (ops : List (Opcode T.F64)) : ActionStep T → List (Opcode T.F64)
  | .metered action =>
      let data := action.data.map fun rules => jsonText "[]" (.array (rulesToJson lib rules))
      ops ++ [.mintToken action.resourceType action.amount action.recipient data]
  | .anchor anchor => ops ++ [.anchorData anchor.path anchor.dataReference]
  | .performMeteredAction ident resource amount =>
      ops ++ [.useResource (resourceText resource) amount] ++ [.todo s!"Perform action: {ident}"]
  | .transferToken tokenType amount sender recipient =>
      ops ++ [.transferToken tokenType amount (some sender) recipient]

def describe {F64 : Type} (ops : List (Opcode F64)) : Option String → List (Opcode F64)
  | none => ops
  | some text =>
      ops ++ [.setProperty "description" (jsonText "\"<serialization error>\"" (.string text))]

def walkModule (ops : List (Opcode T.F64)) : DslModule T → List (Opcode T.F64)
  | .proposal proposal =>
      walkRules lib proposal.rules (ops ++ [.createProposal proposal.title (some proposal.version)])
  | .actionHandler handler => handler.steps.foldl (walkStep lib) (ops ++ [.onEvent handler.event])
  | .genericSection generic =>
      walkRules lib generic.rules (ops ++ [.beginSection generic.kind generic.title]) ++
        [.endSection]
  | .role role =>
      let ops := describe (ops ++ [.beginSection "role" (some role.name)]) role.description
      walkRules lib role.attributes ops ++ [.endSection]
  | other => ops ++ [.todo s!"Unhandled DslModule: {lib.debugModule other}"]

def generate (modules : List (DslModule T)) : Program T.F64 :=
  ⟨modules.foldl (walkModule lib) []⟩

mutual

theorem walkRules_eq_append : ∀ (rules : List (Rule T)) (ops : List (Opcode T.F64)),
    walkRules lib rules ops = ops ++ walkRules lib rules []
  | [], ops => by rw [walkRules, walkRules, List.append_nil]
  | rule :: rules, ops => by
      rw [walkRules, walkRules, walkRules_eq_append rules (walkRule lib rule ops),
        walkRules_eq_append rules (walkRule lib rule []), walkRule_eq_append rule ops,
        List.append_assoc]

theorem walkRule_eq_append : ∀ (rule : Rule T) (ops : List (Opcode T.F64)),
    walkRule lib rule ops = ops ++ walkRule lib rule []
  | .mk _ (.cond conditionRaw thenRules elseRules), ops => by
      simp only [walkRule, List.nil_append]
      rw [walkElse_eq_append elseRules (walkRules lib thenRules (ops ++ _)),
        walkElse_eq_append elseRules (walkRules lib thenRules [_]),
        walkRules_eq_append thenRules (ops ++ _), walkRules_eq_append thenRules [_]]
      simp only [List.append_assoc]
  | .mk key (.range start stop rules), ops => by
      simp only [walkRule, List.nil_append]
      rw [walkRules_eq_append rules (ops ++ _), walkRules_eq_append rules [_]]
      simp only [List.append_assoc]
  | .mk key (.map rules), ops => by
      simp only [walkRule, walkFunctionCall, List.nil_append]
      split
      · rfl
      · exact walkRules_eq_append rules ops
  | .mk key (.string text), ops => by simp [walkRule, setProperty]
  | .mk key (.number x), ops => by simp [walkRule, setProperty]
  | .mk key (.boolean b), ops => by simp [walkRule, setProperty]
  | .mk key (.list values), ops => by simp [walkRule, setProperty]

theorem walkElse_eq_append : ∀ (rules : Option (List (Rule T))) (ops : List (Opcode T.F64)),
    walkElse lib rules ops = ops ++ walkElse lib rules []
  | none, ops => by rw [walkElse, walkElse, List.append_nil]
  | some rules, ops => by
      rw [walkElse, walkElse, walkRules_eq_append rules (ops ++ _),
        walkRules_eq_append rules ([] ++ _), List.nil_append, List.append_assoc]

end

/-! The opcodes of rules, from those of the rules within. -/

theorem walkRules_cons (rule : Rule T) (rules : List (Rule T)) :
    walkRules lib (rule :: rules) [] = walkRule lib rule [] ++ walkRules lib rules [] := by
  rw [walkRules, walkRules_eq_append]

theorem walkRule_cond (key conditionRaw : String) (thenRules : List (Rule T))
    (elseRules : Option (List (Rule T))) :
    walkRule lib (.mk key (.cond conditionRaw thenRules elseRules)) [] =
      .ifOp conditionRaw :: walkRules lib thenRules [] ++ walkElse lib elseRules [] ++
        [.endIf] := by
  rw [walkRule, walkElse_eq_append, walkRules_eq_append]
  rfl

theorem walkElse_some (rules : List (Rule T)) :
    walkElse lib (some rules) [] = .elseOp :: walkRules lib rules [] := by
  rw [walkElse, walkRules_eq_append]
  rfl

theorem walkRule_range (key : String) (start stop : T.F64) (rules : List (Rule T)) :
    walkRule lib (.mk key (.range start stop rules)) [] =
      .beginSection s!"range_{lib.numberText start}_{lib.numberText stop}" (some key) ::
        walkRules lib rules [] ++ [.endSection] := by
  rw [walkRule, walkRules_eq_append]
  rfl

theorem walkStep_eq_append (ops : List (Opcode T.F64)) (step : ActionStep T) :
    walkStep lib ops step = ops ++ walkStep lib [] step := by
  cases step <;> simp [walkStep]

theorem foldl_walkStep (ops : List (Opcode T.F64)) (steps : List (ActionStep T)) :
    steps.foldl (walkStep lib) ops = ops ++ steps.flatMap (walkStep lib []) := by
  have hstep : walkStep lib = fun ops step => ops ++ walkStep lib [] step := by
    funext ops step
    exact walkStep_eq_append lib ops step
  rw [hstep, List.foldl_append_eq_append, List.flatMap_def]
  simp

theorem describe_eq_append {F64 : Type} (ops : List (Opcode F64)) (description : Option String) :
    describe ops description = ops ++ describe [] description := by
  cases description <;> simp [describe]

theorem walkModule_eq_append (ops : List (Opcode T.F64)) (dslModule : DslModule T) :
    walkModule lib ops dslModule = ops ++ walkModule lib [] dslModule := by
  cases dslModule with
  | proposal proposal =>
      simp only [walkModule, List.nil_append]
      rw [walkRules_eq_append lib _ (ops ++ _), walkRules_eq_append lib _ [_], List.append_assoc]
  | actionHandler handler => simp [walkModule, foldl_walkStep]
  | genericSection generic =>
      simp only [walkModule, List.nil_append]
      rw [walkRules_eq_append lib _ (ops ++ _), walkRules_eq_append lib _ [_]]
      simp only [List.append_assoc]
  | role role =>
      simp only [walkModule, List.nil_append]
      rw [walkRules_eq_append lib _ (describe (ops ++ _) _),
        walkRules_eq_append lib _ (describe [_] _), describe_eq_append (ops ++ _),
        describe_eq_append [_]]
      simp only [List.append_assoc]
  | vote vote => simp [walkModule]
  | anchor anchor => simp [walkModule]
  | meteredAction action => simp [walkModule]

/-! The opcodes of modules, from those of their rules and steps. -/

theorem walkModule_proposal (proposal : Proposal T) :
    walkModule lib [] (.proposal proposal) =
      .createProposal proposal.title (some proposal.version) ::
        walkRules lib proposal.rules [] := by
  rw [walkModule, walkRules_eq_append]
  rfl

theorem walkModule_actionHandler (handler : ActionHandler T) :
    walkModule lib [] (.actionHandler handler) =
      .onEvent handler.event :: handler.steps.flatMap (walkStep lib []) := by
  rw [walkModule, foldl_walkStep]
  rfl

theorem walkModule_genericSection (generic : GenericSection T) :
    walkModule lib [] (.genericSection generic) =
      .beginSection generic.kind generic.title :: walkRules lib generic.rules [] ++
        [.endSection] := by
  rw [walkModule, walkRules_eq_append]
  rfl

theorem walkModule_role (role : Role T) :
    walkModule lib [] (.role role) =
      .beginSection "role" (some role.name) ::
        (describe [] role.description ++ walkRules lib role.attributes []) ++
          [.endSection] := by
  rw [walkModule, walkRules_eq_append, describe_eq_append]
  rfl

theorem generate_ops (modules : List (DslModule T)) :
    (generate lib modules).ops = modules.flatMap (walkModule lib []) := by
  have hmodule : walkModule lib = fun ops dslModule => ops ++ walkModule lib [] dslModule := by
    funext ops dslModule
    exact walkModule_eq_append lib ops dslModule
  rw [generate, hmodule, List.foldl_append_eq_append, List.flatMap_def]
  simp

end WasmGenerator

end Ccl

end Icn

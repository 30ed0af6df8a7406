import Icn.Ccl.Generator
import Icn.Ccl.Grammar

/-!
# Lowering

The statements of a contract become modules. A proposal, a section and a role take from
their block what carries a key: fields, ranges, conditionals and calls (`lowerBlock`);
all other statements of a block are passed over. An `actions` block takes the actions
that stand directly in it, and an action takes the steps that stand directly in it.

What is not lowered at the top level is an error there.
-/

open Foundation

namespace Icn

namespace Ccl

open Economics

variable {T : DslTypes}

/-- Why a contract is not lowered. -/
inductive LowerError where
  | parse (message : String)
  | unhandled (rule : String)
deriving DecidableEq, Repr

/-- The parser that is made from the grammar, the reading and the rounding of floating
point numbers, and the identifiers that are drawn for proposals. -/
structure LowerLibrary (T : DslTypes) extends DslLibrary T where
  parse : String → Except String (List Statement)
  parseF64 : String → Except String T.F64
  toU64 : T.F64 → UInt64
  newUuid : ℕ → T.Uuid

section Texts

def parseDigits (value : ℕ) : List Char → Except String UInt64
  | [] => .ok (.ofNat value)
  | c :: rest =>
      if c.isDigit then
        let value := value * 10 + (c.toNat - '0'.toNat)
        if value < 2 ^ 64 then parseDigits value rest
        else .error "number too large to fit in target type"
      else .error "invalid digit found in string"

def parseU64 (text : String) : Except String UInt64 :=
  match text.toList with
  | [] => .error "cannot parse integer from empty string"
  | ['+'] => .error "invalid digit found in string"
  | '+' :: digits => parseDigits 0 digits
  | digits => parseDigits 0 digits

def unescape : List Char → Except LowerError (List Char)
  | [] => .ok []
  | ['\\'] =>
      .error (.parse "Invalid escape sequence: dangling backslash at end of string.")
  | '\\' :: other :: rest =>
      match other with
      | 'n' => (unescape rest).map ('\n' :: ·)
      | 't' => (unescape rest).map ('\t' :: ·)
      | '"' => (unescape rest).map ('"' :: ·)
      | '\\' => (unescape rest).map ('\\' :: ·)
      | 'r' => (unescape rest).map ('\r' :: ·)
      | _ => .error (.parse ("Invalid escape sequence: \\" ++ String.singleton other))
  | c :: rest => (unescape rest).map (c :: ·)

def extractStringLiteral (raw : String) : Except LowerError String :=
  (unescape (raw.toList.tail.dropLast)).map String.ofList

end Texts

variable (lib : LowerLibrary T)

def parseNumber (what text : String) : Except LowerError T.F64 :=
  (lib.parseF64 text).mapError fun e => .parse (what ++ e)

def lowerRangeStatement (start stop : String) (block : Except LowerError (String × List (Rule T))) :
    Except LowerError (T.F64 × T.F64 × List (Rule T)) := do
  let startVal ← parseNumber lib "Invalid start number for range: " start
  let endVal ← parseNumber lib "Invalid end number for range: " stop
  let (_, rules) ← block
  return (startVal, endVal, rules)

def functionCallRules (fnName : String) (namedArgs : List (Rule T)) : RuleValue T :=
  .map [.mk "function_name" (.string fnName), .mk "args" (.map namedArgs)]

mutual

def lowerValueRule : Value → Except LowerError (RuleValue T)
  | .stringLiteral raw => .ok (.string (trimQuotes raw))
  | .number text => (parseNumber lib "Invalid number: " text).map .number
  | .boolean b => .ok (.boolean b)
  | .duration text => .ok (.string text)
  | .array elements => (lowerValues elements).map .list
  | .generalIdentifier text => .ok (.string text)
  | .object pairs => (lowerPairs pairs).map .map
  | .functionCall name args => (lowerPairs args).map (functionCallRules name)
  | .rangeValue start stop block => do
      let (startVal, endVal, rules) ← lowerRangeStatement lib start stop (lowerBlock block ("", []))
      return .range startVal endVal rules

def lowerValues : List Value → Except LowerError (List (RuleValue T))
  | [] => .ok []
  | value :: values => do
      let value ← lowerValueRule value
      let values ← lowerValues values
      return value :: values

def lowerPair : ObjectPair → Except LowerError (Rule T)
  | .mk key value => (lowerValueRule value).map (.mk (trimQuotes key))

def lowerPairs : List ObjectPair → Except LowerError (List (Rule T))
  | [] => .ok []
  | pair :: pairs => do
      let rule ← lowerPair pair
      let rules ← lowerPairs pairs
      return rule :: rules

/-- The field of a key, behind the description and the rules that were found before. -/
def lowerPayload (key : String) (found : String × List (Rule T)) :
    Payload → Except LowerError (String × List (Rule T))
  | .absent => .ok (found.1, found.2 ++ [.mk key (.boolean true)])
  | .value value => do
      let value ← lowerValueRule value
      if key = "description" then
        match value with
        | .string text => return (text, found.2)
        | _ => return found
      else return (found.1, found.2 ++ [.mk key value])
  | .block block => do
      let (_, rules) ← lowerBlock block ("", [])
      return (found.1, found.2 ++ [.mk key (.map rules)])
  | .generalIdentifier text => .ok (found.1, found.2 ++ [.mk key (.string text)])

def lowerField (found : String × List (Rule T)) :
    Statement → Except LowerError (String × List (Rule T))
  | .anyStatement key payload => lowerPayload (trimQuotes key) found payload
  | .rangeStatement start stop block => do
      let (startVal, endVal, rules) ← lowerRangeStatement lib start stop (lowerBlock block ("", []))
      let key := s!"range_{lib.numberText startVal}_{lib.numberText endVal}"
      return (found.1, found.2 ++ [.mk key (.range startVal endVal rules)])
  | .ifStatement condition _ _ thenBlock elseBlock => do
      let (_, thenRules) ← lowerBlock thenBlock ("", [])
      let elseRules ← lowerElse elseBlock
      let key := s!"if_condition_{found.2.length}"
      return (found.1, found.2 ++ [.mk key (.cond condition thenRules elseRules)])
  | .functionCallStatement name args => do
      let args ← lowerPairs args
      return (found.1, found.2 ++ [.mk name (functionCallRules name args)])
  | .organizationDef _ _ => .ok found
  | .rolesDef _ => .ok found
  | .roleDef _ _ => .ok found
  | .sectionDef _ _ => .ok found
  | .actionsDef _ => .ok found
  | .actionDef _ _ => .ok found
  | .mintToken _ => .ok found
  | .anchorData _ => .ok found
  | .performMeteredAction _ _ _ _ => .ok found
  | .budgetDef _ _ => .ok found
  | .bylawsDef _ _ _ => .ok found
  | .electionDef _ _ => .ok found
  | .proposalDef _ _ => .ok found
  | .scenarioDef _ _ => .ok found
  | .namedConstruct _ _ _ => .ok found

def lowerBlock : List Statement → String × List (Rule T) →
    Except LowerError (String × List (Rule T))
  | [], found => .ok found
  | statement :: block, found => do
      let found ← lowerField found statement
      lowerBlock block found

def lowerElse : Option (List Statement) → Except LowerError (Option (List (Rule T)))
  | none => .ok none
  | some block => do
      let (_, rules) ← lowerBlock block ("", [])
      return some rules

end

def lowerBlockCommonFields (block : List Statement) : Except LowerError (String × List (Rule T)) :=
  lowerBlock lib block ("", [])

/-- A field of `mint_token`. Fields that are not known are passed over. -/
def mintTokenField (action : MeteredAction T) : Rule T → Except LowerError (MeteredAction T)
  | .mk key value =>
      if key = "type" then
        match value with
        | .string text => .ok { action with resourceType := text }
        | _ => .error (.parse "mint_token 'type' field must be a string.")
      else if key = "recipient" ∨ key = "recipients" then
        match value with
        | .string text => .ok { action with recipient := some text }
        | _ => .error (.parse "mint_token 'recipient' (or 'recipients') field must be a string.")
      else if key = "amount" then
        match value with
        | .number x => .ok { action with amount := lib.toU64 x }
        | _ => .error (.parse "mint_token 'amount' field must be a number.")
      else if key = "data" then
        match value with
        | .map rules => .ok { action with data := some rules }
        | _ => .error (.parse "mint_token 'data' field must be a map (block).")
      else .ok action

def lowerMintToken (block : List Statement) : Except LowerError (MeteredAction T) := do
  let (_, rules) ← lowerBlockCommonFields lib block
  let action ← rules.foldlM (mintTokenField lib) ⟨"", 1, none, none⟩
  if action.resourceType = "" then .error (.parse "mint_token requires a 'type' field")
  else return action

/-- A field of `anchor_data`. Data that are a map are anchored as JSON. -/
def anchorDataField (anchor : Anchor) : Rule T → Except LowerError Anchor
  | .mk key value =>
      if key = "path" then
        match value with
        | .string text => .ok { anchor with path := some text }
        | _ => .error (.parse "anchor_data 'path' field must be a string.")
      else if key = "data" ∨ key = "payload_cid" then
        match value with
        | .string text => .ok { anchor with dataReference := text }
        | .map rules =>
            let json := jsonText "\x7b\"error\": \"failed to serialize anchor data map\"\x7d"
              ((RuleValue.map rules).toJson lib.toDslLibrary)
            .ok { anchor with dataReference := json }
        | _ =>
            .error
              (.parse "anchor_data 'data' or 'payload_cid' field must be a string or a map.")
      else .ok anchor

def lowerAnchorData (block : List Statement) : Except LowerError Anchor := do
  let (_, rules) ← lowerBlockCommonFields lib block
  let anchor ← rules.foldlM (anchorDataField lib) ⟨"", none⟩
  if anchor.dataReference = "" then
    .error (.parse
      "anchor_data requires a 'data' or 'payload_cid' field that yields a reference string or map")
  else return anchor

def resourceOfName (name : String) : Except LowerError ResourceType :=
  match name with
  | "CPU" => .ok .cpu
  | "MEMORY" => .ok .memory
  | "TOKEN" => .ok .token
  | "IO" => .ok .io
  | _ => .error (.parse s!"Unknown resource type name '{name}'")

def lowerPerformMeteredAction (actionName resourceNamespace resourceName amount : String) :
    Except LowerError (ActionStep T) := do
  let actionName ← extractStringLiteral actionName
  if resourceNamespace ≠ "ResourceType" then
    .error (.parse
      s!"Expected resource type namespace 'ResourceType', found '{resourceNamespace}'")
  else
    let resource ← resourceOfName resourceName
    let value ← (parseU64 amount).mapError fun e =>
      LowerError.parse s!"Failed to parse amount '{amount}' as u64: {e}"
    return .performMeteredAction actionName resource value

/-- The step that a statement of an action is lowered to, unless it is passed over. -/
def lowerStep : Statement → Except LowerError (Option (ActionStep T))
  | .mintToken block => (lowerMintToken lib block).map fun action => some (.metered action)
  | .anchorData block => (lowerAnchorData lib block).map fun anchor => some (.anchor anchor)
  | .performMeteredAction actionName resourceNamespace resourceName amount =>
      (lowerPerformMeteredAction actionName resourceNamespace resourceName amount).map some
  | _ => .ok none

def lowerSteps (steps : List (ActionStep T)) : List Statement →
    Except LowerError (List (ActionStep T))
  | [] => .ok steps
  | statement :: block => do
      let step ← lowerStep lib statement
      lowerSteps (steps ++ step.toList) block

def lowerActions (handlers : List (DslModule T)) : List Statement →
    Except LowerError (List (DslModule T))
  | [] => .ok handlers
  | .actionDef literal steps :: block => do
      let steps ← lowerSteps lib [] steps
      lowerActions (handlers ++ [.actionHandler ⟨trimQuotes literal, steps⟩]) block
  | _ :: block => lowerActions handlers block

def lowerSingleRoleDef (name : String) (block : List Statement) : Except LowerError (Role T) := do
  let (description, attributes) ← lowerBlockCommonFields lib block
  return ⟨trimQuotes name, if description = "" then none else some description, attributes⟩

def lowerRolesFromBlock (modules : List (DslModule T)) : List Statement →
    Except LowerError (List (DslModule T))
  | [] => .ok modules
  | .roleDef name attributes :: block => do
      let role ← lowerSingleRoleDef lib name attributes
      lowerRolesFromBlock (modules ++ [.role role]) block
  | _ :: block => lowerRolesFromBlock modules block

def SectionKind.text : SectionKind → String
  | governance => "governance"
  | membership => "membership"
  | allocations => "allocations"
  | spendingRules => "spending_rules"
  | reporting => "reporting"
  | process => "process"
  | vacancies => "vacancies"

def lowerGenericSection (kind : String) (title : Option String) (block : List Statement) :
    Except LowerError (DslModule T) := do
  let (_, rules) ← lowerBlockCommonFields lib block
  return .genericSection ⟨kind, title, rules⟩

def buildStubProposal (index : ℕ) (title version body : String) (rules : List (Rule T)) :
    Proposal T where
  id := lib.newUuid index
  title := title
  version := version
  body := body
  author := "unknown"
  createdAt := 0
  rules := rules

def lowerProposal (index : ℕ) (title : String) (block : List Statement) :
    Except LowerError (DslModule T) := do
  let (body, rules) ← lowerBlockCommonFields lib block
  return .proposal (buildStubProposal lib index (trimQuotes title) "0.0.0-unknown" body rules)

def lowerElection (index : ℕ) (title : String) (block : List Statement) :
    Except LowerError (DslModule T) :=
  lowerProposal lib index title block

def lowerBylawsDef (index : ℕ) (title version : String) (block : List Statement) :
    Except LowerError (DslModule T) := do
  let (body, rules) ← lowerBlockCommonFields lib block
  return .proposal (buildStubProposal lib index (trimQuotes title) (trimQuotes version) body rules)

def dispatchDef (modules : List (DslModule T)) : Statement → Except LowerError (List (DslModule T))
  | .proposalDef title block =>
      (lowerProposal lib modules.length title block).map fun proposal => modules ++ [proposal]
  | .electionDef title block =>
      (lowerElection lib modules.length title block).map fun proposal => modules ++ [proposal]
  | .budgetDef title block =>
      (lowerProposal lib modules.length title block).map fun proposal => modules ++ [proposal]
  | .bylawsDef title version block =>
      (lowerBylawsDef lib modules.length title version block).map fun proposal =>
        modules ++ [proposal]
  | .rolesDef block => lowerRolesFromBlock lib modules block
  | .actionsDef block => (lowerActions lib [] block).map fun handlers => modules ++ handlers
  | .organizationDef title block =>
      (lowerGenericSection lib "organization" (some (trimQuotes title)) block).map fun generic =>
        modules ++ [generic]
  | .sectionDef kind block =>
      (lowerGenericSection lib kind.text none block).map fun generic => modules ++ [generic]
  | .roleDef _ _ => .error (.unhandled "role_def")
  | .actionDef _ _ => .error (.unhandled "action_def")
  | .mintToken _ => .error (.unhandled "mint_token")
  | .anchorData _ => .error (.unhandled "anchor_data")
  | .performMeteredAction _ _ _ _ => .error (.unhandled "perform_metered_action")
  | .ifStatement _ _ _ _ _ => .error (.unhandled "if_statement")
  | .rangeStatement _ _ _ => .error (.unhandled "range_statement")
  | .functionCallStatement _ _ => .error (.unhandled "function_call_statement")
  | .scenarioDef _ _ => .error (.unhandled "scenario_def")
  | .namedConstruct _ _ _ => .error (.unhandled "named_construct_statement")
  | .anyStatement _ _ => .error (.unhandled "any_statement")

def lower (ccl : List Statement) : Except LowerError (List (DslModule T)) :=
  ccl.foldlM (dispatchDef lib) []

def lowerStr (src : String) : Except LowerError (List (DslModule T)) := do
  let ccl ← (lib.parse src).mapError .parse
  lower lib ccl

def sourceLibrary (source : String) (ccl : List Statement) : LowerLibrary wholeTypes where
  toDslLibrary := wholeLibrary
  parse src := if src = source then .ok ccl else .error "expected statement"
  parseF64 text := (text.toNat?.map Except.ok).getD (.error "invalid float literal")
  toU64 x := UInt64.ofNat x
  newUuid index := toString index

end Ccl

end Icn

import Mathlib.Data.List.Basic

/-!
# Parse trees of contracts

The trees that the grammar gives, with the texts of their leaves. A block is the list of
its statements, and every statement may stand in every block: in those of definitions and
steps, of ranges and conditionals, and, because a value can be a range, also in values.
The operands of a comparison are values.

`Statement.found` collects what happens on events: the definitions of actions and their
steps, at any depth and in the order of the source, every step with the event of the
innermost action that it is part of.
-/

namespace Icn

namespace Ccl

inductive SectionKind where
  | governance
  | membership
  | allocations
  | spendingRules
  | reporting
  | process
  | vacancies
deriving DecidableEq, Repr

mutual

/-- What a `value` holds. -/
inductive Value where
  | stringLiteral (raw : String)
  | duration (text : String)
  | number (text : String)
  | boolean (b : Bool)
  | functionCall (name : String) (args : List ObjectPair)
  | array (elements : List Value)
  | object (pairs : List ObjectPair)
  | rangeValue (start stop : String) (block : List Statement)
  | generalIdentifier (text : String)

inductive ObjectPair where
  | mk (key : String) (value : Value)

/-- What stands behind the key of an `any_statement`. -/
inductive Payload where
  | absent
  | value (value : Value)
  | block (block : List Statement)
  | generalIdentifier (text : String)

/-- What a `statement` holds. -/
inductive Statement where
  | organizationDef (title : String) (block : List Statement)
  | rolesDef (block : List Statement)
  | roleDef (name : String) (block : List Statement)
  | sectionDef (kind : SectionKind) (block : List Statement)
  | actionsDef (block : List Statement)
  | actionDef (event : String) (block : List Statement)
  | mintToken (block : List Statement)
  | anchorData (block : List Statement)
  | performMeteredAction (actionName resourceNamespace resourceName amount : String)
  | budgetDef (title : String) (block : List Statement)
  | bylawsDef (title version : String) (block : List Statement)
  | electionDef (title : String) (block : List Statement)
  | proposalDef (title : String) (block : List Statement)
  | ifStatement (condition : String) (left right : Value) (thenBlock : List Statement)
      (elseBlock : Option (List Statement))
  | rangeStatement (start stop : String) (block : List Statement)
  | functionCallStatement (name : String) (args : List ObjectPair)
  | scenarioDef (title : String) (block : List Statement)
  | namedConstruct (identifier title : String) (block : List Statement)
  | anyStatement (key : String) (payload : Payload)

end

def trimQuotes (raw : String) : String :=
  String.ofList (((raw.toList.dropWhile (· = '"')).reverse.dropWhile (· = '"')).reverse)

/-- An action, or a step with the event of the innermost action around it. -/
inductive Found where
  | action (event : String)
  | step (event : Option String) (statement : Statement)

/-- What is found in an action: its own steps get its event. -/
def Found.within (event : String) : Found → Found
  | step none statement => step (some event) statement
  | found => found

mutual

def Value.found : Value → List Found
  | .stringLiteral _ => []
  | .duration _ => []
  | .number _ => []
  | .boolean _ => []
  | .functionCall _ args => foundInPairs args
  | .array elements => foundInValues elements
  | .object pairs => foundInPairs pairs
  | .rangeValue _ _ block => foundInBlock block
  | .generalIdentifier _ => []

def foundInValues : List Value → List Found
  | [] => []
  | value :: values => value.found ++ foundInValues values

def ObjectPair.found : ObjectPair → List Found
  | .mk _ value => value.found

def foundInPairs : List ObjectPair → List Found
  | [] => []
  | pair :: pairs => pair.found ++ foundInPairs pairs

def Payload.found : Payload → List Found
  | .absent => []
  | .value value => value.found
  | .block block => foundInBlock block
  | .generalIdentifier _ => []

def Statement.found : Statement → List Found
  | .organizationDef _ block => foundInBlock block
  | .rolesDef block => foundInBlock block
  | .roleDef _ block => foundInBlock block
  | .sectionDef _ block => foundInBlock block
  | .actionsDef block => foundInBlock block
  | .actionDef literal block =>
      .action (trimQuotes literal) :: (foundInBlock block).map (Found.within (trimQuotes literal))
  | .mintToken block => .step none (.mintToken block) :: foundInBlock block
  | .anchorData block => .step none (.anchorData block) :: foundInBlock block
  | .performMeteredAction actionName resourceNamespace resourceName amount =>
      [.step none (.performMeteredAction actionName resourceNamespace resourceName amount)]
  | .budgetDef _ block => foundInBlock block
  | .bylawsDef _ _ block => foundInBlock block
  | .electionDef _ block => foundInBlock block
  | .proposalDef _ block => foundInBlock block
  | .ifStatement _ left right thenBlock elseBlock =>
      left.found ++ right.found ++ foundInBlock thenBlock ++
        foundInElse elseBlock
  | .rangeStatement _ _ block => foundInBlock block
  | .functionCallStatement _ args => foundInPairs args
  | .scenarioDef _ block => foundInBlock block
  | .namedConstruct _ _ block => foundInBlock block
  | .anyStatement _ payload => payload.found

def foundInBlock : List Statement → List Found
  | [] => []
  | statement :: block => statement.found ++ foundInBlock block

def foundInElse : Option (List Statement) → List Found
  | none => []
  | some block => foundInBlock block

end

theorem foundInBlock_eq_flatMap (block : List Statement) :
    foundInBlock block = block.flatMap Statement.found := by
  induction block with
  | nil => rfl
  | cons statement block ih => rw [foundInBlock, List.flatMap_cons, ih]

end Ccl

end Icn

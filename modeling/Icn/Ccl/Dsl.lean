import Icn.Economics.Ledger.Economics

/-!
# Modules of the cooperative contract language

What the compiler makes of a contract before it generates code: a list of modules,
most of which carry rules. A rule has a key and a value, and a value may hold
rules again: a map, a range or a conditional.

`Opcode` is the language that code is generated in, one constructor for each call
of the host.
-/

namespace Icn

namespace Ccl

open Economics

def resourceText : ResourceType → String
  | .cpu => "Cpu"
  | .memory => "Memory"
  | .io => "Io"
  | .token => "Token"

/-- The floating point numbers and the identifiers of proposals. -/
structure DslTypes where
  F64 : Type
  Uuid : Type

mutual

inductive Rule (T : DslTypes) where
  | mk (key : String) (value : RuleValue T)

inductive RuleValue (T : DslTypes) where
  | string (text : String)
  | number (x : T.F64)
  | boolean (b : Bool)
  | list (values : List (RuleValue T))
  | map (rules : List (Rule T))
  | range (start stop : T.F64) (rules : List (Rule T))
  | cond (conditionRaw : String) (thenRules : List (Rule T)) (elseRules : Option (List (Rule T)))

end

variable {T : DslTypes}

def Rule.key : Rule T → String
  | .mk key _ => key

def Rule.value : Rule T → RuleValue T
  | .mk _ value => value

structure GenericSection (T : DslTypes) where
  kind : String
  title : Option String
  rules : List (Rule T)

structure Proposal (T : DslTypes) where
  id : T.Uuid
  title : String
  version : String
  body : String
  author : String
  createdAt : Int64
  rules : List (Rule T)

inductive VoteStance where
  | yes
  | no
  | abstain
deriving DecidableEq, Repr

structure Vote (T : DslTypes) where
  proposalId : T.Uuid
  voter : String
  stance : VoteStance
  rationale : Option String
  signedAt : Int64

structure Anchor where
  dataReference : String
  path : Option String

structure MeteredAction (T : DslTypes) where
  resourceType : String
  amount : UInt64
  recipient : Option String
  data : Option (List (Rule T))

structure Role (T : DslTypes) where
  name : String
  description : Option String
  attributes : List (Rule T)

inductive ActionStep (T : DslTypes) where
  | metered (action : MeteredAction T)
  | anchor (anchor : Anchor)
  | performMeteredAction (ident : String) (resource : ResourceType) (amount : UInt64)
  | transferToken (tokenType : String) (amount : UInt64) (sender recipient : String)

structure ActionHandler (T : DslTypes) where
  event : String
  steps : List (ActionStep T)

inductive DslModule (T : DslTypes) where
  | proposal (proposal : Proposal T)
  | vote (vote : Vote T)
  | anchor (anchor : Anchor)
  | meteredAction (action : MeteredAction T)
  | role (role : Role T)
  | actionHandler (handler : ActionHandler T)
  | genericSection (generic : GenericSection T)

inductive Opcode (F64 : Type) where
  | createProposal (title : String) (version : Option String)
  | onEvent (event : String)
  | mintToken (resType : String) (amount : UInt64) (recipient data : Option String)
  | anchorData (path : Option String) (dataRef : String)
  | useResource (resourceType : String) (amount : UInt64)
  | transferToken (tokenType : String) (amount : UInt64) (sender : Option String)
      (recipient : String)
  | submitJob (wasmCid : String) (description inputDataCid entryFunction requiredResourcesJson
      qosProfileJson : Option String) (maxAcceptableBidTokens deadlineUtcMs : Option UInt64)
      (metadataJson : Option String)
  | callHost (fnName argsPayload : String)
  | ifOp (condition : String)
  | elseOp
  | endIf
  | rangeCheck (start stop : F64)
  | beginSection (kind : String) (title : Option String)
  | endSection
  | setProperty (key valueJson : String)
  | todo (message : String)

structure Program (F64 : Type) where
  ops : List (Opcode F64)

end Ccl

end Icn

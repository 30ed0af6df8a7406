import Icn.Foundation.Map.Finite
import Icn.Ccl.Generator

/-!
# Programs before the host

The host keeps a stack of open sections of which there may be only one. A property
needs an open section; proposals, tokens and new sections need that there is
none. `replay` hands the opcodes of a program to the host one after the other and
stops at the first error.

The generator follows the rules into any depth, so whether the host takes its
program depends on what is in a section and what is not: `rulesFit`. A stretch of
a program goes from a state with or without an open section to another such
state, or is refused (`Replays`), and stretches compose.
-/

open Foundation

namespace Icn

namespace Ccl

inductive HostAbiError where
  | unknownError (message : String)
  | memoryAccessError (message : String)
  | bufferTooSmall (message : String)
  | invalidArguments (message : String)
  | notFound (message : String)
  | timeout (message : String)
  | notPermitted
  | notSupported
  | resourceLimitExceeded (message : String)
  | dataEncodingError (message : String)
  | invalidState (message : String)
  | networkError (message : String)
  | storageError (message : String)
  | serializationError (message : String)
  | invalidDIDFormat (message : String)
  | invalidCIDFormat (message : String)
  | queueFull (message : String)
  | channelClosed (message : String)
  | insufficientBalance
  | invalidDid (message : String)
  | invalidParameter (message : String)
  | resourceManagementError (message : String)
deriving DecidableEq, Repr

structure SectionContext where
  kind : String
  title : Option String
  properties : HashMap String String

/-- The open sections, the last one first. -/
structure JobExecutionContext where
  sectionStack : List SectionContext

namespace JobExecutionContext

def new : JobExecutionContext := ⟨[]⟩

def beginSection (ctx : JobExecutionContext) (kind : String) (title : Option String) :
    Except HostAbiError JobExecutionContext :=
  match ctx.sectionStack with
  | [] => .ok ⟨[⟨kind, title, ∅⟩]⟩
  | _ :: _ => .error (.invalidState ("Cannot begin a new section while another is active " ++
      "(nested sections not supported)."))

/-- Closing a section where there is none is not an error. -/
def endSection (ctx : JobExecutionContext) : Except HostAbiError JobExecutionContext :=
  .ok ⟨ctx.sectionStack.tail⟩

def setProperty (ctx : JobExecutionContext) (key valueJson : String) :
    Except HostAbiError JobExecutionContext :=
  match ctx.sectionStack with
  | [] => .error (.invalidState "No active section to set property on.")
  | current :: stack =>
      .ok ⟨{ current with properties := current.properties.insert key valueJson } :: stack⟩

def createProposal (ctx : JobExecutionContext) (_id _title _version : String) :
    Except HostAbiError JobExecutionContext :=
  match ctx.sectionStack with
  | [] => .ok ctx
  | _ :: _ => .error (.invalidState "Proposal creation requires an active section.")

def mintToken (ctx : JobExecutionContext) (_resType : String) (_amount : Int64)
    (_recipient _dataJson : Option String) : Except HostAbiError JobExecutionContext :=
  match ctx.sectionStack with
  | [] => .ok ctx
  | _ :: _ => .error
      (.invalidState "Mint token operation is not valid in the current context.")

def stub (ctx : JobExecutionContext) : Except HostAbiError JobExecutionContext := .ok ctx

def anchorData (ctx : JobExecutionContext) (_path _dataRef : String) := ctx.stub

def genericCall (ctx : JobExecutionContext) (_fnName _argsPayload : String) := ctx.stub

def ifConditionEval (ctx : JobExecutionContext) (_condition : String) := ctx.stub

def elseHandler (ctx : JobExecutionContext) := ctx.stub

def endifHandler (ctx : JobExecutionContext) := ctx.stub

def onEvent (ctx : JobExecutionContext) (_eventName : String) := ctx.stub

def rangeCheck {F64 : Type} (ctx : JobExecutionContext) (_startVal _endVal : F64) := ctx.stub

def useResource (ctx : JobExecutionContext) (_resourceType : String) (_amount : Int64) := ctx.stub

def transferToken (ctx : JobExecutionContext) (_tokenType : String) (_amount : Int64)
    (_sender : Option String) (_recipient : String) := ctx.stub

def submitMeshJob (ctx : JobExecutionContext) (writeBack : String → Except HostAbiError Int32) :
    Except HostAbiError JobExecutionContext :=
  (writeBack "dummy_mesh_job_123").map fun _ => ctx

end JobExecutionContext

section Replay

variable {F64 : Type} (writeBack : String → Except HostAbiError Int32)

open JobExecutionContext

/-- The call that an opcode stands for. The host does not look at the identifier of a
proposal, which the opcode does not have, and has no method for what is to be
done. -/
def hostCall (ctx : JobExecutionContext) : Opcode F64 → Except HostAbiError JobExecutionContext
  | .createProposal title version => ctx.createProposal "" title (version.getD "0.0.0")
  | .onEvent event => ctx.onEvent event
  | .mintToken resType amount recipient data =>
      ctx.mintToken resType amount.toInt64 recipient data
  | .anchorData path dataRef => ctx.anchorData (path.getD "") dataRef
  | .useResource resourceType amount => ctx.useResource resourceType amount.toInt64
  | .transferToken tokenType amount sender recipient =>
      ctx.transferToken tokenType amount.toInt64 sender recipient
  | .submitJob .. => ctx.submitMeshJob writeBack
  | .callHost fnName argsPayload => ctx.genericCall fnName argsPayload
  | .ifOp condition => ctx.ifConditionEval condition
  | .elseOp => ctx.elseHandler
  | .endIf => ctx.endifHandler
  | .rangeCheck start stop => ctx.rangeCheck start stop
  | .beginSection kind title => ctx.beginSection kind title
  | .endSection => ctx.endSection
  | .setProperty key valueJson => ctx.setProperty key valueJson
  | .todo _ => ctx.stub

def replay (ctx : JobExecutionContext) (ops : List (Opcode F64)) :
    Except HostAbiError JobExecutionContext :=
  ops.foldlM (hostCall writeBack) ctx

/-- The host takes the opcodes exactly if they fit, from a state with or without an
open section to another one, and refuses them as `InvalidState` otherwise. -/
def Replays (inside fits inside' : Bool) (ops : List (Opcode F64)) : Prop :=
  ∀ ctx : JobExecutionContext, ctx.sectionStack.length = inside.toNat →
    match replay writeBack ctx ops with
    | .ok ctx' => fits = true ∧ ctx'.sectionStack.length = inside'.toNat
    | .error error => fits = false ∧ ∃ message, error = .invalidState message

variable {writeBack}

theorem Replays.nil (inside : Bool) :
    Replays writeBack inside true inside ([] : List (Opcode F64)) :=
  fun _ hctx => ⟨rfl, hctx⟩

theorem Replays.append {inside fits inside' fits' inside'' : Bool} {ops ops' : List (Opcode F64)}
    (h : Replays writeBack inside fits inside' ops)
    (h' : Replays writeBack inside' fits' inside'' ops') :
    Replays writeBack inside (fits && fits') inside'' (ops ++ ops') := by
  intro ctx hctx
  have hfirst := h ctx hctx
  rw [replay, List.foldlM_append, ← replay]
  cases hrun : replay writeBack ctx ops with
  | error error =>
      rw [hrun] at hfirst
      obtain ⟨rfl, hstate⟩ := hfirst
      exact ⟨rfl, hstate⟩
  | ok ctx' =>
      rw [hrun] at hfirst
      obtain ⟨rfl, hctx'⟩ := hfirst
      exact h' ctx' hctx'

/-- Where a refused stretch would have led does not matter. -/
theorem Replays.of_refused {inside inside' inside'' : Bool} {ops : List (Opcode F64)}
    (h : Replays writeBack inside false inside' ops) :
    Replays writeBack inside false inside'' ops := by
  intro ctx hctx
  have hrun := h ctx hctx
  split at hrun
  · exact absurd hrun.1 Bool.false_ne_true
  · exact hrun

theorem Replays.cons {inside fits inside' fits' inside'' : Bool} {op : Opcode F64}
    {ops : List (Opcode F64)} (h : Replays writeBack inside fits inside' [op])
    (h' : Replays writeBack inside' fits' inside'' ops) :
    Replays writeBack inside (fits && fits') inside'' (op :: ops) :=
  h.append h'

/-- The opcodes that the host only takes note of. -/
theorem replays_of_hostCall_eq {op : Opcode F64} (h : ∀ ctx, hostCall writeBack ctx op = .ok ctx)
    (inside : Bool) : Replays writeBack inside true inside [op] := by
  intro ctx hctx
  simpa [replay, h] using hctx

theorem replays_beginSection (inside : Bool) (kind : String) (title : Option String) :
    Replays writeBack inside (!inside) true ([.beginSection kind title] : List (Opcode F64)) := by
  rintro ⟨stack⟩ hctx
  cases inside with
  | false =>
      obtain rfl := List.length_eq_zero_iff.mp hctx
      exact ⟨rfl, rfl⟩
  | true =>
      obtain ⟨current, rfl⟩ := List.length_eq_one_iff.mp hctx
      exact ⟨rfl, _, rfl⟩

theorem replays_endSection :
    Replays writeBack true true false ([.endSection] : List (Opcode F64)) := by
  rintro ⟨stack⟩ hctx
  obtain ⟨current, rfl⟩ := List.length_eq_one_iff.mp hctx
  exact ⟨rfl, rfl⟩

theorem replays_setProperty (inside : Bool) (key valueJson : String) :
    Replays writeBack inside inside inside
      ([.setProperty key valueJson] : List (Opcode F64)) := by
  rintro ⟨stack⟩ hctx
  cases inside with
  | false =>
      obtain rfl := List.length_eq_zero_iff.mp hctx
      exact ⟨rfl, _, rfl⟩
  | true =>
      obtain ⟨current, rfl⟩ := List.length_eq_one_iff.mp hctx
      exact ⟨rfl, rfl⟩

theorem replays_createProposal (title : String) (version : Option String) :
    Replays writeBack false true false
      ([.createProposal title version] : List (Opcode F64)) := by
  rintro ⟨stack⟩ hctx
  obtain rfl := List.length_eq_zero_iff.mp hctx
  exact ⟨rfl, rfl⟩

theorem replays_mintToken (resType : String) (amount : UInt64) (recipient data : Option String) :
    Replays writeBack false true false
      ([.mintToken resType amount recipient data] : List (Opcode F64)) := by
  rintro ⟨stack⟩ hctx
  obtain rfl := List.length_eq_zero_iff.mp hctx
  exact ⟨rfl, rfl⟩

end Replay

section Discipline

variable {T : DslTypes}

mutual

def rulesFit (inside : Bool) : List (Rule T) → Bool
  | [] => true
  | rule :: rules => ruleFits inside rule && rulesFit inside rules

/-- A scalar is a property and needs a section, and a range is a section of its own.
Maps and conditionals fit where their rules do, and calls fit everywhere. -/
def ruleFits (inside : Bool) : Rule T → Bool
  | .mk _ (.cond _ thenRules elseRules) => rulesFit inside thenRules && elseFits inside elseRules
  | .mk _ (.range _ _ rules) => !inside && rulesFit true rules
  | .mk _ (.map rules) => isFunctionCall rules || rulesFit inside rules
  | .mk _ (.string _) => inside
  | .mk _ (.number _) => inside
  | .mk _ (.boolean _) => inside
  | .mk _ (.list _) => inside

def elseFits (inside : Bool) : Option (List (Rule T)) → Bool
  | none => true
  | some rules => rulesFit inside rules

end

/-- The rules of a proposal are outside of sections, those of a section and of a role
are inside. -/
def moduleFits : DslModule T → Bool
  | .proposal proposal => rulesFit false proposal.rules
  | .genericSection generic => rulesFit true generic.rules
  | .role role => rulesFit true role.attributes
  | _ => true

namespace WasmGenerator

variable (lib : DslLibrary T) (writeBack : String → Except HostAbiError Int32)

mutual

theorem replays_walkRules : ∀ (inside : Bool) (rules : List (Rule T)),
    Replays writeBack inside (rulesFit inside rules) inside (walkRules lib rules [])
  | inside, [] => by
      rw [walkRules, rulesFit]
      exact .nil inside
  | inside, rule :: rules => by
      rw [walkRules_cons, rulesFit]
      exact .append (replays_walkRule inside rule) (replays_walkRules inside rules)

theorem replays_walkRule : ∀ (inside : Bool) (rule : Rule T),
    Replays writeBack inside (ruleFits inside rule) inside (walkRule lib rule [])
  | inside, .mk key (.cond conditionRaw thenRules elseRules) => by
      have hif : Replays writeBack inside true inside
          ([.ifOp conditionRaw] : List (Opcode T.F64)) :=
        replays_of_hostCall_eq (fun _ => rfl) inside
      have hend : Replays writeBack inside true inside ([.endIf] : List (Opcode T.F64)) :=
        replays_of_hostCall_eq (fun _ => rfl) inside
      have hall := ((hif.append (replays_walkRules inside thenRules)).append
        (replays_walkElse inside elseRules)).append hend
      rw [Bool.true_and, Bool.and_true] at hall
      rw [walkRule_cond, ruleFits]
      exact hall
  | inside, .mk key (.range start stop rules) => by
      have hall := ((replays_beginSection inside
        s!"range_{lib.numberText start}_{lib.numberText stop}" (some key)).append
          (replays_walkRules true rules)).append replays_endSection
      rw [Bool.and_true] at hall
      rw [walkRule_range, ruleFits]
      cases inside with
      | false => exact hall
      | true => exact hall.of_refused
  | inside, .mk key (.map rules) => by
      rw [walkRule, ruleFits]
      split
      · next hcall =>
        rw [hcall]
        exact replays_of_hostCall_eq (fun _ => rfl) inside
      · next hcall =>
        rw [Bool.eq_false_iff.mpr hcall]
        exact replays_walkRules inside rules
  | inside, .mk key (.string text) => replays_setProperty inside key _
  | inside, .mk key (.number x) => replays_setProperty inside key _
  | inside, .mk key (.boolean b) => replays_setProperty inside key _
  | inside, .mk key (.list values) => replays_setProperty inside key _

theorem replays_walkElse : ∀ (inside : Bool) (rules : Option (List (Rule T))),
    Replays writeBack inside (elseFits inside rules) inside (walkElse lib rules [])
  | inside, none => by
      rw [walkElse, elseFits]
      exact .nil inside
  | inside, some rules => by
      rw [walkElse_some, elseFits]
      exact .cons (replays_of_hostCall_eq (fun _ => rfl) inside) (replays_walkRules inside rules)

end

variable {lib} in
theorem replays_walkStep (step : ActionStep T) :
    Replays writeBack false true false (walkStep lib [] step) := by
  cases step with
  | metered action => exact replays_mintToken _ _ _ _
  | anchor anchor => exact replays_of_hostCall_eq (fun _ => rfl) false
  | performMeteredAction ident resource amount =>
      exact .append (replays_of_hostCall_eq (fun _ => rfl) false)
        (replays_of_hostCall_eq (fun _ => rfl) false)
  | transferToken tokenType amount sender recipient =>
      exact replays_of_hostCall_eq (fun _ => rfl) false

theorem replays_walkSteps (steps : List (ActionStep T)) :
    Replays writeBack false true false (steps.flatMap (walkStep lib [])) := by
  induction steps with
  | nil => exact .nil false
  | cons step steps ih => exact .append (replays_walkStep writeBack step) ih

theorem replays_describe {F64 : Type} (description : Option String) :
    Replays writeBack true true true (describe [] description : List (Opcode F64)) := by
  cases description with
  | none => exact .nil true
  | some text => exact replays_setProperty true _ _

theorem replays_walkModule (dslModule : DslModule T) :
    Replays writeBack false (moduleFits dslModule) false (walkModule lib [] dslModule) := by
  cases dslModule with
  | proposal proposal =>
      rw [walkModule_proposal]
      exact .cons (replays_createProposal _ _) (replays_walkRules lib writeBack false _)
  | actionHandler handler =>
      rw [walkModule_actionHandler]
      exact .cons (replays_of_hostCall_eq (fun _ => rfl) false)
        (replays_walkSteps lib writeBack handler.steps)
  | genericSection generic =>
      have hall := ((replays_beginSection false generic.kind generic.title).append
        (replays_walkRules lib writeBack true generic.rules)).append replays_endSection
      rw [Bool.and_true] at hall
      rw [walkModule_genericSection]
      exact hall
  | role role =>
      have hbody := (replays_describe writeBack role.description).append
        (replays_walkRules lib writeBack true role.attributes)
      have hall := ((replays_beginSection false "role" (some role.name)).append
        hbody).append replays_endSection
      rw [Bool.and_true] at hall
      rw [walkModule_role]
      exact hall
  | vote vote => exact replays_of_hostCall_eq (fun _ => rfl) false
  | anchor anchor => exact replays_of_hostCall_eq (fun _ => rfl) false
  | meteredAction action => exact replays_of_hostCall_eq (fun _ => rfl) false

theorem replays_generate (modules : List (DslModule T)) :
    Replays writeBack false (modules.all moduleFits) false (generate lib modules).ops := by
  rw [generate_ops]
  induction modules with
  | nil => exact .nil false
  | cons dslModule modules ih => exact .append (replays_walkModule lib writeBack dslModule) ih

/-- The host takes a program, and has no open section at its end, exactly when every
module fits. -/
theorem replay_generate_iff (modules : List (DslModule T)) :
    (∃ ctx, replay writeBack .new (generate lib modules).ops = .ok ctx ∧ ctx.sectionStack = []) ↔
      modules.all moduleFits = true := by
  have hrun := replays_generate lib writeBack modules .new rfl
  constructor
  · rintro ⟨ctx, hctx, -⟩
    rw [hctx] at hrun
    exact hrun.1
  · intro hfits
    cases hreplay : replay writeBack .new (generate lib modules).ops with
    | ok ctx =>
        rw [hreplay] at hrun
        exact ⟨ctx, rfl, List.length_eq_zero_iff.mp hrun.2⟩
    | error error =>
        rw [hreplay] at hrun
        exact absurd (hrun.1.symm.trans hfits) Bool.false_ne_true

def budgetProposal : Proposal wholeTypes where
  id := "a1a2a3a4-b1b2-c1c2-d1d2-d3d4d5d6d7d8"
  title := "cooperative_budget"
  version := "0.0.0-unknown"
  body := ""
  author := ""
  createdAt := 0
  rules := [.mk "currency" (.string "USD")]

/-- The host refuses the properties of a proposal, since no section is open. -/
theorem not_replay_budgetProposal :
    ¬ ∃ ctx, replay (fun jobId => .ok (Int32.ofNat jobId.length)) .new
        (generate wholeLibrary [.proposal budgetProposal]).ops = .ok ctx ∧
      ctx.sectionStack = [] := by
  rintro ⟨ctx, hctx, -⟩
  have hrun := replays_generate wholeLibrary (fun jobId => .ok (Int32.ofNat jobId.length))
    [.proposal budgetProposal] .new rfl
  rw [hctx] at hrun
  exact absurd hrun.1 (by decide)

end WasmGenerator

end Discipline

end Ccl

end Icn

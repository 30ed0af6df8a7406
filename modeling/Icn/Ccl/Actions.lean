import Icn.Foundation.Run.Fallible
import Icn.Ccl.Lower

/-!
# What becomes of the actions

`Statement.found` lists the actions and steps of a parse tree, and `DslModule.handled`
those of a module. Lowering gives exactly the ones that stand where it looks for them
(`Statement.placed`): an action directly in an `actions` block of the top level, and a
step directly in such an action. What stands elsewhere is passed over without an error,
so nothing is lost exactly if there is nothing elsewhere.
-/

open Foundation

namespace Icn

namespace Ccl

inductive Occurrence (T : DslTypes) where
  | action (event : String)
  | step (event : Option String) (step : Option (ActionStep T))

variable {T : DslTypes} (lib : LowerLibrary T)

def Found.lowered : Found → Occurrence T
  | .action event => .action event
  | .step event statement => .step event (lowerStep lib statement).toOption.join

def handledStep (event : String) (step : ActionStep T) : Occurrence T :=
  .step (some event) (some step)

def DslModule.handled : DslModule T → List (Occurrence T)
  | .actionHandler handler => .action handler.event :: handler.steps.map (handledStep handler.event)
  | _ => []

namespace Statement

/-- The statement holds neither an action nor a step, at any depth. -/
def Inert (statement : Statement) : Prop := statement.found = []

/-- In an action: the statement is inert, or it is a step whose block is. -/
def StepInPlace : Statement → Prop
  | mintToken block => ∀ statement ∈ block, statement.Inert
  | anchorData block => ∀ statement ∈ block, statement.Inert
  | performMeteredAction _ _ _ _ => True
  | statement => statement.Inert

/-- In an `actions` block: the statement is inert, or it is an action with its steps in
place. -/
def ActionInPlace : Statement → Prop
  | actionDef _ block => ∀ statement ∈ block, statement.StepInPlace
  | statement => statement.Inert

/-- At the top level: the statement is inert, or it is an `actions` block with its actions
in place. -/
def InPlace : Statement → Prop
  | actionsDef block => ∀ statement ∈ block, statement.ActionInPlace
  | statement => statement.Inert

def placedStep : Statement → List Found
  | mintToken block => [.step none (mintToken block)]
  | anchorData block => [.step none (anchorData block)]
  | performMeteredAction actionName resourceNamespace resourceName amount =>
      [.step none (performMeteredAction actionName resourceNamespace resourceName amount)]
  | _ => []

/-- The action that a statement of an `actions` block is, with its steps. -/
def placedAction : Statement → List Found
  | actionDef literal block =>
      .action (trimQuotes literal) ::
        (block.flatMap placedStep).map (Found.within (trimQuotes literal))
  | _ => []

def placed : Statement → List Found
  | actionsDef block => block.flatMap placedAction
  | _ => []

end Statement

section Lowering

variable {lib}

theorem lowered_placedStep {statement : Statement} {step : Option (ActionStep T)} (event : String)
    (h : lowerStep lib statement = .ok step) :
    (statement.placedStep.map (Found.within event)).map (Found.lowered lib) =
      step.toList.map (handledStep event) := by
  have hstep : ∀ statement, lowerStep lib statement = .ok step →
      Found.lowered lib (.step (some event) statement) = .step (some event) step := by
    intro statement h
    rw [Found.lowered, h]
    rfl
  cases statement with
  | mintToken block =>
      obtain ⟨action, -, rfl⟩ := Fallible.map_eq_ok_iff.mp h
      exact congrArg (fun occurrence => [occurrence]) (hstep _ h)
  | anchorData block =>
      obtain ⟨anchor, -, rfl⟩ := Fallible.map_eq_ok_iff.mp h
      exact congrArg (fun occurrence => [occurrence]) (hstep _ h)
  | performMeteredAction actionName resourceNamespace resourceName amount =>
      obtain ⟨action, -, rfl⟩ := Fallible.map_eq_ok_iff.mp h
      exact congrArg (fun occurrence => [occurrence]) (hstep _ h)
  | _ =>
      obtain rfl := Except.ok.inj h
      rfl

theorem handled_of_lowerSteps {steps steps' : List (ActionStep T)} {block : List Statement}
    (event : String) (h : lowerSteps lib steps block = .ok steps') :
    steps'.map (handledStep event) = steps.map (handledStep event) ++
      ((block.flatMap Statement.placedStep).map (Found.within event)).map (Found.lowered lib) := by
  induction block generalizing steps with
  | nil =>
      obtain rfl := Except.ok.inj h
      simp
  | cons statement block ih =>
      obtain ⟨step, hstep, h⟩ := Fallible.bind_eq_ok_iff.mp h
      rw [ih h, List.flatMap_cons, List.map_append, List.map_append, List.map_append,
        lowered_placedStep event hstep, List.append_assoc]

theorem handled_of_lowerActions {handlers handlers' : List (DslModule T)} {block : List Statement}
    (h : lowerActions lib handlers block = .ok handlers') :
    handlers'.flatMap DslModule.handled = handlers.flatMap DslModule.handled ++
      (block.flatMap Statement.placedAction).map (Found.lowered lib) := by
  induction block generalizing handlers with
  | nil =>
      obtain rfl := Except.ok.inj h
      simp
  | cons statement block ih =>
      rw [List.flatMap_cons, List.map_append]
      cases statement with
      | actionDef literal steps =>
          obtain ⟨lowered, hsteps, h⟩ := Fallible.bind_eq_ok_iff.mp h
          have hhandled := handled_of_lowerSteps (trimQuotes literal) hsteps
          rw [ih h, List.flatMap_append, List.flatMap_singleton, DslModule.handled, hhandled,
            List.append_assoc]
          rfl
      | _ => exact ih h

theorem handled_of_lowerRolesFromBlock {modules modules' : List (DslModule T)}
    {block : List Statement} (h : lowerRolesFromBlock lib modules block = .ok modules') :
    modules'.flatMap DslModule.handled = modules.flatMap DslModule.handled := by
  induction block generalizing modules with
  | nil =>
      obtain rfl := Except.ok.inj h
      rfl
  | cons statement block ih =>
      cases statement with
      | roleDef name attributes =>
          obtain ⟨role, -, h⟩ := Fallible.bind_eq_ok_iff.mp h
          rw [ih h, List.flatMap_append, List.flatMap_singleton]
          exact List.append_nil _
      | _ => exact ih h

theorem handled_of_lowerProposal {index : ℕ} {title : String} {block : List Statement}
    {dslModule : DslModule T} (h : lowerProposal lib index title block = .ok dslModule) :
    dslModule.handled = [] := by
  obtain ⟨fields, -, h⟩ := Fallible.bind_eq_ok_iff.mp h
  obtain rfl := Except.ok.inj h
  rfl

theorem handled_of_lowerBylawsDef {index : ℕ} {title version : String} {block : List Statement}
    {dslModule : DslModule T} (h : lowerBylawsDef lib index title version block = .ok dslModule) :
    dslModule.handled = [] := by
  obtain ⟨fields, -, h⟩ := Fallible.bind_eq_ok_iff.mp h
  obtain rfl := Except.ok.inj h
  rfl

theorem handled_of_lowerGenericSection {kind : String} {title : Option String}
    {block : List Statement} {dslModule : DslModule T}
    (h : lowerGenericSection lib kind title block = .ok dslModule) : dslModule.handled = [] := by
  obtain ⟨fields, -, h⟩ := Fallible.bind_eq_ok_iff.mp h
  obtain rfl := Except.ok.inj h
  rfl

theorem handled_of_dispatchDef {modules modules' : List (DslModule T)} {statement : Statement}
    (h : dispatchDef lib modules statement = .ok modules') :
    modules'.flatMap DslModule.handled = modules.flatMap DslModule.handled ++
      statement.placed.map (Found.lowered lib) := by
  have hquiet : ∀ dslModule : DslModule T, dslModule.handled = [] →
      (modules ++ [dslModule]).flatMap DslModule.handled =
        modules.flatMap DslModule.handled ++ [] := by
    intro dslModule hdslModule
    rw [List.flatMap_append, List.flatMap_singleton, hdslModule]
  cases statement with
  | proposalDef title block =>
      obtain ⟨proposal, hproposal, rfl⟩ := Fallible.map_eq_ok_iff.mp h
      exact hquiet proposal (handled_of_lowerProposal hproposal)
  | electionDef title block =>
      obtain ⟨proposal, hproposal, rfl⟩ := Fallible.map_eq_ok_iff.mp h
      exact hquiet proposal (handled_of_lowerProposal hproposal)
  | budgetDef title block =>
      obtain ⟨proposal, hproposal, rfl⟩ := Fallible.map_eq_ok_iff.mp h
      exact hquiet proposal (handled_of_lowerProposal hproposal)
  | bylawsDef title version block =>
      obtain ⟨proposal, hproposal, rfl⟩ := Fallible.map_eq_ok_iff.mp h
      exact hquiet proposal (handled_of_lowerBylawsDef hproposal)
  | organizationDef title block =>
      obtain ⟨generic, hgeneric, rfl⟩ := Fallible.map_eq_ok_iff.mp h
      exact hquiet generic (handled_of_lowerGenericSection hgeneric)
  | sectionDef kind block =>
      obtain ⟨generic, hgeneric, rfl⟩ := Fallible.map_eq_ok_iff.mp h
      exact hquiet generic (handled_of_lowerGenericSection hgeneric)
  | rolesDef block => exact (handled_of_lowerRolesFromBlock h).trans (List.append_nil _).symm
  | actionsDef block =>
      obtain ⟨handlers, hhandlers, rfl⟩ := Fallible.map_eq_ok_iff.mp h
      rw [List.flatMap_append, handled_of_lowerActions hhandlers]
      rfl
  | _ => cases h

theorem handled_of_lower {ccl : List Statement} {modules : List (DslModule T)}
    (h : lower lib ccl = .ok modules) :
    modules.flatMap DslModule.handled =
      (ccl.flatMap Statement.placed).map (Found.lowered lib) := by
  have hfold : ∀ (ccl : List Statement) (modules modules' : List (DslModule T)),
      ccl.foldlM (dispatchDef lib) modules = .ok modules' →
        modules'.flatMap DslModule.handled = modules.flatMap DslModule.handled ++
          (ccl.flatMap Statement.placed).map (Found.lowered lib) := by
    intro ccl
    induction ccl with
    | nil =>
        intro modules modules' h
        obtain rfl := Except.ok.inj h
        simp
    | cons statement ccl ih =>
        intro modules modules' h
        obtain ⟨next, hnext, h⟩ := Fallible.bind_eq_ok_iff.mp h
        rw [ih _ _ h, handled_of_dispatchDef hnext, List.flatMap_cons, List.map_append,
          List.append_assoc]
  exact hfold ccl [] modules h

end Lowering

section Placement

theorem flatMap_sublist_flatMap {α β : Type*} {f g : α → List β} {l : List α}
    (h : ∀ a ∈ l, (f a).Sublist (g a)) : (l.flatMap f).Sublist (l.flatMap g) := by
  induction l with
  | nil => exact List.Sublist.slnil
  | cons a l ih =>
      rw [List.flatMap_cons, List.flatMap_cons]
      exact (h a List.mem_cons_self).append (ih fun b hb => h b (List.mem_cons_of_mem a hb))

theorem flatMap_eq_flatMap_iff {α β : Type*} {f g : α → List β} {l : List α}
    (h : ∀ a ∈ l, (f a).Sublist (g a)) : l.flatMap f = l.flatMap g ↔ ∀ a ∈ l, f a = g a := by
  refine ⟨?_, fun heq => List.flatMap_congr heq⟩
  induction l with
  | nil => exact fun _ a ha => absurd ha List.not_mem_nil
  | cons a l ih =>
      intro heq
      have hrest : ∀ b ∈ l, (f b).Sublist (g b) := fun b hb => h b (List.mem_cons_of_mem a hb)
      have hlength := congrArg List.length heq
      simp only [List.flatMap_cons, List.length_append] at hlength
      have hhead := (h a List.mem_cons_self).length_le
      have htail := (flatMap_sublist_flatMap hrest).length_le
      rw [List.forall_mem_cons]
      exact ⟨(h a List.mem_cons_self).eq_of_length (by omega),
        ih hrest ((flatMap_sublist_flatMap hrest).eq_of_length (by omega))⟩

namespace Statement

theorem foundInBlock_eq_nil_iff (block : List Statement) :
    foundInBlock block = [] ↔ ∀ statement ∈ block, statement.Inert := by
  rw [foundInBlock_eq_flatMap]
  exact List.flatMap_eq_nil_iff

theorem placedStep_sublist (statement : Statement) :
    statement.placedStep.Sublist statement.found := by
  cases statement with
  | mintToken block => exact List.singleton_sublist.mpr List.mem_cons_self
  | anchorData block => exact List.singleton_sublist.mpr List.mem_cons_self
  | performMeteredAction actionName resourceNamespace resourceName amount =>
      exact List.Sublist.refl _
  | _ => exact List.nil_sublist _

theorem placedStep_eq_found_iff (statement : Statement) :
    statement.placedStep = statement.found ↔ statement.StepInPlace := by
  cases statement with
  | mintToken block =>
      rw [placedStep, found, List.cons_inj_right, eq_comm]
      exact foundInBlock_eq_nil_iff block
  | anchorData block =>
      rw [placedStep, found, List.cons_inj_right, eq_comm]
      exact foundInBlock_eq_nil_iff block
  | performMeteredAction actionName resourceNamespace resourceName amount =>
      exact iff_of_true rfl trivial
  | _ => exact eq_comm

theorem placedAction_sublist (statement : Statement) :
    statement.placedAction.Sublist statement.found := by
  cases statement with
  | actionDef literal block =>
      rw [placedAction, found, foundInBlock_eq_flatMap]
      exact ((flatMap_sublist_flatMap fun step _ => step.placedStep_sublist).map _).cons_cons _
  | _ => exact List.nil_sublist _

theorem placedAction_eq_found_iff (statement : Statement) :
    statement.placedAction = statement.found ↔ statement.ActionInPlace := by
  cases statement with
  | actionDef literal block =>
      have hsublist := flatMap_sublist_flatMap (l := block) fun step _ => step.placedStep_sublist
      rw [placedAction, found, List.cons_inj_right, foundInBlock_eq_flatMap]
      constructor
      · intro heq step hstep
        have hlength := congrArg List.length heq
        rw [List.length_map, List.length_map] at hlength
        have hparts := (flatMap_eq_flatMap_iff fun step _ => step.placedStep_sublist).mp
          (hsublist.eq_of_length hlength)
        exact step.placedStep_eq_found_iff.mp (hparts step hstep)
      · intro hplace
        rw [List.flatMap_congr fun step hstep =>
          step.placedStep_eq_found_iff.mpr (hplace step hstep)]
  | _ => exact eq_comm

theorem placed_sublist (statement : Statement) : statement.placed.Sublist statement.found := by
  cases statement with
  | actionsDef block =>
      rw [placed, found, foundInBlock_eq_flatMap]
      exact flatMap_sublist_flatMap fun action _ => action.placedAction_sublist
  | _ => exact List.nil_sublist _

theorem placed_eq_found_iff (statement : Statement) :
    statement.placed = statement.found ↔ statement.InPlace := by
  cases statement with
  | actionsDef block =>
      rw [placed, found, foundInBlock_eq_flatMap,
        flatMap_eq_flatMap_iff fun action _ => action.placedAction_sublist]
      exact forall₂_congr fun action _ => action.placedAction_eq_found_iff
  | _ => exact eq_comm

end Statement

end Placement

/-- **No action is lost** exactly if every statement of the top level is in place. -/
theorem found_sublist_handled_iff {src : String} {ccl : List Statement}
    {modules : List (DslModule T)} (hparse : lib.parse src = .ok ccl)
    (hlower : lowerStr lib src = .ok modules) :
    ((ccl.flatMap Statement.found).map (Found.lowered lib)).Sublist
        (modules.flatMap DslModule.handled) ↔
      ∀ statement ∈ ccl, statement.InPlace := by
  have hccl : lower lib ccl = .ok modules := by
    rw [lowerStr, hparse] at hlower
    exact hlower
  have hplaced := flatMap_sublist_flatMap (l := ccl) fun statement _ => statement.placed_sublist
  have hiff : ccl.flatMap Statement.placed = ccl.flatMap Statement.found ↔
      ∀ statement ∈ ccl, statement.InPlace := by
    rw [flatMap_eq_flatMap_iff fun statement _ => statement.placed_sublist]
    exact forall₂_congr fun statement _ => statement.placed_eq_found_iff
  rw [handled_of_lower hccl, ← hiff]
  constructor
  · intro hkept
    have hlength := hkept.length_le
    rw [List.length_map, List.length_map] at hlength
    exact hplaced.eq_of_length (Nat.le_antisymm hplaced.length_le hlength)
  · intro heq
    rw [heq]

/-- `on "joined" { mint_token { type "welcome"; } }` -/
def mintOnJoin : Statement :=
  .actionDef "\"joined\""
    [.mintToken [.anyStatement "type" (.value (.stringLiteral "\"welcome\""))]]

def mintOnJoinHandler : DslModule wholeTypes :=
  .actionHandler ⟨"joined", [.metered ⟨"welcome", 1, none, none⟩]⟩

def joinSource : String :=
  "actions \x7b on \"joined\" \x7b mint_token \x7b type \"welcome\"; \x7d \x7d \x7d"

/-- In an `actions` block of the top level the action is kept. -/
theorem found_sublist_handled_joinSource :
    (([Statement.actionsDef [mintOnJoin]].flatMap Statement.found).map
        (Found.lowered (sourceLibrary joinSource [.actionsDef [mintOnJoin]]))).Sublist
      ([mintOnJoinHandler].flatMap DslModule.handled) := by
  have hparse : (sourceLibrary joinSource [.actionsDef [mintOnJoin]]).parse joinSource =
      .ok [.actionsDef [mintOnJoin]] := rfl
  have hlower : lowerStr (sourceLibrary joinSource [.actionsDef [mintOnJoin]]) joinSource =
      .ok [mintOnJoinHandler] := rfl
  refine (found_sublist_handled_iff _ hparse hlower).mpr ?_
  intro statement hstatement
  obtain rfl := List.mem_singleton.mp hstatement
  intro action haction
  obtain rfl := List.mem_singleton.mp haction
  intro step hstep
  obtain rfl := List.mem_singleton.mp hstep
  intro field hfield
  obtain rfl := List.mem_singleton.mp hfield
  rfl

def bylawsSource : String :=
  "bylaws_def \"Bylaws\" version \"1\" \x7b " ++ joinSource ++ " \x7d"

def bylawsTree : List Statement :=
  [.bylawsDef "\"Bylaws\"" "\"1\"" [.actionsDef [mintOnJoin]]]

def bylawsModule : DslModule wholeTypes :=
  .proposal
    { id := "0"
      title := "Bylaws"
      version := "1"
      body := ""
      author := "unknown"
      createdAt := 0
      rules := [] }

/-- In the block of some bylaws the action is lost, without an error. -/
theorem not_found_sublist_handled_bylawsSource :
    lowerStr (sourceLibrary bylawsSource bylawsTree) bylawsSource = .ok [bylawsModule] ∧
      ¬ ((bylawsTree.flatMap Statement.found).map
          (Found.lowered (sourceLibrary bylawsSource bylawsTree))).Sublist
        ([bylawsModule].flatMap DslModule.handled) := by
  constructor
  · rfl
  · intro hkept
    have hnone := List.sublist_nil.mp hkept
    exact List.cons_ne_nil _ _ hnone

end Ccl

end Icn

import Icn.Foundation.Nesting
import Icn.Ccl.Generator

/-!
# Nested sections and conditionals

Sections and conditionals are the brackets of a program, and the `Else` of a
conditional divides it. The opcodes of rules are balanced, because those of a
range or of a conditional are put around the opcodes of the rules within.
-/

open Foundation

namespace Icn

namespace Ccl

variable {T : DslTypes}

inductive Bracket where
  | ofSection
  | ofIf
deriving DecidableEq

def Opcode.symbol {F64 : Type} : Opcode F64 → Nesting.Symbol Bracket
  | .beginSection _ _ => .opening .ofSection
  | .endSection => .closing .ofSection
  | .ifOp _ => .opening .ofIf
  | .elseOp => .dividing .ofIf
  | .endIf => .closing .ofIf
  | _ => .plain

namespace WasmGenerator

variable (lib : DslLibrary T)

open Nesting

mutual

theorem balanced_walkRules : ∀ rules : List (Rule T),
    Balanced Opcode.symbol (walkRules lib rules [])
  | [] => by
      rw [walkRules]
      exact .nil
  | rule :: rules => by
      rw [walkRules_cons]
      exact .append (balanced_walkRule rule) (balanced_walkRules rules)

theorem balanced_walkRule : ∀ rule : Rule T, Balanced Opcode.symbol (walkRule lib rule [])
  | .mk key (.cond conditionRaw thenRules none) => by
      rw [walkRule_cond, walkElse, List.append_nil]
      exact .bracket rfl rfl (balanced_walkRules thenRules)
  | .mk key (.cond conditionRaw thenRules (some elseRules)) => by
      rw [walkRule_cond, walkElse_some]
      exact .divided rfl rfl rfl (balanced_walkRules thenRules) (balanced_walkRules elseRules)
  | .mk key (.range start stop rules) => by
      rw [walkRule_range]
      exact .bracket rfl rfl (balanced_walkRules rules)
  | .mk key (.map rules) => by
      rw [walkRule]
      split
      · exact .plain rfl
      · exact balanced_walkRules rules
  | .mk key (.string text) => .plain rfl
  | .mk key (.number x) => .plain rfl
  | .mk key (.boolean b) => .plain rfl
  | .mk key (.list values) => .plain rfl

end

theorem symbol_of_mem_walkStep (step : ActionStep T) :
    ∀ op ∈ walkStep lib [] step, op.symbol = .plain := by
  cases step <;> simp [walkStep, Opcode.symbol]

theorem balanced_describe {F64 : Type} (description : Option String) :
    Balanced Opcode.symbol (describe [] description : List (Opcode F64)) := by
  cases description with
  | none => exact .nil
  | some text => exact .plain rfl

theorem balanced_walkModule (dslModule : DslModule T) :
    Balanced Opcode.symbol (walkModule lib [] dslModule) := by
  cases dslModule with
  | proposal proposal =>
      rw [walkModule_proposal]
      exact .cons rfl (balanced_walkRules lib proposal.rules)
  | actionHandler handler =>
      rw [walkModule_actionHandler]
      refine .cons rfl (.flatMap fun step _ => ?_)
      exact .of_forall_plain (symbol_of_mem_walkStep lib step)
  | genericSection generic =>
      rw [walkModule_genericSection]
      exact .bracket rfl rfl (balanced_walkRules lib generic.rules)
  | role role =>
      rw [walkModule_role]
      exact .bracket rfl rfl
        (.append (balanced_describe role.description) (balanced_walkRules lib role.attributes))
  | vote vote => exact .plain rfl
  | anchor anchor => exact .plain rfl
  | meteredAction action => exact .plain rfl

theorem balanced_generate (modules : List (DslModule T)) :
    Balanced Opcode.symbol (generate lib modules).ops := by
  rw [generate_ops]
  exact .flatMap fun dslModule _ => balanced_walkModule lib dslModule

/-- Sections and conditionals are well nested in every program, and so are those of
lists of modules that are put together. -/
theorem generate_wellNested (modules modules' : List (DslModule T)) :
    Balanced Opcode.symbol (generate lib modules).ops ∧
      (generate lib (modules ++ modules')).ops =
        (generate lib modules).ops ++ (generate lib modules').ops ∧
      ∀ n, (scan Opcode.symbol [] ((generate lib modules).ops.take n)).isSome := by
  refine ⟨balanced_generate lib modules, ?_, fun n => ?_⟩
  · rw [generate_ops, generate_ops, generate_ops, List.flatMap_append]
  · exact (balanced_generate lib modules).isSome_scan (List.take_prefix n _)

end WasmGenerator

end Ccl

end Icn

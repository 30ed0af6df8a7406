import Icn.Foundation.Peg.Total

/-!
# The grammar of contracts

The rules of the grammar as parsing expressions, in the order of their declaration. Blanks
and comments are skipped between the parts of a rule that is not atomic.

Every rule has exactly one outcome in front of every text (`existsUnique_yields`).
-/

open Foundation Peg

namespace Icn

namespace Ccl

inductive GrammarRule where
  | comment
  | whitespace
  | identifier
  | stringLiteral
  | innerString
  | number
  | boolean
  | duration
  | pathIdentifier
  | generalIdentifier
  | functionCallArgs
  | functionCall
  | value
  | array
  | object
  | objectPair
  | block
  | comparisonOperand
  | comparisonOperator
  | comparisonExpression
  | ifStatement
  | functionCallStatement
  | statement
  | anyStatement
  | organizationDef
  | rolesDef
  | roleDef
  | governanceDef
  | proposalDef
  | membershipDef
  | actionsDef
  | actionDef
  | mintToken
  | anchorData
  | performMeteredAction
  | budgetDef
  | bylawsDef
  | allocationsDef
  | categoryDef
  | spendingRulesDef
  | reportingDef
  | electionDef
  | processDef
  | vacanciesDef
  | scenarioDef
  | namedConstructStatement
  | rangeStatement
  | rangeValue
  | endOfInput
  | ccl
deriving DecidableEq, Repr

namespace GrammarRule

abbrev PegExpr := Expr GrammarRule

def text (s : String) : PegExpr := .str s.toList

def asciiNonzeroDigit (c : Char) : Bool := c.isDigit && c ≠ '0'

def quoteOrBackslash : PegExpr := .choices [text "\"", text "\\"]

/-- Any character of a literal but a quote and a backslash. -/
def plainChar : PegExpr := .tie (.not quoteOrBackslash) .any

def escapeChar : PegExpr :=
  .choices [text "\"", text "\\", text "/", text "b", text "f", text "n", text "r", text "t"]

def commaSeparated (item : PegExpr) : PegExpr :=
  .opt (.tie item (.star (.tie (text ",") item)))

def keywordBlock (keyword : String) : PegExpr := .ties [text keyword, .call block]

def titledBlock (keyword : String) : PegExpr :=
  .ties [text keyword, .call stringLiteral, .call block]

def kind : GrammarRule → Kind
  | comment => .silent
  | whitespace => .silent
  | identifier => .atomic
  | stringLiteral => .compoundAtomic
  | innerString => .atomic
  | number => .atomic
  | duration => .atomic
  | pathIdentifier => .atomic
  | _ => .normal

def body : GrammarRule → PegExpr
  | comment => .tie (text "//") (.star (.tie (.not (text "\n")) .any))
  | whitespace =>
      .plus (.choices [text " ", text "\t", text "\r", text "\n", .call comment])
  | identifier =>
      .tie (.choices [.test Char.isAlpha, text "_"])
        (.star (.choices [.test Char.isAlphanum, text "_"]))
  | stringLiteral => .ties [text "\"", .call innerString, text "\""]
  | innerString =>
      .tie (.star plainChar) (.star (.tie (.tie (text "\\") escapeChar) (.star plainChar)))
  | number =>
      .ties [.opt (text "-"),
        .choices [text "0", .tie (.test asciiNonzeroDigit) (.star (.test Char.isDigit))],
        .opt (.tie (text ".") (.plus (.test Char.isDigit))),
        .opt (.ties [.test fun c => c = 'e' || c = 'E', .opt (.choices [text "+", text "-"]),
          .plus (.test Char.isDigit)])]
  | boolean => .choices [text "true", text "false"]
  | duration =>
      .tie (.plus (.test Char.isDigit)) (.choices [text "d", text "h", text "m", text "s"])
  | pathIdentifier => .tie (.call identifier) (.plus (.tie (text ".") (.call identifier)))
  | generalIdentifier => .choices [.call pathIdentifier, .call identifier]
  | functionCallArgs => commaSeparated (.call objectPair)
  | functionCall => .ties [.call identifier, text "(", .call functionCallArgs, text ")"]
  | value =>
      .choices [.call stringLiteral, .call duration, .call number, .call boolean,
        .call functionCall, .call array, .call object, .call rangeValue, .call generalIdentifier]
  | array => .ties [text "[", commaSeparated (.call value), .opt (text ","), text "]"]
  | object => .ties [text "\x7b", commaSeparated (.call objectPair), .opt (text ","), text "\x7d"]
  | objectPair =>
      .ties [.choices [.call stringLiteral, .call identifier], text ":", .call value]
  | block => .ties [text "\x7b", .star (.call statement), text "\x7d"]
  | comparisonOperand => .choices [.call generalIdentifier, .call value]
  | comparisonOperator =>
      .choices [text "==", text "!=", text ">", text "<", text ">=", text "<="]
  | comparisonExpression =>
      .ties [.call comparisonOperand, .call comparisonOperator, .call comparisonOperand]
  | ifStatement =>
      .ties [text "if", .call comparisonExpression, .call block,
        .opt (.tie (text "else") (.call block))]
  | functionCallStatement => .tie (.call functionCall) (text ";")
  | statement =>
      .choices [.call organizationDef, .call rolesDef, .call roleDef, .call governanceDef,
        .call membershipDef, .call actionsDef, .call actionDef, .call mintToken,
        .call anchorData, .call performMeteredAction, .call budgetDef, .call bylawsDef,
        .call allocationsDef, .call spendingRulesDef, .call reportingDef, .call electionDef,
        .call proposalDef, .call processDef, .call vacanciesDef, .call ifStatement,
        .call rangeStatement, .call functionCallStatement, .call scenarioDef,
        .call namedConstructStatement, .call anyStatement]
  | anyStatement =>
      .ties [.choices [.call identifier, .call stringLiteral],
        .opt (.choices [.call value, .call block, .call generalIdentifier]), text ";"]
  | organizationDef => titledBlock "organization"
  | rolesDef => keywordBlock "roles"
  | roleDef => titledBlock "role"
  | governanceDef => keywordBlock "governance"
  | proposalDef => titledBlock "proposal"
  | membershipDef => keywordBlock "membership"
  | actionsDef => keywordBlock "actions"
  | actionDef => titledBlock "on"
  | mintToken => keywordBlock "mint_token"
  | anchorData => keywordBlock "anchor_data"
  | performMeteredAction =>
      .ties [text "perform_metered_action", text "(", .call stringLiteral, text ",",
        .call identifier, text ".", .call identifier, text ",", .call number, text ")", text ";"]
  | budgetDef => titledBlock "budget"
  | bylawsDef =>
      .ties [text "bylaws_def", .call stringLiteral, text "version", .call stringLiteral,
        .call block]
  | allocationsDef => keywordBlock "allocations"
  | categoryDef => titledBlock "category"
  | spendingRulesDef => keywordBlock "spending_rules"
  | reportingDef => keywordBlock "reporting"
  | electionDef => titledBlock "election"
  | processDef => keywordBlock "process"
  | vacanciesDef => keywordBlock "vacancies"
  | scenarioDef => titledBlock "scenario"
  | namedConstructStatement => .ties [.call identifier, .call stringLiteral, .call block]
  | rangeStatement => .ties [text "range", .call number, .call number, .call block]
  | rangeValue => .ties [text "range", .call number, .call number, .call block]
  | endOfInput => .not .any
  -- The start of the input takes nothing.
  | ccl => .ties [.empty, .star (.call statement), .call endOfInput]

def skip : PegExpr :=
  .seq (.many (.call whitespace)) (.many (.seq (.call comment) (.many (.call whitespace))))

def nullable : GrammarRule → Bool
  | innerString => true
  | functionCallArgs => true
  | endOfInput => true
  | ccl => true
  | _ => false

def rank : GrammarRule → ℕ
  | whitespace => 1
  | pathIdentifier => 1
  | objectPair => 1
  | functionCall => 1
  | namedConstructStatement => 1
  | anyStatement => 1
  | generalIdentifier => 2
  | functionCallArgs => 2
  | functionCallStatement => 2
  | innerString => 3
  | number => 3
  | statement => 3
  | value => 4
  | ccl => 4
  | comparisonOperand => 5
  | comparisonExpression => 6
  | _ => 0

end GrammarRule

def cclGrammar : Grammar GrammarRule := ⟨GrammarRule.kind, GrammarRule.body, GrammarRule.skip⟩

def cclMeasure : Measure GrammarRule := ⟨GrammarRule.nullable, GrammarRule.rank, 2, 7⟩

theorem wellFormed_cclGrammar : WellFormed cclGrammar cclMeasure where
  nullable_body rule := by cases rule <;> decide
  guarded_body rule := by cases rule <;> decide
  guarded_skip := by decide
  rank_le rule := by cases rule <;> decide
  skipRank_le := by decide

theorem existsUnique_yields (rule : GrammarRule) (mode : Atomicity) (s : List Char) :
    ∃! outcome, Yields cclGrammar mode (.call rule) s outcome :=
  wellFormed_cclGrammar.existsUnique_yields (by cases rule <;> decide) mode s

end Ccl

end Icn

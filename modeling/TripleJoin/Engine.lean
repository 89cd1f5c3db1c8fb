import TripleJoin.Config
import TripleJoin.Pattern.Scope
import TripleJoin.Query
/-!
The engine matches patterns in a store. Every main pattern is a branch of a union, and the optional
clauses apply to each. All patterns are checked before anything is matched.
-/
namespace TripleJoin

structure Engine where
  store : Store
  config : Config

namespace Engine

def checkFrom (optionals : List Pattern) (branch : Nat) :
    List Pattern → Except ConfigurationError Unit
  | [] => .ok ()
  | pattern :: patterns => do
    if pattern.isEmpty then throw (.emptyPattern branch)
    pattern.checkScope optionals
    checkFrom optionals (branch + 1) patterns

/-- The first fault among the branches. -/
def check (patterns optionals : List Pattern) : Except ConfigurationError Unit :=
  if patterns.isEmpty then .error .noPatterns else checkFrom optionals 0 patterns

def buildBranch (engine : Engine) (optionals : List Pattern) (initial : List (Variable × Term))
    (branch : Nat) (pattern : Pattern) : Run QueryError Query := do
  let source := engine.store.toSource
  let matcher : Matcher := ⟨source, pattern.constraints, none⟩
  let before ← nodesSoFar
  let expanded ← matcher.expand (.withValues pattern.unbounds initial) pattern.statements
  let explored := (← nodesSoFar) - before
  let root ← match expanded with
    | none => pure none
    | some tree => some <$> tree.attach source optionals
  if engine.config.warnNodes < explored then
    report (.largeExpansion branch explored engine.config.warnNodes)
  report (.branchBuilt branch explored ((root.map Tree.nodeCount).getD 0) optionals.length
    root.isNone)
  return .tree root engine.store engine.config.nulls

/-- Adds the remaining branches to a union. -/
def buildFrom (engine : Engine) (optionals : List Pattern) (initial : List (Variable × Term))
    (built : Query) (branch : Nat) : List Pattern → Run QueryError Query
  | [] => pure built
  | pattern :: patterns => do
    let query ← engine.buildBranch optionals initial branch pattern
    engine.buildFrom optionals initial (built.union query) (branch + 1) patterns

/-- Matches the patterns, with some variables fixed beforehand. -/
def build (engine : Engine) (patterns optionals : List Pattern)
    (initial : List (Variable × Term)) : Run QueryError Query := do
  (Run.ofExcept (check patterns optionals)).adapt QueryError.configuration
  match patterns with
  | [] => throw (.configuration .noPatterns)
  | pattern :: patterns =>
    let query ← engine.buildBranch optionals initial 0 pattern
    engine.buildFrom optionals initial query 1 patterns

/-- Builds a query and selects from it. -/
def query (engine : Engine) (patterns optionals : List Pattern) (options : SelectOptions) :
    Run QueryError Table := do
  (← engine.build patterns optionals []).select options

end Engine

end TripleJoin

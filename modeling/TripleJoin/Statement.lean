import TripleJoin.Filter
/-!
Statements: triple patterns with an optional filter on what they match.
-/
namespace TripleJoin

structure Statement extends TriplePattern where
  filter : Option Filter

namespace Statement

def ofPattern (pattern : TriplePattern) : Statement := ⟨pattern, none⟩

/-- Replaces bound variables by their values and keeps the filter. -/
def substitute (statement : Statement) (binding : Binding) : Statement :=
  { statement with toTriplePattern := statement.toTriplePattern.substitute binding }

/-- Asks the filter, if there is one. -/
def accepts (statement : Statement) (triple : Triple) : Run CallbackError Bool :=
  match statement.filter with
  | none => pure true
  | some filter => filter.apply triple

end Statement

end TripleJoin

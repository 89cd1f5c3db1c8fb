import TripleJoin.Pattern
/-!
The scope rule for optional clauses: a variable that the main pattern lacks belongs to at most one
clause. A variable of the main pattern is inherited by every clause and is free to all.
-/
namespace TripleJoin

namespace Pattern

/-- The first clause that has the variable, counted from zero. -/
def owner? (clauses : List Pattern) (v : Variable) : Option Nat :=
  clauses.findIdx? fun clause => v ∈ clause.unbounds

/-- The fault that one variable of a clause makes after the earlier clauses. -/
def contest? (main : Pattern) (earlier : List Pattern) (v : Variable) :
    Option ConfigurationError :=
  if v ∈ main.unbounds then none
  else (owner? earlier v).map fun owner => .optionalScope v earlier.length owner

/-- The first fault among the variables of a clause. -/
def scopeFault? (main : Pattern) (earlier : List Pattern) (clause : Pattern) :
    Option ConfigurationError :=
  clause.unbounds.findSome? (contest? main earlier)

def checkScopeAfter (main : Pattern) (earlier : List Pattern) :
    List Pattern → Except ConfigurationError Unit
  | [] => .ok ()
  | clause :: later =>
    match scopeFault? main earlier clause with
    | some fault => .error fault
    | none => checkScopeAfter main (earlier ++ [clause]) later

/-- Checks the clauses in order and reports the first fault. -/
def checkScope (main : Pattern) (clauses : List Pattern) : Except ConfigurationError Unit :=
  checkScopeAfter main [] clauses

/-- No clause has a variable of another one that the main pattern lacks. -/
def WellScoped (main : Pattern) (clauses : List Pattern) : Prop :=
  clauses.Pairwise fun a b => ∀ v ∈ b.unbounds, v ∈ a.unbounds → v ∈ main.unbounds

end Pattern

end TripleJoin

import TripleJoin.TriplePattern
/-!
What can go wrong with a query, and how each fault is worded. No match is not a fault.
-/
namespace TripleJoin

/-- A filter or a constraint could not decide. -/
structure CallbackError where
  message : String
  deriving DecidableEq

/-- A store could not answer a request. -/
structure StoreError where
  message : String
  deriving DecidableEq

/-- A query that is malformed, whatever the store holds. Branches and clauses are counted
    from zero. -/
inductive ConfigurationError where
  | noPatterns
  | emptyPattern (branch : Nat)
  | optionalScope (v : Variable) (clause earlier : Nat)
  | invalidVariable (text : String)
  | directionCount (keys directions : Nat)
  | emptyOrder
  deriving DecidableEq

inductive EvaluationError where
  | filter (pattern : TriplePattern) (cause : CallbackError)
  | constraint (cause : CallbackError)
  deriving DecidableEq

inductive QueryError where
  | configuration (error : ConfigurationError)
  | evaluation (error : EvaluationError)
  | store (error : StoreError)
  deriving DecidableEq

def ConfigurationError.message : ConfigurationError → String
  | noPatterns => "at least one graph pattern is required"
  | emptyPattern branch => "graph pattern " ++ toString branch ++ " has no statements"
  | optionalScope v clause earlier =>
    "variable " ++ v.text ++ " in optional clause " ++ toString clause ++
      " is already introduced by optional clause " ++ toString earlier
  | invalidVariable text => "invalid variable name: " ++ Text.quoted text
  | directionCount keys directions =>
    "order direction count (" ++ toString directions ++ ") does not match order key count (" ++
      toString keys ++ ")"
  | emptyOrder => "order by requires at least one key"

namespace EvaluationError

def cause : EvaluationError → CallbackError
  | filter _ cause => cause
  | constraint cause => cause

def message : EvaluationError → String
  | filter pattern cause => "filter on " ++ pattern.text ++ " failed: " ++ cause.message
  | constraint cause => "constraint failed: " ++ cause.message

end EvaluationError

namespace QueryError

def message : QueryError → String
  | configuration error => "configuration error: " ++ error.message
  | evaluation error => "evaluation error: " ++ error.message
  | store error => "store error: " ++ error.message

/-- The wordings of what the error rests on, nearest first. -/
def causes : QueryError → List String
  | configuration error => [error.message]
  | evaluation error => [error.message, error.cause.message]
  | store error => [error.message]

end QueryError

end TripleJoin

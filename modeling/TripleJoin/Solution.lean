import TripleJoin.Distinct
import TripleJoin.Term.Order
import TripleJoin.Selection
import TripleJoin.Sorting
/-!
Solutions: their columns, their order and the table that a selection makes of them.
-/
namespace TripleJoin

/-- A projected row. A single column shows its value bare. -/
inductive Row where
  | value (term : Option Term)
  | tuple (terms : List (Option Term))
  deriving DecidableEq, Hashable

namespace Row

def ofList : List (Option Term) → Row
  | [term] => .value term
  | terms => .tuple terms

/-- The values that are set, in column order. -/
def values : Row → List Term
  | value term => term.toList
  | tuple terms => terms.filterMap id

end Row

/-- The result of a selection. -/
structure Table where
  columns : List Variable
  rows : List Row
  deriving DecidableEq

def Table.values (table : Table) : List Term := table.rows.flatMap Row.values

namespace Binding

/-- A column without a value is left unset. -/
def project (solution : Binding) (columns : List Variable) : Row :=
  Row.ofList (columns.map solution.get?)

end Binding

namespace NullOrdering

/-- Places unbound values; two bound ones are for the comparison to decide. -/
def compare (nulls : NullOrdering) (values : Term → Term → Ordering) :
    Option Term → Option Term → Ordering
  | none, none => .eq
  | none, some _ => match nulls with
    | first => .lt
    | last => .gt
  | some _, none => match nulls with
    | first => .gt
    | last => .lt
  | some a, some b => values a b

end NullOrdering

def Direction.compare (direction : Direction) (a b : Term) : Ordering :=
  match direction with
  | ascending => a.compare b
  | descending => b.compare a

namespace Solution

/-- The variables of the solutions, each at its first appearance. -/
def heading (solutions : List Binding) : List Variable :=
  distinct (solutions.flatMap Binding.keys)

/-- Compares by the first key on which two solutions differ. -/
def compareBy (nulls : NullOrdering) : List (Variable × Direction) → Binding → Binding → Ordering
  | [], _, _ => .eq
  | (v, direction) :: keys, a, b =>
    (nulls.compare direction.compare (a.get? v) (b.get? v)).then (compareBy nulls keys a b)

/-- How an ordering compares two solutions. -/
def comparison (nulls : NullOrdering) :
    OrderBy → Except ConfigurationError (Binding → Binding → Ordering)
  | .comparator compare => .ok compare
  | columns => columns.keyed.map fun keys => compareBy nulls (keys.getD [])

def order (nulls : NullOrdering) (orderBy : Option OrderBy) (solutions : List Binding) :
    Except ConfigurationError (List Binding) :=
  match orderBy with
  | none => .ok solutions
  | some chosen => (comparison nulls chosen).map fun compare => Sorting.sort compare solutions

/-- Orders whole solutions, projects them, drops repeated rows and cuts out a slice, in this order.
    A selection of everything takes its columns from the ordered solutions. -/
def arrange (nulls : NullOrdering) (options : SelectOptions) (solutions : List Binding) :
    Except ConfigurationError Table :=
  (order nulls options.orderBy solutions).map fun ordered =>
    let columns := match options.selection with
      | .all => heading ordered
      | .columns columns => columns
    let rows := ordered.map fun solution => solution.project columns
    let kept := (if options.distinct then distinct rows else rows).drop options.offset
    ⟨columns, match options.limit with
      | none => kept
      | some limit => kept.take limit⟩

end Solution

end TripleJoin

import TripleJoin.Query
import TripleJoin.Text.Outline
/-!
How terms, patterns, orderings and queries are outlined. Functions are opaque: of a filter, a
constraint or a comparator only the type shows.
-/
namespace TripleJoin

open Text (Outline)

def outlineOfText (text : Option String) : Outline := .ofOption (text.map .text)

def Literal.outline (literal : Literal) : Outline :=
  .record "Literal" [("lexical", .text literal.lexical),
    ("datatype", outlineOfText literal.datatype),
    ("language", outlineOfText literal.language)] false

def Term.outline : Term → Outline
  | .iri text => .variant "Iri" [.text text]
  | .blank label => .variant "BlankNode" [.text label]
  | .literal value => .variant "Literal" [value.outline]

def Triple.outline (triple : Triple) : Outline :=
  .record "Triple" [("subject", triple.subject.outline), ("predicate", triple.predicate.outline),
    ("object", triple.object.outline)] false

def Variable.outline (v : Variable) : Outline :=
  .record "Variable" [("name", .text v.name)] false

def Slot.outline : Slot → Outline
  | .fixed term => .variant "Term" [term.outline]
  | .free v => .variant "Variable" [v.outline]

def Filter.outline (_ : Filter) : Outline := .hidden "StatementFilter"

def Constraint.outline (_ : Constraint) : Outline := .hidden "Constraint"

def Statement.outline (statement : Statement) : Outline :=
  .record "StatementPattern" [("subject", statement.subject.outline),
    ("predicate", statement.predicate.outline), ("object", statement.object.outline),
    ("filter", .ofOption (statement.filter.map Filter.outline))] false

def Direction.outline : Direction → Outline
  | .ascending => .variant "Ascending" []
  | .descending => .variant "Descending" []

def OrderBy.outline : OrderBy → Outline
  | .columns keys directions =>
    .record "Columns" [("keys", .list (keys.map Variable.outline)),
      ("directions", .ofOption (directions.map fun list => .list (list.map Direction.outline)))]
      false
  | .comparator _ => .hidden "Comparator"

def Binding.outline (binding : Binding) : Outline :=
  .record "Binding" [("entries", .list (binding.entries.map fun entry =>
    .tuple [entry.1.outline, .ofOption (entry.2.map Term.outline)]))] false

namespace Tree

def outlineNode (binding : Binding) (matched : Option Triple) (children optionals : List Outline)
    (bound : Bool) : Outline :=
  .record "ExpansionNode" [("binding", binding.outline),
    ("matched", .ofOption (matched.map Triple.outline)), ("children", .list children),
    ("optional_trees", .list optionals), ("bound", .flag bound)] false

mutual

def outline : Tree → Outline
  | inner binding matched children =>
    outlineNode binding matched (outlineAll children) [] false
  | leaf binding matched optionals =>
    outlineNode binding matched [] (outlineAll optionals) binding.isComplete

def outlineAll : List Tree → List Outline
  | [] => []
  | tree :: trees => outline tree :: outlineAll trees

end

end Tree

def NullOrdering.outline : NullOrdering → Outline
  | .first => .variant "First" []
  | .last => .variant "Last" []

def Query.outline : Query → Outline
  | .tree root _ nulls =>
    .record "Query" [("root", .ofOption (root.map Tree.outline)), ("null_ordering", nulls.outline)]
      true
  | .union first second => .variant "Union" [first.outline, second.outline]

end TripleJoin

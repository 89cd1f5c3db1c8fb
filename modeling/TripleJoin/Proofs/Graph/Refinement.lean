import TripleJoin.Proofs.Distinct
import TripleJoin.Proofs.Graph.Matching
/-!
Graphs as lists. Whatever the operations on graphs make is a list of distinct triples, namely the
triples in the order in which they were first put in, and every look at a graph is a look at its
list. The hash set and the three indexes never show.
-/
namespace TripleJoin

namespace Graph

variable (graph other : Graph)

theorem insert_new {triple : Triple} :
    (graph.insert triple).1 = true ↔ triple ∉ graph.toList := by
  rw [insert_fst, Bool.not_eq_true', ← Bool.not_eq_true, contains_iff]

theorem toList_ofList_of_nodup {triples : List Triple} (distinct : triples.Nodup) :
    (ofList triples).toList = triples := by
  rw [toList_ofList, foldl_addNew_of_nodup distinct]

theorem toList_copy : graph.copy.toList = graph.toList :=
  toList_ofList_of_nodup graph.toList_nodup

theorem toList_union : (graph.union other).toList =
    graph.toList ++ other.toList.filter (· ∉ graph.toList) := by
  have later := foldl_addNew_append graph.toList [] other.toList
  rw [List.append_nil, foldl_addNew_of_nodup (other.toList_nodup.filter _)] at later
  rw [union, toList_extend, later]

theorem toList_intersection : (graph.intersection other).toList =
    graph.toList.filter (· ∈ other.toList) := by
  rw [intersection, toList_ofList_of_nodup (graph.toList_nodup.filter _)]
  apply List.filter_congr
  intro triple _
  rw [Bool.eq_iff_iff, contains_iff, decide_eq_true_eq]

theorem toList_difference : (graph.difference other).toList =
    graph.toList.filter (· ∉ other.toList) := by
  rw [difference, toList_ofList_of_nodup (graph.toList_nodup.filter _)]
  apply List.filter_congr
  intro triple _
  rw [Bool.eq_iff_iff, Bool.not_eq_true', ← Bool.not_eq_true, contains_iff, decide_eq_true_eq]

theorem admits_iff {request : Request} {triple : Triple} : request.admits triple = true ↔
    ∀ position term, request.get position = some term → triple.get position = term := by
  constructor
  · intro met position term given
    exact Request.get_eq_of_admits met given
  · intro components
    obtain ⟨subject, predicate, object⟩ := request
    have first := components .subject
    have second := components .predicate
    have third := components .object
    simp only [Request.get, Triple.get] at first second third
    simp only [Request.admits, Bool.and_eq_true, Option.all_eq_true, decide_eq_true_eq]
    exact ⟨⟨fun term given => (first term given).symm, fun term given => (second term given).symm⟩,
      fun term given => (third term given).symm⟩

/-- All that can be seen of the graph is what this list of distinct triples shows. -/
structure Refines (held : List Triple) : Prop where
  listed : graph.toList = held
  distinct : held.Nodup
  size : graph.size = held.length
  isEmpty : graph.isEmpty = held.isEmpty
  contains : ∀ triple, graph.contains triple = true ↔ triple ∈ held
  inserts : ∀ triple, (graph.insert triple).1 = true ↔ triple ∉ held
  inserted : ∀ triple, (graph.insert triple).2.toList =
    if triple ∈ held then held else held ++ [triple]
  answers_in_order : ∀ request, (graph.matching request).Sublist held
  answers : ∀ request triple, triple ∈ graph.matching request ↔ triple ∈ held ∧
    ∀ position term, request.get position = some term → triple.get position = term

theorem refines_toList : graph.Refines graph.toList where
  listed := rfl
  distinct := graph.toList_nodup
  size := Array.length_toList.symm
  isEmpty := Array.isEmpty_toList.symm
  contains _ := contains_iff
  inserts _ := graph.insert_new
  inserted := graph.toList_insert
  answers_in_order request := by
    rw [matching_eq_filter]
    exact List.filter_sublist
  answers request triple := by
    rw [matching_eq_filter, List.mem_filter, admits_iff]

/-- The ways to make a graph. -/
inductive Expr where
  | empty
  | insert (graph : Expr) (triple : Triple)
  | extend (graph : Expr) (triples : List Triple)
  | collect (triples : List Triple)
  | copy (graph : Expr)
  | union (first second : Expr)
  | intersection (first second : Expr)
  | difference (first second : Expr)

namespace Expr

def eval : Expr → Graph
  | empty => .empty
  | insert graph triple => (graph.eval.insert triple).2
  | extend graph triples => graph.eval.extend triples
  | collect triples => .ofList triples
  | copy graph => graph.eval.copy
  | union first second => first.eval.union second.eval
  | intersection first second => first.eval.intersection second.eval
  | difference first second => first.eval.difference second.eval

/-- The triples that are put in, in order and with repetitions. -/
def history : Expr → List Triple
  | empty => []
  | insert graph triple => graph.history ++ [triple]
  | extend graph triples => graph.history ++ triples
  | collect triples => triples
  | copy graph => graph.history
  | union first second => first.history ++ second.history
  | intersection first second => first.history.filter (· ∈ second.history)
  | difference first second => first.history.filter (· ∉ second.history)

/-- The distinct triples of the history, each at its first place. -/
def firsts (expr : Expr) : List Triple := expr.history.eraseDups

theorem firsts_eq (expr : Expr) : expr.firsts = expr.history.foldl addNew [] :=
  (foldl_addNew_eq_eraseDups expr.history).symm

theorem mem_firsts {expr : Expr} {triple : Triple} :
    triple ∈ expr.firsts ↔ triple ∈ expr.history :=
  List.mem_eraseDups

/-- A graph holds the triples of its history, each where it was first put in. -/
theorem toList_eval (expr : Expr) : expr.eval.toList = expr.firsts := by
  induction expr with
  | empty => rfl
  | insert graph triple ih =>
    simp only [eval, toList_insert, ih, firsts_eq, history, List.foldl_append, List.foldl_cons,
      List.foldl_nil, addNew]
  | extend graph triples ih =>
    simp only [eval, toList_extend, ih, firsts_eq, history, List.foldl_append]
  | collect triples => simp only [eval, toList_ofList, firsts_eq, history]
  | copy graph ih => simp only [eval, toList_copy, ih, firsts, history]
  | union first second ih ih' =>
    simp only [eval, toList_union, ih, ih', firsts, history, List.eraseDups_append, List.removeAll,
      eraseDups_filter, List.mem_eraseDups, List.elem_eq_mem, decide_not]
  | intersection first second ih ih' =>
    simp only [eval, toList_intersection, ih, ih', mem_firsts]
    exact (eraseDups_filter _ first.history).symm
  | difference first second ih ih' =>
    simp only [eval, toList_difference, ih, ih', mem_firsts]
    exact (eraseDups_filter _ first.history).symm

/-- A graph is the list of its distinct triples in the order of their first insertion: every look-up
    answers from this list, and operations on two graphs are operations on two such lists. -/
theorem eval_refines (expr : Expr) :
    expr.eval.Refines expr.firsts ∧ ∀ other : Expr,
      (expr.eval.union other.eval).toList =
        expr.firsts ++ other.firsts.filter (· ∉ expr.firsts) ∧
      (expr.eval.intersection other.eval).toList = expr.firsts.filter (· ∈ other.firsts) ∧
      (expr.eval.difference other.eval).toList = expr.firsts.filter (· ∉ other.firsts) := by
  constructor
  · rw [← toList_eval]
    exact expr.eval.refines_toList
  · intro other
    rw [← toList_eval, ← toList_eval]
    exact ⟨toList_union _ _, toList_intersection _ _, toList_difference _ _⟩

end Expr

end Graph

end TripleJoin

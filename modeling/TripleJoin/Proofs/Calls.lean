import Mathlib.Algebra.GroupWithZero.Nat
import TripleJoin.Proofs.Matcher.Growth
/-!
The calls of a run: the requests to a store and the questions to filters and constraints, in order.
Calls are made one after the other until one of them fails; what was made is then known, and where
the journal keeps it.
-/
namespace TripleJoin

inductive Call where
  | request (request : Request)
  /-- The filter of a statement that has the known values in place. -/
  | filter (pattern : TriplePattern) (filter : Filter) (triple : Triple)
  /-- A constraint at a place of its list, with the binding that it sees. -/
  | constraint (constraint : Constraint) (index : Nat) (binding : Binding)

/-- What went wrong, if something did. -/
def faultOf {ε α : Type} : Except ε α → Option ε
  | .ok _ => none
  | .error error => some error

namespace Call

def isRequest : Call → Bool
  | .request _ => true
  | _ => false

def entry (source : Source) : Call → Entry
  | .request wanted => .request source.name wanted source.watched
  | .filter _ test triple => .filter triple test.watched
  | .constraint rule index binding => .constraint index binding rule.watched

/-- The error of the call, if it fails when the source was asked so often before. -/
def error? (source : Source) (answers : Request → List Triple) (asked : Nat) :
    Call → Option QueryError
  | .request wanted => (faultOf (source.answer asked wanted)).map .store
  | .filter pattern test triple =>
    (faultOf (test.check triple)).map fun cause => .evaluation (.filter pattern cause)
  | .constraint rule _ binding =>
    (faultOf ((rule.decide binding).outcome answers)).map fun cause =>
      .evaluation (.constraint cause)

def requests (calls : List Call) : Nat := calls.countP isRequest

/-- The calls up to and with the first that fails, and its error. -/
def performed (source : Source) (answers : Request → List Triple) (asked : Nat) :
    List Call → List Call × Option QueryError
  | [] => ([], none)
  | call :: calls =>
    match call.error? source answers asked with
    | some error => ([call], some error)
    | none =>
      let rest := performed source answers (asked + requests [call]) calls
      (call :: rest.1, rest.2)

/-- The call at this place fails, once those before it were made. -/
def FailsAt (source : Source) (answers : Request → List Triple) (asked : Nat) (calls : List Call)
    (place : Nat) (error : QueryError) : Prop :=
  ∃ call ∈ calls[place]?,
    call.error? source answers (asked + requests (calls.take place)) = some error

structure FirstFails (source : Source) (answers : Request → List Triple) (asked : Nat)
    (calls : List Call) (place : Nat) (error : QueryError) : Prop where
  fails : FailsAt source answers asked calls place error
  least : ∀ i < place, ∀ cause, ¬ FailsAt source answers asked calls i cause

section

variable {source : Source} {answers : Request → List Triple} {asked : Nat} {call : Call}
  {calls more : List Call} {error : QueryError}

theorem requests_append (calls more : List Call) :
    requests (calls ++ more) = requests calls + requests more :=
  List.countP_append

theorem requests_flatMap {α : Type} (xs : List α) (callsOf : α → List Call) :
    requests (xs.flatMap callsOf) = (xs.map fun x => requests (callsOf x)).sum :=
  List.countP_flatMap

theorem requests_cons (call : Call) (calls : List Call) :
    requests (call :: calls) = requests [call] + requests calls :=
  requests_append [call] calls

theorem performed_cons_of_error (fails : call.error? source answers asked = some error) :
    performed source answers asked (call :: calls) = ([call], some error) := by
  rw [performed, fails]

theorem performed_cons_of_none (fine : call.error? source answers asked = none) :
    performed source answers asked (call :: calls) =
      (call :: (performed source answers (asked + requests [call]) calls).1,
        (performed source answers (asked + requests [call]) calls).2) := by
  rw [performed, fine]

theorem performed_of_none (fine : (performed source answers asked calls).2 = none) :
    performed source answers asked calls = (calls, none) := by
  induction calls generalizing asked with
  | nil => rfl
  | cons call calls ih =>
    cases here : call.error? source answers asked with
    | some error =>
      rw [performed_cons_of_error here] at fine
      cases fine
    | none =>
      rw [performed_cons_of_none here] at fine ⊢
      rw [ih fine]

theorem performed_append_of_some
    (fails : (performed source answers asked calls).2 = some error) :
    performed source answers asked (calls ++ more) = performed source answers asked calls := by
  induction calls generalizing asked with
  | nil => cases fails
  | cons call calls ih =>
    rw [List.cons_append]
    cases here : call.error? source answers asked with
    | some cause => rw [performed_cons_of_error here, performed_cons_of_error here]
    | none =>
      rw [performed_cons_of_none here] at fails
      rw [performed_cons_of_none here, performed_cons_of_none here, ih fails]

theorem performed_append_of_none (fine : (performed source answers asked calls).2 = none) :
    performed source answers asked (calls ++ more) =
      (calls ++ (performed source answers (asked + requests calls) more).1,
        (performed source answers (asked + requests calls) more).2) := by
  induction calls generalizing asked with
  | nil => rfl
  | cons call calls ih =>
    cases here : call.error? source answers asked with
    | some cause =>
      rw [performed_cons_of_error here] at fine
      cases fine
    | none =>
      rw [performed_cons_of_none here] at fine
      rw [List.cons_append, performed_cons_of_none here, ih fine, requests_cons call calls,
        Nat.add_assoc]
      rfl

theorem error?_eq_of_answers (steady : source.Answers answers) (asked asked' : Nat) (call : Call) :
    call.error? source answers asked = call.error? source answers asked' := by
  cases call with
  | request wanted => rw [error?, error?, steady, steady]
  | filter pattern test triple => rfl
  | constraint rule index binding => rfl

/-- If the source always gives the same answers, it does not matter how often it was asked before. -/
theorem performed_eq_of_answers (steady : source.Answers answers) (asked asked' : Nat)
    (calls : List Call) :
    performed source answers asked calls = performed source answers asked' calls := by
  induction calls generalizing asked asked' with
  | nil => rfl
  | cons call calls ih =>
    rw [performed, performed, error?_eq_of_answers steady asked asked' call,
      ih (asked + requests [call]) (asked' + requests [call])]

theorem failsAt_succ_iff {place : Nat} :
    FailsAt source answers asked (call :: calls) (place + 1) error ↔
      FailsAt source answers (asked + requests [call]) calls place error := by
  unfold FailsAt
  rw [List.take_succ_cons, requests_cons call, Nat.add_assoc]
  rfl

theorem performed_of_faultless
    (fine : ∀ place error, ¬ FailsAt source answers asked calls place error) :
    performed source answers asked calls = (calls, none) := by
  induction calls generalizing asked with
  | nil => rfl
  | cons call calls ih =>
    have here : call.error? source answers asked = none := by
      refine Option.eq_none_iff_forall_ne_some.mpr fun error fails => ?_
      exact fine 0 error ⟨call, rfl, fails⟩
    rw [performed_cons_of_none here, ih fun place error fails =>
      fine (place + 1) error (failsAt_succ_iff.mpr fails)]

theorem FailsAt.exists_first {place : Nat}
    (fails : FailsAt source answers asked calls place error) :
    ∃ first cause, FirstFails source answers asked calls first cause := by
  induction place using Nat.strongRecOn generalizing error with
  | ind place ih =>
    by_cases least : ∀ i < place, ∀ cause, ¬ FailsAt source answers asked calls i cause
    · exact ⟨place, error, fails, least⟩
    · simp only [Classical.not_forall, Classical.not_not] at least
      obtain ⟨i, before, cause, earlier⟩ := least
      exact ih i before earlier

theorem faultless_or_first :
    (∀ place error, ¬ FailsAt source answers asked calls place error) ∨
      ∃ place error, FirstFails source answers asked calls place error := by
  by_cases fine : ∀ place error, ¬ FailsAt source answers asked calls place error
  · exact Or.inl fine
  · simp only [Classical.not_forall, Classical.not_not] at fine
    obtain ⟨place, error, fails⟩ := fine
    exact Or.inr fails.exists_first

theorem FirstFails.performed_eq {place : Nat}
    (first : FirstFails source answers asked calls place error) :
    performed source answers asked calls = (calls.take (place + 1), some error) := by
  induction calls generalizing asked place with
  | nil =>
    obtain ⟨_, found, _⟩ := first.fails
    cases found
  | cons call calls ih =>
    cases place with
    | zero =>
      obtain ⟨_, found, fails⟩ := first.fails
      cases found
      exact performed_cons_of_error fails
    | succ place =>
      have here : call.error? source answers asked = none := by
        refine Option.eq_none_iff_forall_ne_some.mpr fun cause fails => ?_
        exact first.least 0 (Nat.succ_pos place) cause ⟨call, rfl, fails⟩
      have later : FirstFails source answers (asked + requests [call]) calls place error :=
        ⟨failsAt_succ_iff.mp first.fails, fun i before cause fails =>
          first.least (i + 1) (Nat.succ_lt_succ before) cause (failsAt_succ_iff.mpr fails)⟩
      rw [performed_cons_of_none here, ih later, List.take_succ_cons]

theorem firstFails_of_performed {made : List Call}
    (ends : performed source answers asked calls = (made, some error)) :
    FirstFails source answers asked calls (made.length - 1) error := by
  obtain fine | ⟨place, cause, first⟩ := faultless_or_first
  · rw [performed_of_faultless fine] at ends
    cases ends
  · obtain ⟨call, found, _⟩ := first.fails
    have inside := (List.getElem?_eq_some_iff.mp found).1
    have last : (calls.take (place + 1)).length - 1 = place := by
      rw [List.length_take]
      omega
    rw [first.performed_eq] at ends
    cases ends
    rw [last]
    exact first

end

end Call

def Entry.isCall : Entry → Bool
  | .event _ => false
  | _ => true

namespace Journal

/-- The entries that are calls, in order. -/
def calls (journal : Journal) : List Entry := journal.entries.toList.filter Entry.isCall

/-- After these calls the journal is the second one, up to events and counts of nodes. -/
structure Adds (source : Source) (before : Journal) (made : List Call) (after : Journal) :
    Prop where
  calls : after.calls = before.calls ++ made.map (Call.entry source)
  asked : after.callsTo source.name = before.callsTo source.name + Call.requests made

section

variable {source : Source} {before middle after : Journal} {made more : List Call}

theorem Adds.trans (first : before.Adds source made middle)
    (second : middle.Adds source more after) : before.Adds source (made ++ more) after := by
  constructor
  · rw [second.calls, first.calls, List.map_append, List.append_assoc]
  · rw [second.asked, first.asked, Call.requests_append, Nat.add_assoc]

theorem calls_record (journal : Journal) (entry : Entry) :
    (journal.record entry).calls = journal.calls ++ [entry].filter Entry.isCall := by
  rw [calls, record, Array.toList_push, List.filter_append]
  rfl

theorem adds_recordRequest (journal : Journal) (request : Request) :
    journal.Adds source [.request request]
      (journal.recordRequest source.name request source.watched) := by
  constructor
  · rw [calls, recordRequest, Array.toList_push, List.filter_append]
    rfl
  · exact Std.HashMap.getD_insert_self

end

end Journal

end TripleJoin

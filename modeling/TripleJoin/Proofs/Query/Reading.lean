import TripleJoin.Proofs.Logs
import TripleJoin.Query.Cluster
/-!
Reading a query. Selecting, constructing and walking write events, and walks ask the store; whatever
the store answers and however they end, they call no filter and no constraint.
-/
namespace TripleJoin

/-- Whether the entry is a call of a filter or a constraint. -/
def Entry.isCallback : Entry → Bool
  | .filter .. => true
  | .constraint .. => true
  | _ => false

open Run

theorem Source.omits_draw (source : Source) (request : Request) :
    Omits Entry.isCallback (source.draw request) :=
  Journal.only_recordRequest rfl

theorem Walk.omits_visit (store : Store) (sense : Sense) (state : State) :
    Omits Entry.isCallback (visit store sense state) := by
  induction state using visit.induct store sense with
  | case1 reached =>
    rw [visit]
    exact omits_pure _
  | case2 node pending reached ih =>
    rw [visit]
    refine (Source.omits_draw _ _).bind fun answer => ?_
    cases answer with
    | error error => exact omits_pure _
    | ok answers => exact ih answers

namespace Query

theorem omits_select (query : Query) (options : SelectOptions) :
    Omits Entry.isCallback (query.select options).run :=
  omits_bind (omits_adapt (omits_pure _) _) fun _ =>
    omits_after_step (omits_note rfl) fun _ => omits_pure _

theorem omits_construct (query : Query) (template : Option Pattern) (call : UInt64) :
    Omits Entry.isCallback (query.construct template call) :=
  (omits_note rfl).bind fun _ => omits_pure _

theorem omits_collectFrom (store : Store) (sense : Walk.Sense) (reached : Graph)
    (seeds : List Term) : Omits Entry.isCallback (collectFrom store sense reached seeds).run := by
  induction seeds generalizing reached with
  | nil => exact omits_pure _
  | cons seed seeds ih =>
    refine omits_after_step (Walk.omits_visit store sense _) fun outcome => ?_
    cases outcome.failure with
    | some error => exact omits_pure _
    | none => exact ih outcome.reached

theorem omits_walk (query : Query) (sense : Walk.Sense) (selection : Selection) :
    Omits Entry.isCallback (query.walk sense selection).run := by
  induction query with
  | tree root store nulls =>
    refine omits_bind (omits_select _ _) fun table => ?_
    refine omits_bind (omits_collectFrom _ _ _ _) fun reached => ?_
    exact omits_after_step (omits_note rfl) fun _ => omits_pure _
  | union first second ih ih' =>
    exact omits_bind ih fun _ => omits_bind ih' fun _ => omits_pure _

theorem omits_cluster (query : Query) (selection : Selection) :
    Omits Entry.isCallback (query.cluster selection).run :=
  omits_bind (query.omits_walk _ _) fun _ => omits_bind (query.omits_walk _ _) fun _ =>
    omits_pure _

/-- Reading the query calls no filter and no constraint. -/
structure CallsNothing (query : Query) : Prop where
  select : ∀ options, Omits Entry.isCallback (query.select options).run
  construct : ∀ template call, Omits Entry.isCallback (query.construct template call)
  walk : ∀ sense selection, Omits Entry.isCallback (query.walk sense selection).run
  cluster : ∀ selection, Omits Entry.isCallback (query.cluster selection).run
  describe : ∀ selection forward backward,
    Omits Entry.isCallback (query.describe selection forward backward).run

theorem callsNothing (query : Query) : query.CallsNothing where
  select := query.omits_select
  construct := query.omits_construct
  walk := query.omits_walk
  cluster := query.omits_cluster
  describe selection forward backward := by
    cases forward <;> cases backward
    · exact omits_pure _
    · exact query.omits_walk _ _
    · exact query.omits_walk _ _
    · exact query.omits_cluster _

end Query

end TripleJoin

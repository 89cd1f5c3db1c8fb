import TripleJoin.Proofs.Calls
import TripleJoin.Proofs.Logs
/-!
Runs that make calls. Such a run makes its calls one after the other and ends with its result, unless
one of them fails: then it ends with the error of the first that does and makes none of the later
ones. What it yields, asks and visits if nothing fails, and all that it can come to if it succeeds,
is read off its calls.
-/
namespace TripleJoin

/-- The source gives these answers as long as it does not fail. -/
def Source.AnswersOrFails (source : Source) (answers : Request → List Triple) : Prop :=
  ∀ earlier request triples, source.answer earlier request = .ok triples →
    triples = answers request

theorem Source.Answers.answersOrFails {source : Source} {answers : Request → List Triple}
    (steady : source.Answers answers) : source.AnswersOrFails answers := by
  intro earlier request triples answered
  rw [steady] at answered
  exact (Except.ok.inj answered).symm

theorem Store.answersOrFails_failingFrom {store : Store} {answers : Request → List Triple}
    (answered : store.AnswersOrFails answers) (n : Nat) (message : String) :
    (store.failingFrom n message).AnswersOrFails answers := by
  intro earlier request triples found
  change (if n ≤ earlier + 1 then _ else _) = _ at found
  split at found
  · cases found
  · exact answered earlier request triples found

/-- A partial match that expansion visits: the statements that remain, and the binding so far. -/
structure Visit where
  remaining : List Statement
  binding : Binding

def Entry.isQuestion : Entry → Bool
  | .constraint .. => true
  | _ => false

namespace Call

/-- The call reads nothing of the store, or is a plain request to it. -/
def Silent : Call → Prop
  | .constraint rule _ binding => (rule.decide binding).Silent
  | _ => True

/-- The call does not fail, whenever it is made. -/
def Fine (source : Source) (answers : Request → List Triple) (call : Call) : Prop :=
  ∀ asked, call.error? source answers asked = none

/-- No constraint can meet a failure of the source: it always answers, or they do not ask it. -/
def Settled (source : Source) (answers : Request → List Triple) (calls : List Call) : Prop :=
  source.Answers answers ∨ ∀ call ∈ calls, call.Silent

variable {source : Source} {answers : Request → List Triple} {calls more : List Call}

theorem settled_nil : Settled source answers [] := Or.inr (List.forall_mem_nil _)

theorem Settled.of_append (settled : Settled source answers (calls ++ more)) :
    Settled source answers calls ∧ Settled source answers more := by
  rcases settled with steady | silent
  · exact ⟨Or.inl steady, Or.inl steady⟩
  · obtain ⟨here, later⟩ := List.forall_mem_append.mp silent
    exact ⟨Or.inr here, Or.inr later⟩

theorem performed_of_fine (fine : ∀ call ∈ calls, call.Fine source answers) (asked : Nat) :
    performed source answers asked calls = (calls, none) := by
  refine performed_of_faultless fun place error => ?_
  rintro ⟨call, found, fails⟩
  rw [fine call (List.mem_of_getElem? found)] at fails
  cases fails

end Call

namespace Journal

/-- The journal after these calls. If the constraints among them ask nothing, all calls are known, and
    the questions to constraints are known in any case. -/
structure Records (source : Source) (before : Journal) (made : List Call) (after : Journal) :
    Prop where
  adds : (∀ call ∈ made, call.Silent) → before.Adds source made after
  questions : after.only Entry.isQuestion =
    before.only Entry.isQuestion ++ (made.map (Call.entry source)).filter Entry.isQuestion

variable {source : Source} {before middle after : Journal} {made more : List Call}

theorem only_isQuestion (journal : Journal) :
    journal.only Entry.isQuestion = journal.calls.filter Entry.isQuestion := by
  rw [calls, List.filter_filter]
  refine List.filter_congr fun entry _ => ?_
  cases entry <;> rfl

theorem Adds.records (adds : before.Adds source made after) :
    before.Records source made after := by
  refine ⟨fun _ => adds, ?_⟩
  rw [only_isQuestion, adds.calls, List.filter_append, only_isQuestion]

theorem Records.trans (first : before.Records source made middle)
    (second : middle.Records source more after) : before.Records source (made ++ more) after := by
  constructor
  · intro silent
    obtain ⟨here, later⟩ := List.forall_mem_append.mp silent
    exact (first.adds here).trans (second.adds later)
  · rw [second.questions, first.questions, List.map_append, List.filter_append, List.append_assoc]

/-- Nothing is called and no node is made. -/
def Rests (source : Source) (before after : Journal) : Prop :=
  before.Adds source [] after ∧ after.nodes = before.nodes

theorem rests_report (event : Event) (journal : Journal) :
    journal.Rests source ((report event).run journal).2 :=
  ⟨⟨calls_record journal (.event event), rfl⟩, rfl⟩

theorem rests_nodesSoFar (journal : Journal) :
    journal.Rests source (nodesSoFar.run journal).2 :=
  ⟨⟨(List.append_nil _).symm, rfl⟩, rfl⟩

end Journal

namespace Run

variable {α β : Type}

/-- The run makes these calls one after the other, as long as none fails, and if none does it makes
    a node for each of the visits. -/
def Makes (source : Source) (answers : Request → List Triple) (run : Run QueryError α)
    (calls : List Call) (visits : List Visit) (result : α) : Prop :=
  Call.Settled source answers calls → ∀ journal : Journal, ∃ after,
    let performed := Call.performed source answers (journal.callsTo source.name) calls
    run.run.run journal = (performed.2.elim (.ok result) .error, after) ∧
      journal.Records source performed.1 after ∧
      (performed.2 = none → after.nodes = journal.nodes + visits.length)

section

variable {source : Source} {answers : Request → List Triple} {calls more : List Call}
  {visits visits' : List Visit} {a : α} {b : β}

theorem makes_pure (result : α) : Makes source answers (pure result) [] [] result := by
  intro _ journal
  exact ⟨journal, rfl, Journal.Adds.records ⟨(List.append_nil _).symm, rfl⟩, fun _ => rfl⟩

theorem Makes.bind {first : Run QueryError α} {next : α → Run QueryError β}
    (start : first.Makes source answers calls visits a)
    (rest : (next a).Makes source answers more visits' b) :
    (first >>= next).Makes source answers (calls ++ more) (visits ++ visits') b := by
  intro settled journal
  obtain ⟨here, later⟩ := settled.of_append
  obtain ⟨middle, first_run, records, nodes⟩ := start here journal
  dsimp only at first_run records nodes ⊢
  simp only [ExceptT.run_bind, StateT.run_bind]
  rw [first_run]
  -- either the first run stops and the second never starts, or it has made all of its calls
  cases ending : (Call.performed source answers (journal.callsTo source.name) calls).2 with
  | some error =>
    rw [Call.performed_append_of_some ending, ending]
    exact ⟨middle, rfl, records, nofun⟩
  | none =>
    rw [Call.performed_of_none ending] at records
    obtain ⟨after, next_run, records', nodes'⟩ := rest later middle
    have same : Call.performed source answers (middle.callsTo source.name) more =
        Call.performed source answers
          (journal.callsTo source.name + Call.requests calls) more := by
      rcases here with steady | silent
      · exact Call.performed_eq_of_answers steady _ _ more
      · rw [(records.adds silent).asked]
    rw [same] at next_run records' nodes'
    rw [Call.performed_append_of_none ending]
    refine ⟨after, next_run, records.trans records', fun fine => ?_⟩
    rw [nodes' fine, nodes ending, List.length_append, Nat.add_assoc]

theorem Makes.bind_quiet {first : Run QueryError α} {next : α → Run QueryError β}
    (start : first.Makes source answers calls visits a)
    (rest : (next a).Makes source answers [] [] b) :
    (first >>= next).Makes source answers calls visits b := by
  rw [← List.append_nil calls, ← List.append_nil visits]
  exact start.bind rest

theorem Makes.map {run : Run QueryError α} (makes : run.Makes source answers calls visits a)
    (f : α → β) : (f <$> run).Makes source answers calls visits (f a) := by
  rw [← bind_pure_comp]
  exact makes.bind_quiet (makes_pure (f a))

theorem Makes.after_step {step : Logged α} {next : α → Run QueryError β}
    (rests : ∀ journal : Journal, journal.Rests source (step.run journal).2)
    (rest : ∀ a, (next a).Makes source answers calls visits b) :
    ((liftM step : Run QueryError α) >>= next).Makes source answers calls visits b := by
  intro settled journal
  obtain ⟨adds, same⟩ := rests journal
  obtain ⟨after, next_run, records, nodes⟩ := rest (step.run journal).1 settled (step.run journal).2
  have asked := adds.asked
  rw [asked] at next_run records nodes
  rw [same] at nodes
  exact ⟨after, next_run, adds.records.trans records, nodes⟩

theorem Makes.after_node {next : Unit → Run QueryError β} (visit : Visit)
    (rest : (next ()).Makes source answers calls visits b) :
    ((liftM countNode : Run QueryError Unit) >>= next).Makes source answers calls
      (visit :: visits) b := by
  intro settled journal
  obtain ⟨after, next_run, records, nodes⟩ := rest settled (countNode.run journal).2
  have adds : journal.Adds source [] (countNode.run journal).2 := ⟨(List.append_nil _).symm, rfl⟩
  refine ⟨after, next_run, adds.records.trans records, fun fine => ?_⟩
  rw [nodes fine, List.length_cons, Nat.add_comm visits.length]
  exact Nat.add_assoc journal.nodes 1 visits.length

theorem makes_filterMapM {step : α → Run QueryError (Option β)} {xs : List α}
    (callsOf : α → List Call) (visitsOf : α → List Visit) (result : α → Option β)
    (each : ∀ x ∈ xs, (step x).Makes source answers (callsOf x) (visitsOf x) (result x)) :
    (xs.filterMapM step).Makes source answers (xs.flatMap callsOf) (xs.flatMap visitsOf)
      (xs.filterMap result) := by
  induction xs with
  | nil => exact makes_pure []
  | cons x xs ih =>
    rw [List.filterMapM_cons, List.flatMap_cons, List.flatMap_cons]
    refine (each x List.mem_cons_self).bind ?_
    have rest := ih fun y later => each y (List.mem_cons_of_mem x later)
    cases found : result x with
    | none => simpa [found] using rest
    | some y =>
      rw [List.filterMap_cons_some found]
      exact rest.bind_quiet (makes_pure _)

/-- A run that is a single call: it fails if the call does. -/
theorem makes_call {ε : Type} {run : Run ε α} {call : Call} {wrap : ε → QueryError}
    (outcome : Nat → Except ε α)
    (ends : Call.Settled source answers [call] → ∀ journal : Journal, ∃ after,
      run.run.run journal = (outcome (journal.callsTo source.name), after) ∧
        journal.Records source [call] after ∧ after.nodes = journal.nodes)
    (fails : ∀ asked, call.error? source answers asked = (faultOf (outcome asked)).map wrap)
    (value : ∀ asked result, outcome asked = .ok result → result = a) :
    Makes source answers (ExceptT.adapt wrap run) [call] [] a := by
  intro settled journal
  obtain ⟨after, ran, records, nodes⟩ := ends settled journal
  have failing := fails (journal.callsTo source.name)
  refine ⟨after, ?_⟩
  change (ExceptT.adapt wrap run).run.run journal = _ ∧ _
  have adapted : (ExceptT.adapt wrap run).run.run journal =
      (Except.mapError wrap (outcome (journal.callsTo source.name)), after) := by
    change (Except.mapError wrap <$> run.run).run journal = _
    rw [StateT.run_map, ran]
    rfl
  rw [adapted]
  cases ending : outcome (journal.callsTo source.name) with
  | error cause =>
    rw [ending] at failing
    rw [Call.performed_cons_of_error failing]
    exact ⟨rfl, records, nofun⟩
  | ok result =>
    rw [ending] at failing
    rw [Call.performed_cons_of_none failing, value _ result ending]
    exact ⟨rfl, records, fun _ => nodes⟩

end

/-- From every journal the run either makes all calls, none of which fails, and gives the result; or
    it ends with the error of the first call that fails and makes no call after that one. -/
def StopsAtFailure (source : Source) (answers : Request → List Triple) (run : Run QueryError α)
    (calls : List Call) (result : α) : Prop :=
  ∀ journal : Journal, ∃ ending after, run.run.run journal = (ending, after) ∧
    let asked := journal.callsTo source.name
    ((∀ place error, ¬ Call.FailsAt source answers asked calls place error) ∧
        ending = .ok result ∧
        after.calls = journal.calls ++ calls.map (Call.entry source)) ∨
      ∃ place error, Call.FirstFails source answers asked calls place error ∧
        ending = .error error ∧
        after.calls = journal.calls ++ (calls.take (place + 1)).map (Call.entry source)

section

variable {source : Source} {answers : Request → List Triple} {run : Run QueryError α}
  {calls : List Call} {visits : List Visit} {result : α}

theorem Makes.stopsAtFailure (makes : run.Makes source answers calls visits result)
    (silent : ∀ call ∈ calls, call.Silent) : run.StopsAtFailure source answers calls result := by
  intro journal
  obtain ⟨after, ends, records, _⟩ := makes (Or.inr silent) journal
  refine ⟨_, after, ends, ?_⟩
  obtain fine | ⟨place, error, first⟩ := Call.faultless_or_first
  · rw [Call.performed_of_faultless fine] at records ⊢
    exact Or.inl ⟨fine, rfl, (records.adds silent).calls⟩
  · rw [first.performed_eq] at records ⊢
    have adds := records.adds fun call member => silent call (List.mem_of_mem_take member)
    exact Or.inr ⟨place, error, first, rfl, adds.calls⟩

/-- A run that succeeds has made no call that fails, and has come to the only result there is. -/
theorem Makes.of_ok (makes : run.Makes source answers calls visits result)
    (settled : Call.Settled source answers calls) {journal : Journal}
    (success : (run.run.run journal).1 = .ok a) :
    a = result ∧
      (Call.performed source answers (journal.callsTo source.name) calls).2 = none := by
  obtain ⟨after, ran, _⟩ := makes settled journal
  rw [ran] at success
  cases ending : (Call.performed source answers (journal.callsTo source.name) calls).2 with
  | some error =>
    rw [ending] at success
    cases success
  | none =>
    rw [ending] at success
    exact ⟨(Except.ok.inj success).symm, rfl⟩

theorem Makes.of_fine (makes : run.Makes source answers calls visits result)
    (settled : Call.Settled source answers calls)
    (fine : ∀ call ∈ calls, call.Fine source answers) (journal : Journal) :
    ∃ after, run.run.run journal = (.ok result, after) ∧ journal.Records source calls after ∧
      after.nodes = journal.nodes + visits.length := by
  obtain ⟨after, ends, records, nodes⟩ := makes settled journal
  rw [Call.performed_of_fine fine] at ends records nodes
  exact ⟨after, ends, records, nodes rfl⟩

theorem Makes.yields (makes : run.Makes source answers calls visits result)
    (settled : Call.Settled source answers calls)
    (fine : ∀ call ∈ calls, call.Fine source answers) : run.Yields result := by
  intro journal
  obtain ⟨after, ends, _⟩ := makes.of_fine settled fine journal
  exact ⟨after, ends⟩

theorem Makes.logs (makes : run.Makes source answers calls visits result)
    (settled : Call.Settled source answers calls)
    (fine : ∀ call ∈ calls, call.Fine source answers) :
    run.Logs Entry.isQuestion ((calls.map (Call.entry source)).filter Entry.isQuestion) result := by
  intro journal
  obtain ⟨after, ends, records, _⟩ := makes.of_fine settled fine journal
  exact ⟨after, ends, records.questions⟩

end

end Run

section

variable {source : Source} {answers : Request → List Triple}

theorem Source.makes_ask (answered : source.AnswersOrFails answers) (request : Request) :
    Run.Makes source answers (ExceptT.adapt QueryError.store (source.ask request))
      [.request request] [] (answers request) := by
  refine Run.makes_call (fun earlier => source.answer earlier request) ?_ ?_ ?_
  · exact fun _ journal => ⟨_, rfl, (journal.adds_recordRequest request).records, rfl⟩
  · exact fun _ => rfl
  · exact fun earlier triples answer => answered earlier request triples answer

/-- What a constraint asks is no question to a constraint, and makes no node. -/
theorem Decision.run_of_settled {decision : Decision}
    (settled : source.Answers answers ∨ decision.Silent) (journal : Journal) : ∃ after,
      (decision.run source).run.run journal = (decision.outcome answers, after) ∧
        (decision.Silent → journal.Adds source [] after) ∧
        after.only Entry.isQuestion = journal.only Entry.isQuestion ∧
        after.nodes = journal.nodes := by
  induction decision generalizing journal with
  | verdict result => exact ⟨journal, rfl, fun _ => ⟨(List.append_nil _).symm, rfl⟩, rfl, rfl⟩
  | remark event rest ih =>
    obtain ⟨after, ends, adds, questions, nodes⟩ := ih settled ((report event).run journal).2
    refine ⟨after, ends, fun silent => (Journal.rests_report event journal).1.trans (adds silent),
      questions.trans ?_, nodes⟩
    exact Journal.only_record_of_other rfl journal
  | ask request next ih =>
    rcases settled with steady | silent
    · obtain ⟨after, ends, _, questions, nodes⟩ := ih (.ok (answers request)) (Or.inl steady)
        (journal.recordRequest source.name request source.watched)
      refine ⟨after, ?_, fun silent => absurd silent id, questions.trans ?_, nodes⟩
      · change ((next (source.answer _ request)).run source).run.run _ = _
        rw [steady]
        exact ends
      · exact Journal.only_recordRequest rfl journal
    · exact absurd silent id

theorem isYes_of_ok {outcome : Except CallbackError Bool} {verdict : Bool}
    (ends : outcome = .ok verdict) : verdict = isYes outcome := by
  rw [ends]
  rfl

theorem Constraint.makes_apply (constraint : Constraint) (index : Nat) (binding : Binding) :
    Run.Makes source answers
      (ExceptT.adapt (fun cause => QueryError.evaluation (.constraint cause))
        (constraint.apply index binding source))
      [.constraint constraint index binding] [] (constraint.holds answers binding) := by
  refine Run.makes_call (fun _ => (constraint.decide binding).outcome answers) ?_ ?_ ?_
  · intro settled journal
    let noted := journal.record (.constraint index binding constraint.watched)
    have asked : journal.Adds source [.constraint constraint index binding] noted :=
      ⟨Journal.calls_record journal _, rfl⟩
    have alone : (∀ call ∈ [Call.constraint constraint index binding], call.Silent) ↔
        (constraint.decide binding).Silent := List.forall_mem_singleton
    obtain ⟨after, ends, adds, questions, nodes⟩ :=
      Decision.run_of_settled (settled.imp_right alone.mp) noted
    exact ⟨after, ends, ⟨fun silent => asked.trans (adds (alone.mp silent)),
      questions.trans asked.records.questions⟩, nodes⟩
  · exact fun _ => rfl
  · exact fun _ _ ends => isYes_of_ok ends

/-- The calls for one candidate of a statement: that of its filter, if there is one. -/
def Statement.filterCalls (statement : Statement) (triple : Triple) : List Call :=
  (statement.filter.map fun filter => .filter statement.toTriplePattern filter triple).toList

theorem Statement.makes_accepts (statement : Statement) (triple : Triple) :
    Run.Makes source answers
      (ExceptT.adapt (fun cause => QueryError.evaluation (.filter statement.toTriplePattern cause))
        (statement.accepts triple))
      (statement.filterCalls triple) [] (statement.passes triple) := by
  unfold accepts filterCalls passes
  cases statement.filter with
  | none => exact Run.makes_pure true
  | some filter =>
    refine Run.makes_call (fun _ => filter.check triple) ?_ ?_ ?_
    · intro _ journal
      have adds : journal.Adds source [.filter statement.toTriplePattern filter triple]
          (journal.record (.filter triple filter.watched)) :=
        ⟨Journal.calls_record journal _, rfl⟩
      exact ⟨_, rfl, adds.records, rfl⟩
    · exact fun _ => rfl
    · exact fun _ _ ends => isYes_of_ok ends

end

end TripleJoin

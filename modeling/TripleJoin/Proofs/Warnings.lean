import TripleJoin.Pattern
import TripleJoin.Proofs.Ensures
/-!
What a run adds to the count of nodes and to the warnings of the journal, however it ends. A run is
calm if it warns of nothing itself; a constraint that it asks may still remark what it likes.
-/
namespace TripleJoin

/-- The event, if it is a warning. The only one there is reports a large expansion. -/
def Entry.warning? : Entry → Option Event
  | .event reported => if reported.level = .warn then some reported else none
  | _ => none

namespace Journal

/-- The warnings in order. -/
def warnings (journal : Journal) : List Event := journal.entries.toList.filterMap Entry.warning?

theorem warnings_push (entries : Array Entry) (entry : Entry) :
    (entries.push entry).toList.filterMap Entry.warning? =
      entries.toList.filterMap Entry.warning? ++ entry.warning?.toList := by
  rw [Array.toList_push, List.filterMap_append]
  cases warned : entry.warning? <;> simp [warned]

theorem level_of_mem_warnings {journal : Journal} {event : Event}
    (member : event ∈ journal.warnings) : event.level = .warn := by
  obtain ⟨entry, _, warned⟩ := List.mem_filterMap.mp member
  cases entry with
  | event other =>
    rw [Entry.warning?, Option.ite_none_right_eq_some, Option.some.injEq] at warned
    exact warned.2 ▸ warned.1
  | _ => cases warned

/-- These warnings were given in order, with none but remarks among them. -/
def Warned (remarks : Event → Prop) (before : Journal) (own : List Event) (after : Journal) : Prop :=
  ∃ written remarked, after.warnings = before.warnings ++ written ∧ own.Sublist written ∧
    written.Perm (own ++ remarked) ∧ ∀ event ∈ remarked, remarks event

/-- From the first journal to the second so many nodes were made and these warnings were given. -/
structure Accrues (remarks : Event → Prop) (before : Journal) (nodes : Nat) (own : List Event)
    (after : Journal) : Prop where
  nodes : after.nodes = before.nodes + nodes
  warned : before.Warned remarks own after

variable {remarks : Event → Prop} {before middle after : Journal}

theorem Warned.of_eq (same : after.warnings = before.warnings) :
    before.Warned remarks [] after :=
  ⟨[], [], by rw [same, List.append_nil], .slnil, .nil, List.forall_mem_nil _⟩

theorem Warned.trans {own own' : List Event} (first : before.Warned remarks own middle)
    (second : middle.Warned remarks own' after) : before.Warned remarks (own ++ own') after := by
  obtain ⟨written, remarked, log, kept, perm, allowed⟩ := first
  obtain ⟨written', remarked', log', kept', perm', allowed'⟩ := second
  refine ⟨written ++ written', remarked ++ remarked', ?_, kept.append kept', ?_,
    List.forall_mem_append.mpr ⟨allowed, allowed'⟩⟩
  · rw [log', log, List.append_assoc]
  · calc (written ++ written').Perm ((own ++ remarked) ++ (own' ++ remarked')) := perm.append perm'
      List.Perm _ (own ++ own' ++ (remarked ++ remarked')) := by
        rw [List.append_assoc, List.append_assoc]
        exact (List.perm_append_comm_assoc remarked own' remarked').append_left own

/-- Without remarks the warnings are just these. -/
theorem Warned.eq {own : List Event} (warned : before.Warned remarks own after)
    (silent : ∀ event, event.level = .warn → ¬ remarks event) :
    after.warnings = before.warnings ++ own := by
  obtain ⟨written, remarked, log, kept, perm, allowed⟩ := warned
  have none : remarked = [] := by
    rw [List.eq_nil_iff_forall_not_mem]
    intro event member
    have seen : event ∈ after.warnings :=
      log ▸ List.mem_append_right _ (perm.mem_iff.mpr (List.mem_append_right own member))
    exact silent event (level_of_mem_warnings seen) (allowed event member)
  rw [none, List.append_nil] at perm
  rw [log, kept.eq_of_length perm.length_eq.symm]

theorem Accrues.refl (journal : Journal) : journal.Accrues remarks 0 [] journal :=
  ⟨rfl, .of_eq rfl⟩

theorem Accrues.trans {nodes nodes' : Nat} {own own' : List Event}
    (first : before.Accrues remarks nodes own middle)
    (second : middle.Accrues remarks nodes' own' after) :
    before.Accrues remarks (nodes + nodes') (own ++ own') after where
  nodes := by rw [second.nodes, first.nodes, Nat.add_assoc]
  warned := first.warned.trans second.warned

theorem warnings_record (journal : Journal) (entry : Entry) :
    (journal.record entry).warnings = journal.warnings ++ entry.warning?.toList :=
  warnings_push journal.entries entry

theorem accrues_record {entry : Entry} (mild : entry.warning? = none) (journal : Journal) :
    journal.Accrues remarks 0 [] (journal.record entry) := by
  refine ⟨rfl, .of_eq ?_⟩
  rw [warnings_record, mild, Option.toList_none, List.append_nil]

theorem accrues_recordRequest (store : String) (request : Request) (watched : Bool)
    (journal : Journal) :
    journal.Accrues remarks 0 [] (journal.recordRequest store request watched) := by
  refine ⟨rfl, .of_eq ?_⟩
  exact (warnings_push journal.entries _).trans (List.append_nil _)

theorem accrues_remark {event : Event} (remarked : remarks event) (journal : Journal) :
    journal.Accrues remarks 0 [] (journal.record (.event event)) := by
  refine ⟨rfl, _, (Entry.event event).warning?.toList, journal.warnings_record _,
    List.nil_sublist _, .refl _, fun other member => ?_⟩
  rw [Option.mem_toList, Entry.warning?, Option.ite_none_right_eq_some, Option.some.injEq] at member
  exact member.2 ▸ remarked

theorem accrues_warning {event : Event} (warns : event.level = .warn) (journal : Journal) :
    journal.Accrues remarks 0 [event] (journal.record (.event event)) := by
  refine ⟨rfl, [event], [], ?_, .refl _, .refl _, List.forall_mem_nil _⟩
  rw [warnings_record, Entry.warning?, if_pos warns, Option.toList_some]

end Journal

/-- From every journal the step may make nodes, but gives no warning other than remarks. -/
def Logged.Calm {α : Type} (remarks : Event → Prop) (step : Logged α) : Prop :=
  ∀ journal : Journal, ∃ nodes, journal.Accrues remarks nodes [] (step.run journal).2

namespace Logged

variable {α β : Type} {remarks : Event → Prop}

theorem calm_pure (result : α) : Calm remarks (pure result) :=
  fun journal => ⟨0, .refl journal⟩

theorem Calm.bind {first : Logged α} {next : α → Logged β} (start : Calm remarks first)
    (rest : ∀ a, Calm remarks (next a)) : Calm remarks (first >>= next) := by
  intro journal
  obtain ⟨nodes, here⟩ := start journal
  obtain ⟨nodes', later⟩ := rest (first.run journal).1 (first.run journal).2
  exact ⟨nodes + nodes', here.trans later⟩

theorem calm_note {entry : Entry} (mild : entry.warning? = none) : Calm remarks (note entry) :=
  fun journal => ⟨0, journal.accrues_record mild⟩

theorem calm_remark {event : Event} (remarked : remarks event) : Calm remarks (report event) :=
  fun journal => ⟨0, journal.accrues_remark remarked⟩

theorem calm_report {event : Event} (mild : event.level ≠ .warn) : Calm remarks (report event) :=
  calm_note (if_neg mild)

theorem calm_nodesSoFar : Calm remarks nodesSoFar :=
  fun journal => ⟨0, .refl journal⟩

theorem calm_countNode : Calm remarks countNode :=
  fun _ => ⟨1, rfl, .of_eq rfl⟩

end Logged

namespace Run

variable {ε ε' α β : Type} {remarks : Event → Prop} {journal : Journal}

/-- The journal that a run leaves. -/
def after (run : Run ε α) (journal : Journal) : Journal := (run.run.run journal).2

/-- The nodes that a run makes from a journal on. -/
def explored (run : Run ε α) (journal : Journal) : Nat := (run.after journal).nodes - journal.nodes

theorem after_bind_of_ok {first : Run ε α} {next : α → Run ε β} {a : α}
    (ends : (first.run.run journal).1 = .ok a) :
    (first >>= next).after journal = (next a).after (first.after journal) :=
  congrArg Prod.snd (bind_of_ok ends)

theorem after_bind {first : Run ε α} {next : α → Run ε β} {b : β}
    (ends : ((first >>= next).run.run journal).1 = .ok b) :
    ∃ a, (first.run.run journal).1 = .ok a ∧
      ((next a).run.run (first.after journal)).1 = .ok b ∧
        (first >>= next).after journal = (next a).after (first.after journal) := by
  obtain ⟨a, here, later⟩ := bind_eq_ok ends
  exact ⟨a, here, later, after_bind_of_ok here⟩

theorem after_nodesSoFar (next : Nat → Run ε β) :
    ((liftM nodesSoFar : Run ε Nat) >>= next).after journal =
      (next journal.nodes).after journal := rfl

theorem accrues_bind {first : Run ε α} {next : α → Run ε β} {nodes : Nat} {own : List Event}
    (start : journal.Accrues remarks nodes own (first.after journal))
    (idle : ∀ a middle, Journal.Accrues remarks middle 0 [] ((next a).after middle)) :
    journal.Accrues remarks nodes own ((first >>= next).after journal) := by
  cases ran : (first.run.run journal).1 with
  | ok a =>
    rw [after_bind_of_ok ran, ← Nat.add_zero nodes, ← List.append_nil own]
    exact start.trans (idle a _)
  | error cause =>
    have stops : (first >>= next).after journal = first.after journal := by
      simp only [after, ExceptT.run_bind, StateT.run_bind]
      cases whole : first.run.run journal with
      | mk result middle =>
        rw [whole] at ran
        cases ran
        rfl
    exact stops ▸ start

def Calm (remarks : Event → Prop) (run : Run ε α) : Prop := Logged.Calm remarks run.run

theorem Calm.accrues {run : Run ε α} (calm : run.Calm remarks) (journal : Journal) :
    journal.Accrues remarks (run.explored journal) [] (run.after journal) := by
  obtain ⟨nodes, accrues⟩ := calm journal
  have made : run.explored journal = nodes := by
    rw [explored, after, accrues.nodes, Nat.add_sub_cancel_left]
  exact made ▸ accrues

theorem calm_pure (result : α) : Calm remarks (pure result : Run ε α) :=
  Logged.calm_pure _

theorem calm_ofExcept (result : Except ε α) : Calm remarks (ofExcept result) :=
  Logged.calm_pure result

theorem Calm.bind {first : Run ε α} {next : α → Run ε β} (start : first.Calm remarks)
    (rest : ∀ a, (next a).Calm remarks) : (first >>= next).Calm remarks := by
  rw [Calm, ExceptT.run_bind]
  refine Logged.Calm.bind start fun result => ?_
  cases result with
  | ok a => exact rest a
  | error cause => exact Logged.calm_pure _

theorem calm_step {step : Logged α} (calm : step.Calm remarks) :
    Calm remarks (liftM step : Run ε α) :=
  Logged.Calm.bind calm fun _ => Logged.calm_pure _

theorem Calm.after_step {step : Logged α} {next : α → Run ε β} (start : step.Calm remarks)
    (rest : ∀ a, (next a).Calm remarks) : ((liftM step : Run ε α) >>= next).Calm remarks :=
  Logged.Calm.bind start rest

theorem Calm.adapt {run : Run ε α} (calm : run.Calm remarks) (f : ε → ε') :
    Calm remarks (ExceptT.adapt f run) :=
  Logged.Calm.bind calm fun _ => Logged.calm_pure _

theorem calm_filterMapM {step : α → Run ε (Option β)} (xs : List α)
    (each : ∀ x, (step x).Calm remarks) : (xs.filterMapM step).Calm remarks := by
  induction xs with
  | nil => exact calm_pure []
  | cons x xs ih =>
    rw [List.filterMapM_cons]
    refine (each x).bind fun found => ?_
    cases found with
    | none => exact ih
    | some y => exact ih.bind fun ys => calm_pure (y :: ys)

end Run

/-- The decision may report this event on some way to its verdict. -/
def Decision.Remarks (event : Event) : Decision → Prop
  | .verdict _ => False
  | .remark first rest => first = event ∨ rest.Remarks event
  | .ask _ next => ∃ answer, (next answer).Remarks event

/-- Some constraint of the pattern may report this event by itself. -/
def Pattern.Remarks (pattern : Pattern) (event : Event) : Prop :=
  ∃ constraint ∈ pattern.constraints, ∃ binding, (constraint.decide binding).Remarks event

section

variable {remarks : Event → Prop}

theorem Source.calm_ask (source : Source) (request : Request) :
    (source.ask request).Calm remarks :=
  fun journal => ⟨0, journal.accrues_recordRequest source.name request source.watched⟩

theorem Decision.calm_run {decision : Decision}
    (allowed : ∀ event, decision.Remarks event → remarks event) (source : Source) :
    (decision.run source).Calm remarks := by
  induction decision with
  | verdict result => exact Run.calm_ofExcept result
  | remark event rest ih =>
    refine Run.Calm.after_step (Logged.calm_remark (allowed event (Or.inl rfl))) fun _ => ?_
    exact ih fun other remarked => allowed other (Or.inr remarked)
  | ask request next ih =>
    refine Run.Calm.after_step (source.calm_ask request) fun answer => ?_
    exact ih answer fun event remarked => allowed event ⟨answer, remarked⟩

theorem Statement.calm_accepts (statement : Statement) (triple : Triple) :
    (statement.accepts triple).Calm remarks := by
  unfold accepts
  cases statement.filter with
  | none => exact Run.calm_pure true
  | some filter => exact Run.Calm.after_step (Logged.calm_note rfl) fun _ => Run.calm_ofExcept _

end

end TripleJoin

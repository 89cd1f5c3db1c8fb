import TripleJoin.Proofs.Outcome
/-!
What a run writes into the journal, as far as one kind of entries is concerned. A step may be known
to write none of them however it ends, and a run that ends well may be known to write exactly these.
-/
namespace TripleJoin

namespace Journal

/-- The entries of a kind, in order. -/
def only (kind : Entry → Bool) (journal : Journal) : List Entry :=
  journal.entries.toList.filter kind

theorem only_record (kind : Entry → Bool) (journal : Journal) (entry : Entry) :
    (journal.record entry).only kind = journal.only kind ++ [entry].filter kind := by
  rw [only, record, Array.toList_push, List.filter_append]
  rfl

theorem only_record_of_other {kind : Entry → Bool} {entry : Entry} (other : kind entry = false)
    (journal : Journal) : (journal.record entry).only kind = journal.only kind := by
  rw [only_record, List.filter_cons_of_neg (by simp [other]), List.filter_nil, List.append_nil]

theorem only_recordRequest {kind : Entry → Bool} {store : String} {request : Request}
    {watched : Bool} (other : kind (.request store request watched) = false) (journal : Journal) :
    (journal.recordRequest store request watched).only kind = journal.only kind :=
  only_record_of_other other journal

end Journal

/-- However it ends, the step writes no entry of the kind. -/
def Omits {α : Type} (kind : Entry → Bool) (step : Logged α) : Prop :=
  ∀ journal : Journal, (step.run journal).2.only kind = journal.only kind

section

variable {kind : Entry → Bool} {ε ε' α β : Type}

theorem omits_pure (result : α) : Omits kind (pure result) :=
  fun _ => rfl

theorem Omits.bind {first : Logged α} {next : α → Logged β} (start : Omits kind first)
    (rest : ∀ a, Omits kind (next a)) : Omits kind (first >>= next) :=
  fun journal => (rest _ _).trans (start journal)

theorem omits_note {entry : Entry} (other : kind entry = false) : Omits kind (note entry) :=
  Journal.only_record_of_other other

namespace Run

theorem omits_bind {first : Run ε α} {next : α → Run ε β} (start : Omits kind first.run)
    (rest : ∀ a, Omits kind (next a).run) : Omits kind (first >>= next).run := by
  rw [ExceptT.run_bind]
  refine start.bind fun result => ?_
  cases result with
  | ok a => exact rest a
  | error cause => exact omits_pure _

theorem omits_after_step {step : Logged α} {next : α → Run ε β} (start : Omits kind step)
    (rest : ∀ a, Omits kind (next a).run) :
    Omits kind ((liftM step : Run ε α) >>= next).run :=
  start.bind rest

theorem omits_adapt {run : Run ε α} (omits : Omits kind run.run) (f : ε → ε') :
    Omits kind (ExceptT.adapt f run).run :=
  omits.bind fun _ => omits_pure _

/-- From every journal the run ends with this result, and of the kind it writes these entries. -/
def Logs (kind : Entry → Bool) (run : Run ε α) (written : List Entry) (result : α) : Prop :=
  ∀ journal : Journal, ∃ after, run.run.run journal = (.ok result, after) ∧
    after.only kind = journal.only kind ++ written

end Run

end

end TripleJoin

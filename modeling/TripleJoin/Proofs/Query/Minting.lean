import TripleJoin.Proofs.Binding.Extension
import TripleJoin.Proofs.Ensures
import TripleJoin.Proofs.Graph.Extension
import TripleJoin.Proofs.Join.Inner
/-!
Construction from a template. The graph holds the instances of the statements, row after row, each at
its first place. A minted label can be read back: the row is what stands behind its last underscore.
So whatever the call, the graph is a copy of one list of drafts, in which the nodes to be minted are
still pairs of a label and a row, and a call whose minted labels are new keeps all of them apart.
-/
namespace TripleJoin

section

variable {α β : Type} [DecidableEq α] [DecidableEq β]

/-- First occurrences are kept by a map that identifies nothing in the list. -/
theorem map_foldl_addNew {f : α → β} {xs acc : List α}
    (apart : ∀ x ∈ acc ++ xs, ∀ y ∈ acc ++ xs, f x = f y → x = y) :
    (xs.foldl addNew acc).map f = (xs.map f).foldl addNew (acc.map f) := by
  induction xs generalizing acc with
  | nil => rfl
  | cons x xs ih =>
    have step : (addNew acc x).map f = addNew (acc.map f) (f x) := by
      have known : f x ∈ acc.map f ↔ x ∈ acc := by
        refine ⟨fun member => ?_, List.mem_map_of_mem⟩
        obtain ⟨y, listed, same⟩ := List.mem_map.mp member
        exact apart y (List.mem_append_left _ listed) x (by simp) same ▸ listed
      simp only [addNew, known]
      split <;> simp
    have within : ∀ y ∈ addNew acc x ++ xs, y ∈ acc ++ x :: xs := by
      intro y member
      rw [List.mem_append, mem_addNew, or_assoc] at member
      simpa using member
    rw [List.foldl_cons, List.map_cons, List.foldl_cons, ← step]
    exact ih fun y first z second => apart y (within y first) z (within z second)

theorem eraseDups_map {f : α → β} {xs : List α} (apart : ∀ x ∈ xs, ∀ y ∈ xs, f x = f y → x = y) :
    (xs.map f).eraseDups = xs.eraseDups.map f := by
  have kept : (xs.foldl addNew []).map f = (xs.map f).foldl addNew ([].map f) :=
    map_foldl_addNew apart
  rw [← foldl_addNew_eq_eraseDups, ← foldl_addNew_eq_eraseDups, kept, List.map_nil]

end

theorem map_filterMap_eq {α β γ : Type} {f : α → Option β} {g : β → γ} {keep : α → Bool} {h : α → γ}
    (each : ∀ x, (f x).map g = if keep x then some (h x) else none) (xs : List α) :
    (xs.filterMap f).map g = (xs.filter keep).map h := by
  rw [List.map_filterMap, funext each]
  induction xs with
  | nil => rfl
  | cons x xs ih =>
    cases kept : keep x with
    | true => rw [List.filterMap_cons_some (by rw [kept]; rfl), ih, List.filter_cons_of_pos kept]; rfl
    | false =>
      rw [List.filterMap_cons_none (by rw [kept]; rfl), ih, List.filter_cons_of_neg (by simp [kept])]

namespace Template

/-- Puts the minted label of this row in place of a label of the template's own. -/
def freshen (template : Pattern) (call : UInt64) (row : Nat) : Slot → Slot
  | .fixed (.blank label) =>
    .fixed (.blank (if template.owns label then mint call row label else label))
  | slot => slot

/-- The pattern with the minted labels and the values of a row in place. -/
def filled (template : Pattern) (call : UInt64) (row : Nat) (solution : Binding)
    (pattern : TriplePattern) : TriplePattern :=
  TriplePattern.substitute ⟨freshen template call row pattern.subject,
    freshen template call row pattern.predicate, freshen template call row pattern.object⟩ solution

/-- Every variable of the pattern is bound and its subject is no literal. -/
def emits (solution : Binding) (pattern : TriplePattern) : Bool :=
  pattern.freeVariables.all solution.isBound &&
    (pattern.subject.substitute solution).fixed?.all Term.isSubject

variable (template : Pattern) (call : UInt64) (row : Nat) (solution : Binding)

theorem resolve_eq (slot : Slot) : resolve template call row solution slot =
    ((freshen template call row slot).substitute solution).fixed? := by
  cases slot with
  | free v =>
    rw [resolve, freshen, Slot.substitute]
    · cases solution.get? v <;> rfl
    · simp
  | fixed term => cases term <;> rfl

theorem isSome_fixed?_freshen (slot : Slot) :
    ((freshen template call row slot).substitute solution).fixed?.isSome =
      slot.free?.toList.all solution.isBound := by
  cases slot with
  | free v =>
    rw [← resolve_eq, resolve]
    exact (Bool.and_true _).symm
  | fixed term => cases term <;> rfl

/-- Minting makes no difference to what may be a subject. -/
theorem all_isSubject_freshen (slot : Slot) :
    ((freshen template call row slot).substitute solution).fixed?.all Term.isSubject =
      (slot.substitute solution).fixed?.all Term.isSubject := by
  cases slot with
  | free v => rfl
  | fixed term => cases term <;> rfl

/-- A statement that is emitted becomes the triple that it is filled in to. -/
theorem map_ofTriple_instantiate (pattern : TriplePattern) :
    (pattern.instantiate (resolve template call row solution)).map TriplePattern.ofTriple =
      if emits solution pattern then some (filled template call row solution pattern) else none := by
  have fixed := isSome_fixed?_freshen template call row solution
  rw [emits, pattern.freeVariables_eq, List.all_append, List.all_append, ← fixed, ← fixed, ← fixed,
    ← all_isSubject_freshen template call row]
  simp only [TriplePattern.instantiate, resolve_eq, filled, TriplePattern.substitute]
  generalize (freshen template call row pattern.subject).substitute solution = subject
  generalize (freshen template call row pattern.predicate).substitute solution = predicate
  generalize (freshen template call row pattern.object).substitute solution = object
  cases subject with
  | free v => rfl
  | fixed s =>
    cases accepted : s.isSubject with
    | false => simp [Slot.fixed?, Option.filter, accepted]
    | true =>
      cases predicate <;> cases object <;>
        simp [Slot.fixed?, Option.filter, accepted, TriplePattern.ofTriple]

theorem length_hexadecimal16 (id : UInt64) : (hexadecimal16 id).length = 16 := by
  have short : (Nat.toDigits 16 id.toNat).length ≤ 16 :=
    (Nat.length_toDigits_le_iff (by decide) (by decide)).mpr id.toNat_lt
  simp [hexadecimal16, String.length_ofList, short]

/-- The row is read back from the digits at the end of a minted label. -/
theorem digits_mint (call : UInt64) (row : Nat) (label : String) :
    (((mint call row label).toList.reverse.takeWhile Char.isDigit).reverse) =
      Nat.toDigits 10 row := by
  have digits : ∀ c ∈ (Nat.toDigits 10 row).reverse, c.isDigit = true := fun c member =>
    Nat.isDigit_of_mem_toDigits (by decide) (by decide) (List.mem_reverse.mp member)
  simp [mint, Nat.toString_eq_repr, List.takeWhile_append_of_pos digits]

theorem mint_inj {call : UInt64} {row row' : Nat} {label label' : String}
    (same : mint call row label = mint call row' label') : label = label' ∧ row = row' := by
  have rows : row = row' := by
    have digits := digits_mint call row label
    rw [same, digits_mint] at digits
    simpa using (congrArg (fun digits => Nat.ofDigitChars 10 digits 0) digits).symm
  subst rows
  refine ⟨?_, rfl⟩
  simpa [mint, String.append_assoc] using same

/-- The terms that instances take over: the values of the solutions, and the terms of the template
    that are no labels of its own. -/
def copies (template : Pattern) (solutions : List Binding) : List Term :=
  solutions.flatMap (fun solution => solution.bound.map Prod.snd) ++
    (template.statements.flatMap fun statement => statement.slots.filterMap Slot.fixed?).filter
      fun term => term ∉ template.labels.map Term.blank

/-- None of the blank nodes that a call mints is one that is copied. -/
def Fresh (template : Pattern) (solutions : List Binding) (call : UInt64) : Prop :=
  ∀ own ∈ template.labels, ∀ row < solutions.length,
    .blank (mint call row own) ∉ copies template solutions

instance (template : Pattern) (solutions : List Binding) (call : UInt64) :
    Decidable (Fresh template solutions call) :=
  inferInstanceAs (Decidable (∀ own ∈ template.labels, ∀ row < solutions.length,
    .blank (mint call row own) ∉ copies template solutions))

/-- A minted node stands for its own label in its own row and for nothing else. -/
def KeepsApart (template : Pattern) (solutions : List Binding) (call : UInt64) : Prop :=
  ∀ own ∈ template.labels, ∀ row < solutions.length, ∀ entry ∈ solutions.zipIdx,
    ∀ statement ∈ template.statements, ∀ slot ∈ statement.slots,
      resolve template call entry.2 entry.1 slot = some (.blank (mint call row own)) →
        slot = .fixed (.blank own) ∧ entry.2 = row

/-- Where a node of an instance comes from. -/
inductive Origin where
  | minted (label : String) (row : Nat)
  | copied (term : Term)
  deriving DecidableEq

/-- An instance whose nodes are yet to be minted. -/
structure Draft where
  subject : Origin
  predicate : Origin
  object : Origin
  deriving DecidableEq

def Origin.term (call : UInt64) : Origin → Term
  | minted label row => .blank (mint call row label)
  | copied term => term

def Draft.triple (call : UInt64) (draft : Draft) : Triple :=
  ⟨draft.subject.term call, draft.predicate.term call, draft.object.term call⟩

/-- What a slot becomes in a row, up to minting. -/
def origin? (template : Pattern) (row : Nat) (solution : Binding) : Slot → Option Origin
  | .free v => (solution.get? v).map .copied
  | .fixed (.blank label) =>
    some (if template.owns label then .minted label row else .copied (.blank label))
  | .fixed term => some (.copied term)

def Origin.isSubject : Origin → Bool
  | minted .. => true
  | copied term => term.isSubject

def draft? (template : Pattern) (row : Nat) (solution : Binding) (pattern : TriplePattern) :
    Option Draft := do
  let subject ← (origin? template row solution pattern.subject).filter Origin.isSubject
  let predicate ← origin? template row solution pattern.predicate
  let object ← origin? template row solution pattern.object
  return ⟨subject, predicate, object⟩

def drafts (template : Pattern) (solutions : List Binding) : List Draft :=
  solutions.zipIdx.flatMap fun entry => template.statements.filterMap fun statement =>
    draft? template entry.2 entry.1 statement.toTriplePattern

theorem resolve_eq_origin (slot : Slot) : resolve template call row solution slot =
    (origin? template row solution slot).map (Origin.term call) := by
  cases slot with
  | free v =>
    rw [resolve, origin?, Option.map_map]
    exact Option.map_id'.symm
  | fixed term =>
    cases term with
    | blank label =>
      rw [resolve, origin?]
      split <;> rfl
    | iri text => rfl
    | literal value => rfl

/-- Of all that instances are made of only the minted labels depend on the call. -/
theorem instantiate_eq_draft (pattern : TriplePattern) :
    pattern.instantiate (resolve template call row solution) =
      (draft? template row solution pattern).map (Draft.triple call) := by
  have subjects : ∀ origin : Origin, (origin.term call).isSubject = origin.isSubject := by
    intro origin
    cases origin <;> rfl
  simp only [TriplePattern.instantiate, draft?, resolve_eq_origin]
  cases origin? template row solution pattern.subject with
  | none => rfl
  | some subject =>
    cases origin? template row solution pattern.predicate <;>
      cases origin? template row solution pattern.object <;>
      cases accepted : subject.isSubject <;>
        simp [Option.filter, subjects, accepted, Draft.triple]

theorem toList_instantiate (solutions : List Binding) :
    (instantiate template call solutions).toList =
      ((drafts template solutions).map (Draft.triple call)).eraseDups := by
  rw [instantiate, Graph.toList_ofList, foldl_addNew_eq_eraseDups, drafts, List.map_flatMap]
  congr 1
  apply List.flatMap_congr
  intro entry _
  rw [instantiateRow, List.map_filterMap]
  exact List.filterMap_congr fun statement _ => instantiate_eq_draft template call _ _ _

variable {template : Pattern} {call : UInt64} {solutions : List Binding}

/-- The origin is one of a slot in a row. -/
def Origin.Arises (template : Pattern) (solutions : List Binding) (origin : Origin) : Prop :=
  ∃ entry ∈ solutions.zipIdx, ∃ statement ∈ template.statements, ∃ slot ∈ statement.slots,
    origin? template entry.2 entry.1 slot = some origin

theorem mem_of_zipIdx {entry : Binding × Nat} (member : entry ∈ solutions.zipIdx) :
    entry.1 ∈ solutions ∧ entry.2 < solutions.length := by
  obtain ⟨_, below, here⟩ := List.mem_zipIdx member
  simp only [Nat.sub_zero, Nat.zero_add] at below here
  exact ⟨here ▸ List.getElem_mem below, below⟩

theorem mem_copies_of_value {solution : Binding} (member : solution ∈ solutions) {v : Variable}
    {term : Term} (found : solution.get? v = some term) : term ∈ copies template solutions := by
  rw [← Binding.lookup_bound] at found
  obtain ⟨before, after, split, _⟩ := List.lookup_eq_some_iff.mp found
  refine List.mem_append_left _ (List.mem_flatMap.mpr ⟨solution, member, ?_⟩)
  exact List.mem_map.mpr ⟨(v, term), by simp [split], rfl⟩

theorem mem_copies_of_fixed {statement : Statement} (stated : statement ∈ template.statements)
    {term : Term} (slot : .fixed term ∈ statement.slots)
    (foreign : term ∉ template.labels.map Term.blank) : term ∈ copies template solutions := by
  refine List.mem_append_right _ (List.mem_filter.mpr ⟨?_, by simpa using foreign⟩)
  exact List.mem_flatMap.mpr ⟨statement, stated, List.mem_filterMap.mpr ⟨_, slot, rfl⟩⟩

/-- An origin that arises is a label of the template's own in some row, or a term that is copied. -/
theorem Origin.Arises.cases {origin : Origin} (arises : origin.Arises template solutions) :
    (∃ own ∈ template.labels, ∃ row < solutions.length, origin = .minted own row) ∨
      ∃ term ∈ copies template solutions, origin = .copied term := by
  obtain ⟨entry, listed, statement, stated, slot, member, found⟩ := arises
  obtain ⟨solution, row⟩ := entry
  obtain ⟨held, below⟩ := mem_of_zipIdx listed
  cases slot with
  | free v =>
    obtain ⟨term, value, rfl⟩ := Option.map_eq_some_iff.mp found
    exact Or.inr ⟨term, mem_copies_of_value held value, rfl⟩
  | fixed term =>
    cases term with
    | blank label =>
      rw [origin?, Option.some.injEq] at found
      by_cases own : label ∈ template.labels
      · exact Or.inl ⟨label, own, row, below, by simp [← found, Pattern.owns, own]⟩
      · exact Or.inr ⟨.blank label, mem_copies_of_fixed stated member (by simpa using own),
          by simp [← found, Pattern.owns, own]⟩
    | iri text =>
      exact Or.inr ⟨_, mem_copies_of_fixed stated member (by simp), (Option.some.inj found).symm⟩
    | literal value =>
      exact Or.inr ⟨_, mem_copies_of_fixed stated member (by simp), (Option.some.inj found).symm⟩

/-- A fresh call mints different nodes for different origins. -/
theorem Fresh.term_inj (fresh : Fresh template solutions call) {origin other : Origin}
    (arises : origin.Arises template solutions) (arises' : other.Arises template solutions)
    (same : origin.term call = other.term call) : origin = other := by
  rcases arises.cases with ⟨own, listed, row, below, rfl⟩ | ⟨term, member, rfl⟩
  · rcases arises'.cases with ⟨own', _, row', _, rfl⟩ | ⟨term', member', rfl⟩
    · obtain ⟨rfl, rfl⟩ := mint_inj (Term.blank.inj same)
      rfl
    · exact absurd ((show Term.blank _ = term' from same) ▸ member') (fresh own listed row below)
  · rcases arises'.cases with ⟨own', listed', row', below', rfl⟩ | ⟨term', _, rfl⟩
    · exact absurd ((show term = Term.blank _ from same) ▸ member) (fresh own' listed' row' below')
    · exact congrArg Origin.copied same

theorem arises_of_mem_drafts {draft : Draft} (member : draft ∈ drafts template solutions) :
    draft.subject.Arises template solutions ∧ draft.predicate.Arises template solutions ∧
      draft.object.Arises template solutions := by
  obtain ⟨entry, listed, found⟩ := List.mem_flatMap.mp member
  obtain ⟨statement, stated, drawn⟩ := List.mem_filterMap.mp found
  simp only [draft?, Option.bind_eq_bind, Option.bind_eq_some_iff, Option.filter_eq_some_iff] at drawn
  obtain ⟨subject, ⟨first, _⟩, predicate, second, object, third, made⟩ := drawn
  cases made
  exact ⟨⟨entry, listed, statement, stated, _, by simp [TriplePattern.slots], first⟩,
    ⟨entry, listed, statement, stated, _, by simp [TriplePattern.slots], second⟩,
    ⟨entry, listed, statement, stated, _, by simp [TriplePattern.slots], third⟩⟩

/-- The graph of a fresh call has as many triples as there are different drafts. -/
theorem Fresh.size_instantiate (fresh : Fresh template solutions call) :
    (instantiate template call solutions).size = (drafts template solutions).eraseDups.length := by
  have apart : ∀ draft ∈ drafts template solutions, ∀ other ∈ drafts template solutions,
      draft.triple call = other.triple call → draft = other := by
    intro draft member other member' same
    obtain ⟨subject, predicate, object⟩ := arises_of_mem_drafts member
    obtain ⟨subject', predicate', object'⟩ := arises_of_mem_drafts member'
    obtain ⟨subjects, predicates, objects⟩ := Triple.mk.inj same
    cases draft
    cases other
    rw [Draft.mk.injEq]
    exact ⟨fresh.term_inj subject subject' subjects, fresh.term_inj predicate predicate' predicates,
      fresh.term_inj object object' objects⟩
  have size : (instantiate template call solutions).size =
      (instantiate template call solutions).toList.length := Array.length_toList.symm
  rw [size, toList_instantiate, eraseDups_map apart, List.length_map]

theorem Fresh.keepsApart (fresh : Fresh template solutions call) :
    KeepsApart template solutions call := by
  rintro own listed row below ⟨solution, row'⟩ member statement stated slot here same
  have free : Term.blank (mint call row own) ∉ copies template solutions := fresh own listed row below
  cases slot with
  | free v => exact absurd (mem_copies_of_value (mem_of_zipIdx member).1 same) free
  | fixed term =>
    by_cases foreign : term ∈ template.labels.map Term.blank
    · obtain ⟨label, own', rfl⟩ := List.mem_map.mp foreign
      have minted : mint call row' label = mint call row own := by
        simpa [resolve, Pattern.owns, own'] using same
      obtain ⟨rfl, rfl⟩ := mint_inj minted
      exact ⟨rfl, rfl⟩
    · have kept : resolve template call row' solution (.fixed term) = some term := by
        cases term with
        | blank label => simp_all [resolve, Pattern.owns]
        | iri text => rfl
        | literal value => rfl
      rw [kept] at same
      exact absurd (Option.some.inj same ▸ mem_copies_of_fixed stated here foreign) free

end Template

namespace Query

open Template

/-- A construction gives the statements of the template that a row can fill in, row after row, each
    triple at its first place. The label and the row of a minted label can be told from it. A call
    whose minted labels are new mints for each label in each row a node of its own, and all such calls
    construct equally many triples. -/
theorem construct_template (query : Query) (template : Pattern) :
    (∀ call, Always (query.construct (some template) call) fun graph =>
      graph.toList.map TriplePattern.ofTriple =
        (query.solutions.zipIdx.flatMap fun entry =>
          (template.statements.filter fun statement =>
            emits entry.1 statement.toTriplePattern).map fun statement =>
              filled template call entry.2 entry.1 statement.toTriplePattern).eraseDups) ∧
    (∀ call row row' label label', (hexadecimal16 call).length = 16 ∧
      (mint call row label = mint call row' label' → label = label' ∧ row = row')) ∧
    (∀ call, Fresh template query.solutions call → KeepsApart template query.solutions call) ∧
    ∃ size, ∀ call, Fresh template query.solutions call →
      Always (query.construct (some template) call) fun graph => graph.size = size := by
  refine ⟨fun call _ => ?_, fun call _ _ _ _ => ⟨length_hexadecimal16 call, mint_inj⟩,
    fun _ => Fresh.keepsApart,
    (drafts template query.solutions).eraseDups.length, fun call fresh _ => fresh.size_instantiate⟩
  change (instantiate template call query.solutions).toList.map _ = _
  have spelled : ∀ a b : Triple, TriplePattern.ofTriple a = TriplePattern.ofTriple b → a = b :=
    fun _ _ => TriplePattern.ofTriple_injective
  rw [instantiate, Graph.toList_ofList, foldl_addNew_eq_eraseDups,
    ← eraseDups_map fun a _ b _ => spelled a b, List.map_flatMap]
  congr 1
  apply List.flatMap_congr
  intro entry _
  exact map_filterMap_eq (fun statement => map_ofTriple_instantiate template call entry.2 entry.1
    statement.toTriplePattern) template.statements

/-- One of the values is what the first call mints for its first row. That call loses a triple, the
    others do not. -/
theorem construct_template_of_edges :
    let taken := "edge_0000000000000001_0"
    let link := fun (subject : String) (object : Term) =>
      Triple.mk (.iri subject) (.iri "link") object
    let graph := Graph.ofList [link "a" (.blank taken), link "b" (.iri "c")]
    let pattern := fun subject object : Slot =>
      Statement.ofPattern ⟨subject, .fixed (.iri "link"), object⟩
    let template := (Pattern.ofStatements [pattern (.fixed (.blank "edge")) (.free ⟨"x"⟩),
      pattern (.free ⟨"y"⟩) (.free ⟨"x"⟩)]).declare "edge"
    ∃ query, ((Engine.mk (.ofGraph "memory" graph true) {}).build
        [.ofStatements [pattern (.free ⟨"x"⟩) (.free ⟨"y"⟩)]] [] []).Yields query ∧
      (∀ call ∈ [2, 3], Fresh template query.solutions call ∧
        KeepsApart template query.solutions call ∧
        Always (query.construct (some template) call) fun graph => graph.size = 4) ∧
      ¬Fresh template query.solutions 1 ∧
      Always (query.construct (some template) 1) fun graph => graph.size = 3 := by
  intro taken link graph pattern template
  let engine : Engine := ⟨.ofGraph "memory" graph true, {}⟩
  let main := Pattern.ofStatements [pattern (.free ⟨"x"⟩) (.free ⟨"y"⟩)]
  have steady : engine.store.Answers graph.matching := answers_ofGraph _ _ _
  have plain : main.Decides graph.matching := Pattern.decides_of_plain _ (by decide) rfl
  have built := Engine.yields_build steady rfl (Engine.checkScope_nil main) plain
    (List.forall_mem_nil _) []
  generalize made : Query.tree _ _ _ = query at built
  have solutions : query.solutions = [
      Binding.withValues [] [(⟨"x"⟩, .iri "a"), (⟨"y"⟩, .blank taken)],
      Binding.withValues [] [(⟨"x"⟩, .iri "b"), (⟨"y"⟩, .iri "c")]] := by
    rw [← made]
    simp only [Query.solutions, Engine.branchRoot, funext (Graph.matching_eq_filter _), graph,
      Graph.toList_ofList]
    decide
  have size : ∀ call, (instantiate template call query.solutions).size =
      ((query.solutions.zipIdx.flatMap fun entry =>
        instantiateRow template call entry.2 entry.1).foldl addNew []).length := by
    intro call
    rw [← Graph.toList_ofList]
    exact Array.length_toList.symm
  -- each call by itself, as a decision for all of them might go through every number
  have fresh : ∀ call ∈ [2, 3], Fresh template query.solutions call := by
    rw [solutions, List.forall_mem_cons, List.forall_mem_singleton]
    exact ⟨by decide, by decide⟩
  obtain ⟨_, _, apart, count, same⟩ := query.construct_template template
  have four : count = 4 := by
    refine (same 2 (fresh 2 (by decide)) Journal.empty).symm.trans ((size 2).trans ?_)
    rw [solutions]
    decide
  refine ⟨query, built, fun call listed => ⟨fresh call listed, apart call (fresh call listed),
    four ▸ same call (fresh call listed)⟩, ?_, fun _ => ?_⟩
  · rw [solutions]
    decide
  · refine (size 1).trans ?_
    rw [solutions]
    decide

end Query

end TripleJoin

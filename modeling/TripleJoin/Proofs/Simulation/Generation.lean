import Mathlib.Data.List.GetD
import TripleJoin.Proofs.Ensures
import TripleJoin.Proofs.Join.Reference
import TripleJoin.Proofs.Join.Values
import TripleJoin.Simulation.Generator
/-!
What random generation gives, whatever the source. Sizes stay within those of the shape, triples
are well-formed and hold no numbers, and the new variables of a clause carry its number, so that no other clause has them
and every generated query obeys the scope rule.
-/
namespace TripleJoin.Simulation

variable {σ α : Type}

namespace Random

section

variable [RandomSource σ]

theorem always_below {count : Nat} (positive : 0 < count) :
    Always (below count : Random σ Nat) fun n => n < count :=
  fun source => RandomSource.below_lt source positive

theorem always_between {low high : Nat} (nonempty : low ≤ high) :
    Always (between low high : Random σ Nat) fun n => low ≤ n ∧ n ≤ high := by
  refine (always_below (by omega)).bind fun n bound => always_pure ?_
  omega

end

theorem always_repeat {draw : Random σ α} {p : α → Prop} (each : Always draw p) (n : Nat) :
    Always (draw.repeat n) fun xs => xs.length = n ∧ ∀ x ∈ xs, p x := by
  induction n with
  | zero => exact always_pure ⟨rfl, List.forall_mem_nil p⟩
  | succ n ih =>
    refine each.bind fun x holds => ih.bind fun xs rest => always_pure ?_
    exact ⟨congrArg Nat.succ rest.1, List.forall_mem_cons.mpr ⟨holds, rest.2⟩⟩

end Random

/-- A variable as the clause with this number makes them. -/
def IsOwn (clause : Nat) (v : Variable) : Prop :=
  ∃ i : Nat, v.name = "opt" ++ toString clause ++ "_" ++ toString i

/-- The number of the clause is what stands before the underscore. -/
theorem clause_eq_of_isOwn {a b : Nat} {v : Variable} (first : IsOwn a v) (second : IsOwn b v) :
    a = b := by
  obtain ⟨i, left⟩ := first
  obtain ⟨j, right⟩ := second
  have number : ∀ n k : Nat, (("opt" ++ toString n ++ "_" ++ toString k).toList.drop 3).takeWhile
      Char.isDigit = Nat.toDigits 10 n := by
    intro n k
    have digits : ∀ c ∈ Nat.toDigits 10 n, c.isDigit = true :=
      fun c member => Nat.isDigit_of_mem_toDigits (by decide) (by decide) member
    simp [Nat.toString_eq_repr, List.takeWhile_append_of_pos digits]
  have same : Nat.toDigits 10 a = Nat.toDigits 10 b := by
    rw [← number a i, ← number b j, ← left, ← right]
  simpa using congrArg (fun digits => Nat.ofDigitChars 10 digits 0) same

/-- The numbers that draws are taken below of are not zero. -/
structure Shape.Usable (shape : Shape) : Prop where
  nodes : 1 ≤ shape.nodes
  predicates : 1 ≤ shape.predicates
  literals : 1 ≤ shape.literals
  variablePool : 1 ≤ shape.variablePool
  maxStatements : 1 ≤ shape.maxStatements

structure Trial.Fits (trial : Trial) (shape : Shape) : Prop where
  statements_pos : 1 ≤ trial.main.statements.length
  statements_le : trial.main.statements.length ≤ shape.maxStatements
  optionals_le : trial.optionals.length ≤ shape.maxOptionals
  size_le : trial.graph.size ≤ shape.maxTriples
  iris : ∀ triple ∈ trial.graph.toList,
    triple.subject.isIri = true ∧ triple.predicate.isIri = true
  scope : trial.main.checkScope trial.optionals = .ok ()

structure Trial.Plain (trial : Trial) : Prop where
  numberless : ∀ triple ∈ trial.graph.toList, triple.All Term.Numberless
  main : trial.main.Plain
  optionals : ∀ clause ∈ trial.optionals, clause.Plain

namespace Shape

variable [RandomSource σ] (shape : Shape)

theorem always_object : Always (shape.object : Random σ Term) Term.Numberless := by
  refine always_bind fun isNode => ?_
  split
  · exact fun _ _ absurd => nomatch absurd
  · refine always_bind fun index => always_pure ?_
    rintro _ ⟨⟩
    rfl

theorem always_triple : Always (shape.triple : Random σ Triple) fun triple =>
    (triple.subject.isIri = true ∧ triple.predicate.isIri = true) ∧ triple.All Term.Numberless := by
  intro source
  refine ⟨⟨rfl, rfl⟩, fun position => ?_⟩
  cases position with
  | subject => exact fun _ absurd => nomatch absurd
  | predicate => exact fun _ absurd => nomatch absurd
  | object => exact shape.always_object _

theorem always_graph : Always (shape.graph : Random σ Graph) fun graph =>
    graph.size ≤ shape.maxTriples ∧ ∀ triple ∈ graph.toList,
      (triple.subject.isIri = true ∧ triple.predicate.isIri = true) ∧
        triple.All Term.Numberless := by
  refine (Random.always_between (Nat.zero_le _)).bind fun count bound => ?_
  refine (Random.always_repeat shape.always_triple count).bind fun triples drawn => always_pure ?_
  have held := Graph.toList_ofList triples
  constructor
  · have shorter : (Graph.ofList triples).toList.length ≤ triples.length := by
      rw [held]
      exact (nodup_foldl_addNew List.nodup_nil triples).length_le_of_subset
        fun triple member => by simpa using member
    have size : (Graph.ofList triples).size = (Graph.ofList triples).toList.length :=
      Array.length_toList.symm
    omega
  · intro triple member
    rw [held] at member
    exact drawn.2 triple (by simpa using member)

section

variable {slot : Random σ Term → Random σ Slot} {p : Variable → Prop}

theorem always_statement (each : ∀ term, Always (slot term) fun slot => ∀ v ∈ slot.free?, p v) :
    Always (shape.statement slot) fun statement =>
      statement.filter = none ∧ ∀ v ∈ statement.freeVariables, p v := by
  refine (each _).bind fun subject first => (each _).bind fun predicate second =>
    (each _).bind fun object third => always_pure ⟨rfl, ?_⟩
  intro v member
  obtain ⟨slot, listed, free⟩ := List.mem_filterMap.mp member
  simp only [TriplePattern.slots, List.mem_cons, List.not_mem_nil, or_false] at listed
  rcases listed with rfl | rfl | rfl
  · exact first v free
  · exact second v free
  · exact third v free

theorem plain_of_statements {statements : List Statement}
    (each : ∀ statement ∈ statements,
      statement.filter = none ∧ ∀ v ∈ statement.freeVariables, p v) :
    (Pattern.ofStatements statements).Plain ∧
      ∀ v ∈ (Pattern.ofStatements statements).unbounds, p v := by
  refine ⟨.ofStatements fun statement member => (each statement member).1, ?_⟩
  intro v known
  rw [(Pattern.built_ofStatements statements).unbounds_eq, Pattern.ofStatements_statements,
    Pattern.mem_variablesOf] at known
  obtain ⟨statement, member, free⟩ := known
  exact (each statement member).2 v free

end

theorem always_main (usable : shape.Usable) : Always (shape.main : Random σ Pattern) fun main =>
    main.Plain ∧ 1 ≤ main.statements.length ∧ main.statements.length ≤ shape.maxStatements := by
  have slot : ∀ term, Always (shape.mainSlot (σ := σ) term) fun slot => ∀ v ∈ slot.free?, True :=
    fun _ _ _ _ => trivial
  refine (Random.always_between usable.maxStatements).bind fun count range => ?_
  refine (Random.always_repeat (shape.always_statement slot) count).bind fun statements drawn =>
    always_pure ?_
  rw [Pattern.ofStatements_statements, drawn.1]
  exact ⟨(plain_of_statements drawn.2).1, range⟩

variable {shared : List Variable} {clause : Nat}

theorem always_optionalSlot (term : Random σ Term) :
    Always (optionalSlot shared clause term) fun slot =>
      ∀ v ∈ slot.free?, v ∈ shared ∨ IsOwn clause v := by
  refine always_bind fun roll => ?_
  split
  · rename_i inherits
    have positive : 0 < shared.length := by
      cases shared <;> simp_all
    refine (Random.always_below positive).bind fun index bound => always_pure ?_
    intro v free
    cases free
    rw [List.getD_eq_getElem _ _ bound]
    exact Or.inl (List.getElem_mem bound)
  · split
    · refine always_bind fun i => always_pure ?_
      intro v free
      cases free
      exact Or.inr ⟨i, rfl⟩
    · refine always_bind fun term => always_pure ?_
      intro v free
      cases free

theorem always_optionalClause :
    Always (shape.optionalClause shared clause : Random σ Pattern) fun pattern =>
      pattern.Plain ∧ ∀ v ∈ pattern.unbounds, v ∈ shared ∨ IsOwn clause v := by
  refine always_bind fun count => ?_
  refine (Random.always_repeat (shape.always_statement always_optionalSlot) count).bind
    fun statements drawn => always_pure ?_
  exact plain_of_statements drawn.2

theorem always_optionalClauses (main : Pattern) (clause n : Nat) :
    Always (shape.optionalClauses main.unbounds clause n : Random σ (List Pattern)) fun clauses =>
      clauses.length = n ∧ (∀ pattern ∈ clauses, pattern.Plain) ∧ main.WellScoped clauses ∧
        ∀ pattern ∈ clauses, ∀ v ∈ pattern.unbounds,
          v ∈ main.unbounds ∨ ∃ number, clause ≤ number ∧ IsOwn number v := by
  induction n generalizing clause with
  | zero => exact always_pure ⟨rfl, List.forall_mem_nil _, .nil, List.forall_mem_nil _⟩
  | succ n ih =>
    refine shape.always_optionalClause.bind fun first ⟨plain, own⟩ => ?_
    refine (ih (clause + 1)).bind fun rest ⟨length, each, scope, later⟩ => always_pure ?_
    refine ⟨congrArg Nat.succ length, List.forall_mem_cons.mpr ⟨plain, each⟩, ?_, ?_⟩
    · refine .cons ?_ scope
      intro pattern member v known known'
      rcases own v known' with inherited | mine
      · exact inherited
      · rcases later pattern member v known with inherited | ⟨number, bound, other⟩
        · exact inherited
        · have same := clause_eq_of_isOwn mine other
          omega
    · refine List.forall_mem_cons.mpr ⟨?_, ?_⟩
      · intro v known
        exact (own v known).imp_right fun mine => ⟨clause, Nat.le_refl clause, mine⟩
      · intro pattern member v known
        rcases later pattern member v known with inherited | ⟨number, bound, other⟩
        · exact Or.inl inherited
        · exact Or.inr ⟨number, by omega, other⟩

theorem always_trial (usable : shape.Usable) : Always (shape.trial : Random σ Trial) fun trial =>
    trial.Fits shape ∧ trial.Plain := by
  refine shape.always_graph.bind fun graph ⟨size, drawn⟩ => ?_
  refine (shape.always_main usable).bind fun main ⟨plain, pos, le⟩ => ?_
  refine (Random.always_between (Nat.zero_le _)).bind fun count range => ?_
  refine (shape.always_optionalClauses main 0 count).bind fun optionals ⟨length, each, scope, _⟩ =>
    always_pure ?_
  refine ⟨⟨pos, le, length ▸ range.2, size, ?_,
    Pattern.checkScope_eq_ok_iff_wellScoped.mpr scope⟩, ?_, plain, each⟩
  · exact fun triple member => (drawn triple member).1
  · exact fun triple member => (drawn triple member).2

end Shape

end TripleJoin.Simulation

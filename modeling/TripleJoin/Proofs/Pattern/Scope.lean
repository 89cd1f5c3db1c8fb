import TripleJoin.Pattern.Scope
/-!
What the scope check reports. A variable is contested at a clause if an earlier clause has it too
and the main pattern does not. The check fails exactly if some variable is contested, and it names
the first clause where one is, the first such variable there and the first clause that had it before.
-/
namespace TripleJoin

section

variable {α ε : Type}

/-- The first fault in a list whose elements are judged one by one, each with those before it. -/
def firstFault? (judge : List α → α → Option ε) (before : List α) : List α → Option ε
  | [] => none
  | x :: rest => (judge before x).or (firstFault? judge (before ++ [x]) rest)

variable {judge : List α → α → Option ε} {before xs : List α} {fault : ε}

def failIf (fault? : Option ε) : Except ε Unit := fault?.elim (.ok ()) .error

theorem failIf_eq_ok_iff {fault? : Option ε} : failIf fault? = .ok () ↔ fault? = none := by
  cases fault? <;> simp [failIf]

theorem failIf_eq_error_iff {fault? : Option ε} :
    failIf fault? = .error fault ↔ fault? = some fault := by
  cases fault? <;> simp [failIf]

theorem firstFault?_eq_none_iff :
    firstFault? judge before xs = none ↔
      ∀ place, ∀ x ∈ xs[place]?, judge (before ++ xs.take place) x = none := by
  induction xs generalizing before with
  | nil => simp [firstFault?]
  | cons x xs ih =>
    rw [firstFault?, Option.or_eq_none_iff, ih]
    constructor
    · rintro ⟨here, later⟩ place y found
      cases place with
      | zero =>
        cases found
        rw [List.take_zero, List.append_nil]
        exact here
      | succ place =>
        rw [List.take_succ_cons, List.append_cons]
        exact later place y found
    · intro none
      constructor
      · simpa using none 0 x rfl
      · intro place y found
        rw [← List.append_cons]
        exact none (place + 1) y found

theorem length_take_of_found {place : Nat} {x : α} (found : x ∈ xs[place]?) :
    (xs.take place).length = place := by
  have inside := (List.getElem?_eq_some_iff.mp found).1
  rw [List.length_take]
  omega

/-- The reported fault is that of one element, and no element before it has a fault. -/
theorem firstFault?_eq_some_iff :
    firstFault? judge before xs = some fault ↔
      ∃ place, ∃ x ∈ xs[place]?, judge (before ++ xs.take place) x = some fault ∧
        ∀ i < place, ∀ y ∈ xs[i]?, judge (before ++ xs.take i) y = none := by
  induction xs generalizing before with
  | nil => simp [firstFault?]
  | cons x xs ih =>
    rw [firstFault?, Option.or_eq_some_iff, ih]
    constructor
    · rintro (here | ⟨none, place, y, found, judged, least⟩)
      · exact ⟨0, x, rfl, by simpa using here, by simp⟩
      · refine ⟨place + 1, y, found, ?_, ?_⟩
        · rw [List.take_succ_cons, List.append_cons]
          exact judged
        · intro i before_place z found
          cases i with
          | zero =>
            cases found
            rw [List.take_zero, List.append_nil]
            exact none
          | succ i =>
            rw [List.take_succ_cons, List.append_cons]
            exact least i (by omega) z found
    · rintro ⟨place, y, found, judged, least⟩
      cases place with
      | zero =>
        cases found
        left
        simpa using judged
      | succ place =>
        right
        refine ⟨by simpa using least 0 (by omega) x rfl, place, y, found, ?_, ?_⟩
        · rw [← List.append_cons]
          exact judged
        · intro i before_place z found
          rw [← List.append_cons]
          exact least (i + 1) (by omega) z found

end

namespace Pattern

def HasAt (clauses : List Pattern) (place : Nat) (v : Variable) : Prop :=
  ∃ clause ∈ clauses[place]?, v ∈ clause.unbounds

/-- Two clauses have the variable, and the main pattern does not. -/
structure Contested (main : Pattern) (clauses : List Pattern) (v : Variable)
    (clause earlier : Nat) : Prop where
  before : earlier < clause
  outside : v ∉ main.unbounds
  here : HasAt clauses clause v
  there : HasAt clauses earlier v

/-- The contest that is reported: of the first clause that has one, with the first contested
    variable of that clause, against the first clause that has the variable. -/
structure FirstContest (main : Pattern) (clauses : List Pattern) (v : Variable)
    (clause earlier : Nat) : Prop where
  contested : main.Contested clauses v clause earlier
  least_clause : ∀ i < clause, ∀ w j, ¬ main.Contested clauses w i j
  first_variable : ∃ pattern ∈ clauses[clause]?, ∃ passed rest,
    pattern.unbounds = passed ++ v :: rest ∧
      ∀ w ∈ passed, ∀ j, ¬ main.Contested clauses w clause j
  least_earlier : ∀ j < earlier, ¬ main.Contested clauses v clause j

section

variable {main clause : Pattern} {clauses : List Pattern} {v : Variable} {place earlier : Nat}
  {fault : ConfigurationError}

theorem owner?_take_eq_some_iff :
    owner? (clauses.take place) v = some earlier ↔
      earlier < place ∧ HasAt clauses earlier v ∧ ∀ i < earlier, ¬ HasAt clauses i v := by
  have at_place : ∀ {i} (inside : i < clauses.length), HasAt clauses i v ↔
      v ∈ clauses[i].unbounds := by
    intro i inside
    simp [HasAt, inside]
  rw [owner?, List.findIdx?_eq_some_iff_getElem]
  simp only [List.length_take, List.getElem_take, decide_eq_true_eq]
  constructor
  · rintro ⟨inside, has, least⟩
    have inside_all : earlier < clauses.length := by omega
    refine ⟨by omega, (at_place inside_all).mpr has, ?_⟩
    intro i before_owner
    rw [at_place (by omega)]
    exact least i before_owner
  · rintro ⟨before_place, has, least⟩
    obtain ⟨owner, found, _⟩ := id has
    have inside : earlier < clauses.length := (List.getElem?_eq_some_iff.mp found).1
    refine ⟨by omega, (at_place inside).mp has, ?_⟩
    intro i before_owner
    rw [← at_place]
    exact least i before_owner

theorem owner?_take_eq_none_iff :
    owner? (clauses.take place) v = none ↔ ∀ i < place, ¬ HasAt clauses i v := by
  constructor
  · intro none i before_place has
    obtain ⟨owner, found, member⟩ := has
    rw [owner?, List.findIdx?_eq_none_iff] at none
    have kept : owner ∈ clauses.take place :=
      List.mem_of_getElem? (i := i) (by rw [List.getElem?_take_of_lt before_place, found])
    simpa [member] using none owner kept
  · intro none
    cases owned : owner? (clauses.take place) v with
    | none => rfl
    | some earlier =>
      obtain ⟨before_place, has, _⟩ := owner?_take_eq_some_iff.mp owned
      exact absurd has (none earlier before_place)

theorem contest?_eq_none_iff (here : HasAt clauses place v) :
    contest? main (clauses.take place) v = none ↔
      ∀ earlier, ¬ main.Contested clauses v place earlier := by
  unfold contest?
  split
  · rename_i inherited
    simp only [true_iff]
    exact fun earlier contested => contested.outside inherited
  · rename_i outside
    rw [Option.map_eq_none_iff, owner?_take_eq_none_iff]
    constructor
    · exact fun none earlier contested => none earlier contested.before contested.there
    · exact fun none earlier before there => none earlier ⟨before, outside, here, there⟩

theorem contest?_eq_some_iff (here : HasAt clauses place v) :
    contest? main (clauses.take place) v = some fault ↔
      ∃ earlier, fault = .optionalScope v place earlier ∧
        main.Contested clauses v place earlier ∧
        ∀ i < earlier, ¬ main.Contested clauses v place i := by
  have length : (clauses.take place).length = place := by
    obtain ⟨clause, found, _⟩ := here
    exact length_take_of_found found
  unfold contest?
  rw [length]
  split
  · rename_i inherited
    constructor
    · exact fun absurd => nomatch absurd
    · rintro ⟨earlier, _, contested, _⟩
      exact absurd inherited contested.outside
  · rename_i outside
    simp only [Option.map_eq_some_iff, owner?_take_eq_some_iff]
    constructor
    · rintro ⟨earlier, ⟨before, there, least⟩, rfl⟩
      exact ⟨earlier, rfl, ⟨before, outside, here, there⟩,
        fun i lower contested => least i lower contested.there⟩
    · rintro ⟨earlier, rfl, contested, least⟩
      refine ⟨earlier, ⟨contested.before, contested.there, ?_⟩, rfl⟩
      intro i lower there
      exact least i lower ⟨Nat.lt_trans lower contested.before, outside, here, there⟩

theorem scopeFault?_eq_none_iff (found : clause ∈ clauses[place]?) :
    scopeFault? main (clauses.take place) clause = none ↔
      ∀ v earlier, ¬ main.Contested clauses v place earlier := by
  rw [scopeFault?, List.findSome?_eq_none_iff]
  constructor
  · intro none v earlier contested
    obtain ⟨same, found', member⟩ := contested.here
    cases Option.mem_unique found found'
    exact (contest?_eq_none_iff contested.here).mp (none v member) earlier contested
  · exact fun none v member => (contest?_eq_none_iff ⟨clause, found, member⟩).mpr (none v)

theorem scopeFault?_eq_some_iff (found : clause ∈ clauses[place]?) :
    scopeFault? main (clauses.take place) clause = some fault ↔
      ∃ v earlier, fault = .optionalScope v place earlier ∧
        main.Contested clauses v place earlier ∧
        (∃ passed rest, clause.unbounds = passed ++ v :: rest ∧
          ∀ w ∈ passed, ∀ j, ¬ main.Contested clauses w place j) ∧
        ∀ j < earlier, ¬ main.Contested clauses v place j := by
  have has : ∀ {w}, w ∈ clause.unbounds → HasAt clauses place w :=
    fun member => ⟨clause, found, member⟩
  rw [scopeFault?, List.findSome?_eq_some_iff]
  constructor
  · rintro ⟨passed, v, rest, split, faulty, none⟩
    have here : HasAt clauses place v := has (by simp [split])
    obtain ⟨earlier, same, contested, least⟩ := (contest?_eq_some_iff here).mp faulty
    refine ⟨v, earlier, same, contested, ⟨passed, rest, split, ?_⟩, least⟩
    exact fun w member =>
      (contest?_eq_none_iff (has (by simp [split, member]))).mp (none w member)
  · rintro ⟨v, earlier, same, contested, ⟨passed, rest, split, none⟩, least⟩
    refine ⟨passed, v, rest, split, ?_, ?_⟩
    · exact (contest?_eq_some_iff contested.here).mpr ⟨earlier, same, contested, least⟩
    · exact fun w member =>
        (contest?_eq_none_iff (has (by simp [split, member]))).mpr (none w member)

theorem checkScopeAfter_eq (before later : List Pattern) :
    checkScopeAfter main before later = failIf (firstFault? (scopeFault? main) before later) := by
  induction later generalizing before with
  | nil => rfl
  | cons clause later ih =>
    rw [checkScopeAfter, firstFault?]
    cases scopeFault? main before clause with
    | some fault => rfl
    | none => exact ih (before ++ [clause])

theorem checkScope_eq_error_iff :
    main.checkScope clauses = .error fault ↔
      ∃ v clause earlier, fault = .optionalScope v clause earlier ∧
        main.FirstContest clauses v clause earlier := by
  rw [checkScope, checkScopeAfter_eq, failIf_eq_error_iff, firstFault?_eq_some_iff]
  simp only [List.nil_append]
  constructor
  · rintro ⟨place, clause, found, faulty, least⟩
    obtain ⟨v, earlier, same, contested, variable_first, earlier_first⟩ :=
      (scopeFault?_eq_some_iff found).mp faulty
    refine ⟨v, place, earlier, same, contested, ?_, ⟨clause, found, variable_first⟩,
      earlier_first⟩
    intro i before w j contested'
    obtain ⟨other, found', _⟩ := contested'.here
    exact (scopeFault?_eq_none_iff found').mp (least i before other found') w j contested'
  · rintro ⟨v, place, earlier, same, first⟩
    obtain ⟨clause, found, variable_first⟩ := first.first_variable
    refine ⟨place, clause, found, ?_, ?_⟩
    · exact (scopeFault?_eq_some_iff found).mpr
        ⟨v, earlier, same, first.contested, variable_first, first.least_earlier⟩
    · exact fun i before other found' =>
        (scopeFault?_eq_none_iff found').mpr (first.least_clause i before)

theorem checkScope_eq_ok_iff :
    main.checkScope clauses = .ok () ↔
      ∀ v clause earlier, ¬ main.Contested clauses v clause earlier := by
  rw [checkScope, checkScopeAfter_eq, failIf_eq_ok_iff, firstFault?_eq_none_iff]
  simp only [List.nil_append]
  constructor
  · intro none v place earlier contested
    obtain ⟨clause, found, _⟩ := contested.here
    exact (scopeFault?_eq_none_iff found).mp (none place clause found) v earlier contested
  · exact fun none place clause found =>
      (scopeFault?_eq_none_iff found).mpr fun v earlier => none v place earlier

/-- The rule as it is stated for pairs of clauses forbids exactly the contests. -/
theorem wellScoped_iff :
    main.WellScoped clauses ↔ ∀ v clause earlier, ¬ main.Contested clauses v clause earlier := by
  rw [WellScoped, List.pairwise_iff_getElem]
  constructor
  · rintro apart v place earlier ⟨before, outside, ⟨b, found_b, here⟩, ⟨a, found_a, there⟩⟩
    obtain ⟨inside_b, rfl⟩ := List.getElem?_eq_some_iff.mp found_b
    obtain ⟨inside_a, rfl⟩ := List.getElem?_eq_some_iff.mp found_a
    exact outside (apart earlier place inside_a inside_b before v here there)
  · intro none i j inside_i inside_j before v here there
    refine Decidable.byContradiction fun outside => ?_
    exact none v j i ⟨before, outside, ⟨_, List.getElem?_eq_getElem inside_j, here⟩,
      ⟨_, List.getElem?_eq_getElem inside_i, there⟩⟩

end

end Pattern

end TripleJoin

import TripleJoin.Proofs.Text.Blanks
import TripleJoin.Selection
/-!
Reading variables and selections back from the texts they are shown as. Reading a variable and reading
a selection agree on what a blank is, so a selection is read word by word, and the first word that is
no variable is the one that is reported.
-/
namespace TripleJoin

open Text

namespace Variable

/-- The text without the question mark it may start with. Only one is taken off. -/
def bare (cs : List Char) : List Char :=
  match cs with
  | '?' :: rest => rest
  | _ => cs

def IsName (cs : List Char) : Prop :=
  cs ≠ [] ∧ ∀ c ∈ cs, isBlank c = false ∧ c ≠ '?'

/-- The variable that a word is read as. -/
def ofWord (word : List Char) : Variable := ⟨String.ofList (bare word)⟩

/-- Some text is read as the variable. -/
def Parsed (v : Variable) : Prop := ∃ text, parse text = .ok v

theorem isName_iff (cs : List Char) :
    (cs.isEmpty || cs.any fun c => isBlank c || c == '?') = false ↔ IsName cs := by
  simp [IsName]

instance (cs : List Char) : Decidable (IsName cs) :=
  decidable_of_iff _ (isName_iff cs)

theorem parse_eq {text : String} {core : List Char} (trims : Trims text.toList core) :
    parse text =
      if IsName (bare core) then .ok (ofWord core) else .error (.invalidVariable text) := by
  have read : parse text =
      if (bare core).isEmpty || (bare core).any fun c => isBlank c || c == '?' then
        .error (.invalidVariable text)
      else .ok (ofWord core) := by
    rw [← trims.eq]
    rfl
  rw [read]
  by_cases name : IsName (bare core)
  · rw [(isName_iff _).mpr name, if_pos name]
    rfl
  · rw [eq_true_of_ne_false (mt (isName_iff _).mp name), if_neg name]
    rfl

theorem parse_word {word : List Char} (isWord : IsWord word) :
    parse (String.ofList word) =
      if IsName (bare word) then .ok (ofWord word)
      else .error (.invalidVariable (String.ofList word)) := by
  have trims : Trims (String.ofList word).toList word := by
    rw [String.toList_ofList]
    exact isWord.trims
  exact parse_eq trims

theorem parse_eq_ok_iff {text : String} {core : List Char} (trims : Trims text.toList core)
    (v : Variable) : parse text = .ok v ↔ IsName (bare core) ∧ v.name.toList = bare core := by
  rw [parse_eq trims]
  split
  · rename_i name
    constructor
    · intro same
      cases same
      exact ⟨name, String.toList_ofList⟩
    · rintro ⟨-, same⟩
      rw [ofWord, ← same, String.ofList_toList]
  · rename_i other
    constructor
    · intro fault
      cases fault
    · intro name
      exact absurd name.1 other

theorem text_toList (v : Variable) : v.text.toList = '?' :: v.name.toList := by
  simp [text]

theorem isWord_text {v : Variable} (name : IsName v.name.toList) : IsWord v.text.toList := by
  rw [text_toList]
  refine ⟨List.cons_ne_nil _ _, List.forall_mem_cons.mpr ⟨by decide, ?_⟩⟩
  exact fun c member => (name.2 c member).1

theorem bare_text (v : Variable) : bare v.text.toList = v.name.toList := by
  rw [text_toList]
  rfl

theorem ofWord_text (v : Variable) : ofWord v.text.toList = v := by
  rw [ofWord, bare_text, String.ofList_toList]

theorem parse_text {v : Variable} (name : IsName v.name.toList) : parse v.text = .ok v := by
  rw [parse_eq (isWord_text name).trims, bare_text, if_pos name, ofWord_text]

theorem parsed_iff {v : Variable} : v.Parsed ↔ IsName v.name.toList := by
  constructor
  · rintro ⟨text, read⟩
    obtain ⟨name, same⟩ := (parse_eq_ok_iff (trims_trim _) v).mp read
    rwa [same]
  · intro name
    exact ⟨v.text, parse_text name⟩

end Variable

namespace Selection

open Variable

/-- Reads each of the words as a variable. -/
def readWords (ws : List (List Char)) : Except ConfigurationError (List Variable) :=
  ws.mapM fun word => Variable.parse (String.ofList word)

theorem readWords_of_names {ws : List (List Char)} (each : ∀ word ∈ ws, IsWord word)
    (names : ∀ word ∈ ws, IsName (bare word)) : readWords ws = .ok (ws.map ofWord) := by
  induction ws with
  | nil => rfl
  | cons word ws ih =>
    rw [List.forall_mem_cons] at each names
    have later := ih each.2 names.2
    unfold readWords at later ⊢
    rw [List.mapM_cons, parse_word each.1, if_pos names.1, later]
    rfl

theorem readWords_of_fault {before after : List (List Char)} {word : List Char}
    (each : ∀ w ∈ before ++ word :: after, IsWord w) (names : ∀ w ∈ before, IsName (bare w))
    (fault : ¬ IsName (bare word)) :
    readWords (before ++ word :: after) = .error (.invalidVariable (String.ofList word)) := by
  rw [List.forall_mem_append, List.forall_mem_cons] at each
  have earlier := readWords_of_names each.1 names
  unfold readWords at earlier ⊢
  rw [List.mapM_append, earlier, List.mapM_cons, parse_word each.2.1, if_neg fault]
  rfl

/-- A selection that is not everything is read from the words of the text, wherever they stand. -/
theorem parse_eq_readWords {text : String} {core : List Char} {ws : List (List Char)}
    (trims : Trims text.toList core) (spaced : Spaced text.toList ws)
    (some : ¬ (core = [] ∨ core = ['*'])) : parse text = (readWords ws).map .columns := by
  have cut : words core = ws := trims.words_eq.trans spaced.words_eq
  simp only [parse, trims.eq, if_neg some, cut]
  rfl

theorem parse_eq_all_iff {text : String} {core : List Char} (trims : Trims text.toList core) :
    parse text = .ok .all ↔ core = [] ∨ core = ['*'] := by
  by_cases everything : core = [] ∨ core = ['*']
  · simp [parse, trims.eq, everything]
  · rw [parse_eq_readWords trims (spaced_words _) everything]
    cases readWords (words text.toList) <;> simp [Except.map, everything]

/-- A star alone is no list of variables, since a variable of that name is shown with its question
    mark. -/
theorem not_everything_of_shown {vs : List Variable} {core : List Char} (filled : vs ≠ [])
    (spaced : Spaced core (vs.map fun v => v.text.toList)) : ¬ (core = [] ∨ core = ['*']) := by
  have cut := spaced.words_eq
  rintro (rfl | rfl)
  · exact filled (List.map_eq_nil_iff.mp cut.symm)
  · have star : ['*'] ∈ vs.map fun v => v.text.toList := cut ▸ List.mem_singleton_self ['*']
    obtain ⟨v, -, shown⟩ := List.mem_map.mp star
    rw [text_toList] at shown
    cases shown

theorem parse_of_shown {vs : List Variable} {text : String} (filled : vs ≠ [])
    (names : ∀ v ∈ vs, IsName v.name.toList)
    (spaced : Spaced text.toList (vs.map fun v => v.text.toList)) :
    parse text = .ok (.columns vs) := by
  have trims := trims_trim text.toList
  have core : Spaced (trim text.toList) (vs.map fun v => v.text.toList) :=
    words_eq_iff.mp (trims.words_eq.trans spaced.words_eq)
  have bareNames : ∀ word ∈ vs.map fun v => v.text.toList, IsName (bare word) := by
    rw [List.forall_mem_map]
    intro v member
    rw [bare_text]
    exact names v member
  have same : (vs.map fun v => v.text.toList).map ofWord = vs :=
    List.map_map.trans (List.map_id'' ofWord_text vs)
  rw [parse_eq_readWords trims spaced (not_everything_of_shown filled core),
    readWords_of_names spaced.isWord bareNames, same]
  rfl

/-- Variables and selections are read back from the texts they are shown as. Every text has one core
    and one list of words. It is a variable if the core, without one question mark before it, is a name.
    Variables with blanks between them and around them are the columns in their order. Any other
    selection is everything, the first word that is no variable as an error, or a column for each
    word. -/
theorem shown_texts_read_back :
    (∀ text, (∃! core, Trims text core) ∧ ∃! words, Spaced text words) ∧
    (∀ (text : String) (core : List Char), Trims text.toList core →
      ((∃ v, Variable.parse text = .ok v) ↔ IsName (bare core)) ∧
      ∀ v, Variable.parse text = .ok v →
        v.name.toList = bare core ∧ Variable.parse v.text = .ok v) ∧
    (∀ (vs : List Variable) (text : String), vs ≠ [] → (∀ v ∈ vs, v.Parsed) →
      Spaced text.toList (vs.map fun v => v.text.toList) → parse text = .ok (.columns vs)) ∧
    ∀ (text : String) (core : List Char) (words : List (List Char)),
      Trims text.toList core → Spaced text.toList words →
      (parse text = .ok .all ↔ core = [] ∨ core = ['*']) ∧
      (¬ (core = [] ∨ core = ['*']) →
        (∀ before word after, words = before ++ word :: after →
          (∀ w ∈ before, IsName (bare w)) → ¬ IsName (bare word) →
          parse text = .error (.invalidVariable (String.ofList word))) ∧
        ((∀ word ∈ words, IsName (bare word)) →
          parse text = .ok (.columns (words.map ofWord)))) := by
  refine ⟨fun text => ⟨existsUnique_core text, existsUnique_words text⟩, ?single, ?shown, ?selection⟩
  case single =>
    intro text core trims
    have read := parse_eq_ok_iff trims
    constructor
    · constructor
      · rintro ⟨v, success⟩
        exact ((read v).mp success).1
      · intro name
        exact ⟨ofWord core, (read _).mpr ⟨name, String.toList_ofList⟩⟩
    · intro v success
      obtain ⟨name, same⟩ := (read v).mp success
      rw [← same] at name
      exact ⟨same, parse_text name⟩
  case shown =>
    intro vs text filled parsed spaced
    exact parse_of_shown filled (fun v member => parsed_iff.mp (parsed v member)) spaced
  case selection =>
    intro text core words trims spaced
    refine ⟨parse_eq_all_iff trims, ?_⟩
    intro some
    rw [parse_eq_readWords trims spaced some]
    constructor
    · rintro before word after rfl names fault
      rw [readWords_of_fault spaced.isWord names fault]
      rfl
    · intro names
      rw [readWords_of_names spaced.isWord names]
      rfl

/-- Variables called like the star and like a keyword, blanks of several kinds, and a word that is no
    variable after one that is and before another that is not. -/
theorem shown_texts_read_back_of_odd_names :
    (∃ v, Variable.parse "\u00a0?*\n" = .ok v) ∧ (¬ ∃ v, Variable.parse "??x" = .ok v) ∧
      parse "\t?*\u3000 ?and\n" = .ok (.columns [⟨"*"⟩, ⟨"and"⟩]) ∧
      parse "\u2003*\u0085" = .ok .all ∧ parse "s ?o? ??" = .error (.invalidVariable "?o?") ∧
      parse " s\n?o " = .ok (.columns [⟨"s"⟩, ⟨"o"⟩]) := by
  obtain ⟨-, single, shown, selection⟩ := shown_texts_read_back
  refine ⟨?_, ?_, ?_, ?_, ?_, ?_⟩
  · exact (single _ "?*".toList (by decide +kernel)).1.mpr (by decide +kernel)
  · exact mt (single _ "??x".toList (by decide +kernel)).1.mp (by decide +kernel)
  · have parsed : ∀ v ∈ [(⟨"*"⟩ : Variable), ⟨"and"⟩], v.Parsed := by
      intro v member
      rw [parsed_iff]
      revert v
      decide +kernel
    exact shown _ _ (by decide) parsed (by decide +kernel)
  · exact (selection _ "*".toList ["*".toList] (by decide +kernel) (by decide +kernel)).1.mpr
      (.inr rfl)
  · have read := selection "s ?o? ??" "s ?o? ??".toList ["s".toList, "?o?".toList, "??".toList]
      (by decide +kernel) (by decide +kernel)
    exact (read.2 (by decide +kernel)).1 ["s".toList] "?o?".toList ["??".toList] rfl
      (by decide +kernel) (by decide +kernel)
  · have read := selection " s\n?o " "s\n?o".toList ["s".toList, "?o".toList]
      (by decide +kernel) (by decide +kernel)
    exact (read.2 (by decide +kernel)).2 (by decide +kernel)

end Selection

end TripleJoin

import Mathlib.Data.List.Basic
import Mathlib.Data.List.TakeWhile
import TripleJoin.Text.Blank
/-!
Trimming a text and cutting it into words, said without the functions that do it. A text has one core
between the blanks at its ends and one list of words between its blanks, and these are what trimming
and cutting give.
-/
namespace TripleJoin.Text

def AllBlank (cs : List Char) : Prop := ∀ c ∈ cs, isBlank c

instance (cs : List Char) : Decidable (AllBlank cs) :=
  decidable_of_iff (cs.all isBlank) List.all_eq_true

/-- The core is what is left of the text without the blanks at its ends. -/
def Trims (text core : List Char) : Prop :=
  ∃ before after, AllBlank before ∧ AllBlank after ∧ text = before ++ core ++ after ∧
    (∀ c ∈ core.head?, isBlank c = false) ∧ ∀ c ∈ core.getLast?, isBlank c = false

theorem dropWhile_eq_self {cs : List Char} (starts : ∀ c ∈ cs.head?, isBlank c = false) :
    cs.dropWhile isBlank = cs := by
  cases cs with
  | nil => rfl
  | cons c cs => exact List.dropWhile_cons_of_neg (by simp [starts c rfl])

theorem dropWhile_blank_append {before cs : List Char} (blank : AllBlank before) :
    (before ++ cs).dropWhile isBlank = cs.dropWhile isBlank :=
  List.dropWhile_append_of_pos blank

theorem AllBlank.reverse {cs : List Char} (blank : AllBlank cs) : AllBlank cs.reverse :=
  fun c member => blank c (List.mem_reverse.mp member)

theorem Trims.eq {text core : List Char} (trims : Trims text core) : trim text = core := by
  obtain ⟨before, after, leading, trailing, rfl, starts, ends⟩ := trims
  have front : (before ++ core ++ after).dropWhile isBlank = (core ++ after).dropWhile isBlank := by
    rw [List.append_assoc, dropWhile_blank_append leading]
  unfold trim
  rw [front]
  cases core with
  | nil =>
    rw [List.nil_append, List.dropWhile_eq_nil_iff.mpr trailing]
    rfl
  | cons c cs =>
    have kept : (c :: cs ++ after).dropWhile isBlank = c :: cs ++ after :=
      dropWhile_eq_self (by simpa using starts)
    have back : (c :: cs).reverse.dropWhile isBlank = (c :: cs).reverse :=
      dropWhile_eq_self (by rwa [List.head?_reverse])
    rw [kept, List.reverse_append, dropWhile_blank_append trailing.reverse, back,
      List.reverse_reverse]

theorem head_dropWhile (cs : List Char) :
    ∀ c ∈ (cs.dropWhile isBlank).head?, isBlank c = false := by
  intro c first
  have stop := List.head?_dropWhile_not isBlank cs
  rw [first] at stop
  exact stop

theorem allBlank_takeWhile (cs : List Char) : AllBlank (cs.takeWhile isBlank) :=
  fun _ member => List.mem_takeWhile_imp member

theorem trims_trim (text : List Char) : Trims text (trim text) := by
  let rest := text.dropWhile isBlank
  have split : text.takeWhile isBlank ++ rest = text := List.takeWhile_append_dropWhile
  have back : trim text ++ (rest.reverse.takeWhile isBlank).reverse = rest := by
    rw [trim, ← List.reverse_append, List.takeWhile_append_dropWhile, List.reverse_reverse]
  refine ⟨text.takeWhile isBlank, (rest.reverse.takeWhile isBlank).reverse,
    allBlank_takeWhile text, (allBlank_takeWhile _).reverse, ?_, ?_, ?_⟩
  · rw [List.append_assoc, back, split]
  · intro c first
    apply head_dropWhile text c
    change c ∈ rest.head?
    rw [← back, List.head?_append, first]
    rfl
  · intro c last
    rw [trim, List.getLast?_reverse] at last
    exact head_dropWhile _ c last

theorem trim_eq_iff {text core : List Char} : trim text = core ↔ Trims text core :=
  ⟨fun is => is ▸ trims_trim text, Trims.eq⟩

instance (text core : List Char) : Decidable (Trims text core) :=
  decidable_of_iff _ trim_eq_iff

theorem existsUnique_core (text : List Char) : ∃! core, Trims text core :=
  ⟨trim text, trims_trim text, fun _ trims => trims.eq.symm⟩

def IsWord (cs : List Char) : Prop := cs ≠ [] ∧ ∀ c ∈ cs, isBlank c = false

theorem IsWord.trims {word : List Char} (isWord : IsWord word) : Trims word word :=
  ⟨[], [], List.forall_mem_nil _, List.forall_mem_nil _, (List.append_nil word).symm,
    fun c first => isWord.2 c (List.mem_of_mem_head? first),
    fun c last => isWord.2 c (List.mem_of_mem_getLast? last)⟩

/-- The text is these words, with blanks between them and any blanks around them. -/
inductive Spaced : List Char → List (List Char) → Prop where
  | blank {gap : List Char} (leading : AllBlank gap) : Spaced gap []
  | word {gap word rest : List Char} {words : List (List Char)} (leading : AllBlank gap)
      (isWord : IsWord word) (ends : ∀ c ∈ rest.head?, isBlank c) (others : Spaced rest words) :
      Spaced (gap ++ word ++ rest) (word :: words)

theorem cutWords_cons_blank {c : Char} (blank : isBlank c) (cs : List Char) :
    cutWords (c :: cs) = ([], words cs) := by
  simp only [cutWords, blank, ↓reduceIte]
  rfl

theorem Spaced.isWord {text : List Char} {ws : List (List Char)} (spaced : Spaced text ws) :
    ∀ word ∈ ws, IsWord word := by
  induction spaced with
  | blank => exact List.forall_mem_nil _
  | word _ first _ _ ih => exact List.forall_mem_cons.mpr ⟨first, ih⟩

theorem words_cons_blank {c : Char} (blank : isBlank c) (cs : List Char) :
    words (c :: cs) = words cs := by
  rw [words, cutWords_cons_blank blank]
  rfl

theorem words_blank_append {gap : List Char} (blank : AllBlank gap) (cs : List Char) :
    words (gap ++ cs) = words cs := by
  induction gap with
  | nil => rfl
  | cons c gap ih =>
    obtain ⟨first, others⟩ := List.forall_mem_cons.mp blank
    rw [List.cons_append, words_cons_blank first, ih others]

theorem cutWords_word_append {word rest : List Char} (visible : ∀ c ∈ word, isBlank c = false)
    (ends : ∀ c ∈ rest.head?, isBlank c) : cutWords (word ++ rest) = (word, words rest) := by
  induction word with
  | nil =>
    cases rest with
    | nil => rfl
    | cons c rest =>
      have blank : isBlank c := ends c rfl
      rw [words_cons_blank blank, List.nil_append, cutWords_cons_blank blank]
  | cons c word ih =>
    obtain ⟨first, others⟩ := List.forall_mem_cons.mp visible
    simp [cutWords, ih others, first]

theorem Spaced.words_eq {text : List Char} {ws : List (List Char)} (spaced : Spaced text ws) :
    words text = ws := by
  induction spaced with
  | @blank gap leading =>
    have cut := words_blank_append leading []
    rwa [List.append_nil] at cut
  | @word gap word rest ws leading isWord ends _ ih =>
    rw [List.append_assoc, words_blank_append leading, words,
      cutWords_word_append isWord.2 ends, consWord, ih]
    simp [isWord.1]

theorem Spaced.blank_append {gap text : List Char} {ws : List (List Char)} (blank : AllBlank gap)
    (spaced : Spaced text ws) : Spaced (gap ++ text) ws := by
  have both : ∀ {gap' : List Char}, AllBlank gap' → AllBlank (gap ++ gap') := fun blank' =>
    List.forall_mem_append.mpr ⟨blank, blank'⟩
  cases spaced with
  | blank leading => exact .blank (both leading)
  | word leading isWord ends others =>
    rw [← List.append_assoc, ← List.append_assoc]
    exact .word (both leading) isWord ends others

theorem Spaced.append_blank {gap text : List Char} {ws : List (List Char)} (blank : AllBlank gap)
    (spaced : Spaced text ws) : Spaced (text ++ gap) ws := by
  induction spaced with
  | blank leading => exact .blank (List.forall_mem_append.mpr ⟨leading, blank⟩)
  | @word _ word rest ws leading isWord ends _ ih =>
    have ends' : ∀ c ∈ (rest ++ gap).head?, isBlank c := by
      intro c first
      cases rest with
      | nil => exact blank c (List.mem_of_mem_head? first)
      | cons => exact ends c first
    rw [List.append_assoc]
    exact .word leading isWord ends' ih

theorem Spaced.consWord {gap word rest : List Char} {ws : List (List Char)}
    (leading : AllBlank gap) (visible : ∀ c ∈ word, isBlank c = false)
    (ends : ∀ c ∈ rest.head?, isBlank c) (spaced : Spaced rest ws) :
    Spaced (gap ++ word ++ rest) (consWord word ws) := by
  cases word with
  | nil =>
    rw [List.append_nil]
    exact spaced.blank_append leading
  | cons c word => exact .word leading ⟨List.cons_ne_nil c word, visible⟩ ends spaced

theorem exists_cutWords (text : List Char) :
    ∃ rest, text = (cutWords text).1 ++ rest ∧ (∀ c ∈ (cutWords text).1, isBlank c = false) ∧
      (∀ c ∈ rest.head?, isBlank c) ∧ Spaced rest (cutWords text).2 := by
  induction text with
  | nil => exact ⟨[], rfl, by simp [cutWords], by simp, .blank (by simp [AllBlank])⟩
  | cons c text ih =>
    obtain ⟨rest, split, visible, ends, spaced⟩ := ih
    by_cases blank : isBlank c
    · refine ⟨c :: text, ?_⟩
      have single : AllBlank [c] := List.forall_mem_singleton.mpr blank
      have later := Spaced.consWord single visible ends spaced
      rw [List.append_assoc, ← split] at later
      simpa [cutWords, blank] using later
    · refine ⟨rest, ?_⟩
      simpa [cutWords, blank, ← split] using ⟨visible, ends, spaced⟩

theorem spaced_words (text : List Char) : Spaced text (words text) := by
  obtain ⟨rest, split, visible, ends, spaced⟩ := exists_cutWords text
  have nothing : AllBlank [] := List.forall_mem_nil _
  have all := Spaced.consWord nothing visible ends spaced
  rwa [List.nil_append, ← split] at all

theorem words_eq_iff {text : List Char} {ws : List (List Char)} :
    words text = ws ↔ Spaced text ws :=
  ⟨fun is => is ▸ spaced_words text, Spaced.words_eq⟩

instance (text : List Char) (ws : List (List Char)) : Decidable (Spaced text ws) :=
  decidable_of_iff _ words_eq_iff

theorem existsUnique_words (text : List Char) : ∃! ws, Spaced text ws :=
  ⟨words text, spaced_words text, fun _ spaced => spaced.words_eq.symm⟩

theorem Trims.words_eq {text core : List Char} (trims : Trims text core) :
    words core = words text := by
  obtain ⟨before, after, leading, trailing, rfl, -, -⟩ := trims
  have whole : Spaced (before ++ core ++ after) (words core) :=
    ((spaced_words core).blank_append leading).append_blank trailing
  exact whole.words_eq.symm

end TripleJoin.Text

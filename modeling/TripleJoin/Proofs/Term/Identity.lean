import TripleJoin.Proofs.Sorting
/-!
The order of terms and identity. Terms tie only if they are written alike, since ties of numbers are
broken by writing, and the order looks the same from both sides. This holds of all terms, also of
those among which the order is not transitive.
-/
namespace TripleJoin

namespace Literal

theorem eq_of_writing {a b : Literal} (lexical : a.lexical = b.lexical)
    (datatype : a.datatype = b.datatype) (language : a.language = b.language) : a = b := by
  cases a
  cases b
  exact congr (congr (congrArg Literal.mk lexical) datatype) language

instance : Std.LawfulEqCmp compareWriting where
  eq_of_compare {a b} tie := by
    obtain ⟨lexical, datatype, language⟩ :
        a.lexical = b.lexical ∧ a.datatype = b.datatype ∧ a.language = b.language := by
      simpa only [compareWriting, Ordering.then_eq_eq, Std.LawfulEqOrd.compare_eq_iff_eq] using tie
    exact eq_of_writing lexical datatype language

/-- A literal with a number never ties with one that has none, and all others that tie are written
    alike. -/
theorem compareWriting_of_compare {a b : Literal} (tie : a.compare b = .eq) :
    a.compareWriting b = .eq := by
  unfold compare at tie
  cases first : a.numeric with
  | some x =>
    cases second : b.numeric with
    | some y =>
      rw [first, second] at tie
      exact (Ordering.then_eq_eq.mp tie).2
    | none =>
      rw [first, second] at tie
      cases tie
  | none =>
    cases second : b.numeric with
    | some y =>
      rw [first, second] at tie
      cases tie
    | none =>
      rw [first, second] at tie
      exact tie

theorem eq_of_compare {a b : Literal} (tie : a.compare b = .eq) : a = b :=
  Std.LawfulEqCmp.eq_of_compare (compareWriting_of_compare tie)

end Literal

namespace Term

theorem eq_of_within {a b : Term} (ranks : a.kindRank = b.kindRank) (tie : a.within b = .eq) :
    a = b := by
  cases a with
  | blank a =>
    cases b with
    | blank b => exact congrArg blank (Std.LawfulEqOrd.eq_of_compare tie)
    | _ => cases ranks
  | iri a =>
    cases b with
    | iri b => exact congrArg iri (Std.LawfulEqOrd.eq_of_compare tie)
    | _ => cases ranks
  | literal a =>
    cases b with
    | literal b => exact congrArg literal (Literal.eq_of_compare tie)
    | _ => cases ranks

instance : Std.LawfulEqCmp Term.compare where
  eq_of_compare {a b} tie := by
    rw [compare_eq_kind, Ordering.then_eq_eq] at tie
    exact eq_of_within (Std.LawfulEqOrd.eq_of_compare tie.1) tie.2

/-- Sorting tells all terms apart, and it does so alike from both sides. -/
theorem compare_tells_apart (a b : Term) :
    (a.compare b = .eq ↔ a = b) ∧ b.compare a = (a.compare b).swap :=
  ⟨Std.LawfulEqCmp.compare_eq_iff_eq, Std.OrientedCmp.eq_swap⟩

/-- One number in two spellings. -/
example : (Term.literal (.typed "01" (xsd "integer"))).compareValues
      (.literal (.typed "1" (xsd "integer"))) = some .eq ∧
    (Term.literal (.typed "01" (xsd "integer"))).compare
      (.literal (.typed "1" (xsd "integer"))) = .lt := by
  decide

end Term

end TripleJoin

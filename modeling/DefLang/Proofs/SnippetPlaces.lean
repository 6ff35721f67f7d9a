import DefLang.Snippet
import Mathlib.Data.List.Basic

/-!
# Places in a source

An offset names a place in a source when it falls between two of its characters
or lies beyond its end. An offset that names a place is shown by a snippet.
-/
namespace DefLang

namespace Text

/-- The offset falls between two characters of the text, or at one of its ends. -/
def IsBoundary (text : List Char) (offset : Nat) : Prop :=
  ∃ before after, before ++ after = text ∧ byteLength before = offset

theorem isBoundary_iff_splitAt? {text : List Char} {offset : Nat} :
    IsBoundary text offset ↔ (splitAt? text offset).isSome := by
  rw [Option.isSome_iff_exists]
  constructor
  · rintro ⟨before, after, cut⟩
    exact ⟨(before, after), splitAt?_eq_some_iff.mpr cut⟩
  · rintro ⟨⟨before, after⟩, cut⟩
    exact ⟨before, after, splitAt?_eq_some_iff.mp cut⟩

instance (text : List Char) (offset : Nat) : Decidable (IsBoundary text offset) :=
  decidable_of_iff _ isBoundary_iff_splitAt?.symm

theorem isBoundary_byteLength (text : List Char) : IsBoundary text (byteLength text) :=
  ⟨text, [], List.append_nil text, rfl⟩

theorem IsBoundary.le {text : List Char} {offset : Nat} (boundary : IsBoundary text offset) :
    offset ≤ byteLength text := by
  obtain ⟨before, after, rfl, rfl⟩ := boundary
  rw [byteLength_append]
  omega

end Text

namespace Snippet

/-- The offset falls between two characters of the source or lies beyond its end. -/
def IsPlace (source : String) (offset : Nat) : Prop :=
  Text.IsBoundary source.toList offset ∨ Text.byteLength source.toList ≤ offset

instance (source : String) (offset : Nat) : Decidable (IsPlace source offset) :=
  inferInstanceAs (Decidable (_ ∨ _))

theorem exists_at?_of_isPlace {source : String} {offset : Nat} (place : IsPlace source offset) :
    ∃ snippet, at? source offset = some snippet := by
  have boundary : Text.IsBoundary source.toList
      (min offset (Text.byteLength source.toList)) := by
    rcases place with boundary | beyond
    · rwa [Nat.min_eq_left boundary.le]
    · rw [Nat.min_eq_right beyond]
      exact Text.isBoundary_byteLength source.toList
  obtain ⟨before, after, cut⟩ := boundary
  have split := Text.splitAt?_eq_some_iff.mpr cut
  refine ⟨between before after, ?_⟩
  simp only [at?, split]

/-- Both offsets are shown, and in the same way. -/
def SamePlace (source : String) (first second : Nat) : Prop :=
  ∃ snippet, at? source first = some snippet ∧ at? source second = some snippet

theorem samePlace_of_isPlace {source : String} {offset : Nat} (place : IsPlace source offset) :
    SamePlace source offset offset := by
  obtain ⟨snippet, shown⟩ := exists_at?_of_isPlace place
  exact ⟨snippet, shown, shown⟩

end Snippet

end DefLang

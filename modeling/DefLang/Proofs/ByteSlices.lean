import DefLang.Proofs.SourceLines

/-!
# Snippets cut out by byte offsets

On a list of characters nothing can be cut in the wrong place. Here a text is
searched byte by byte and cut at the byte offsets that are found, where a cut is
refused outside the text and inside a character. A class that does not tell
apart the characters beyond ASCII is recognised on single bytes, so a run of its
bytes ends between two characters. The line around a place is such a run on both
sides of it: once the place itself is a boundary, no further cut is refused, and
the snippet is the same.
-/
namespace DefLang

namespace Text

/-- The bytes of a text in UTF-8. -/
def bytes (text : List Char) : List UInt8 := text.flatMap String.utf8EncodeChar

theorem length_bytes (text : List Char) : (bytes text).length = byteLength text := by
  induction text with
  | nil => rfl
  | cons character rest inductionHypothesis =>
      rw [bytes] at inductionHypothesis
      rw [bytes, List.flatMap_cons, List.length_append, String.length_utf8EncodeChar,
        inductionHypothesis, byteLength_cons]

/-- The part of a text between two byte offsets. There is none when the offsets
are out of order or when one of them is no boundary. -/
def slice? (text : List Char) (first last : Nat) : Option (List Char) := do
  let (before, _) ← splitAt? text last
  let (_, part) ← splitAt? before first
  return part

section Slice

variable {text before part after : List Char}

theorem slice?_of_append (split : before ++ part ++ after = text) :
    slice? text (byteLength before) (byteLength before + byteLength part) = some part := by
  rw [slice?, ← split, ← byteLength_append, splitAt?_append]
  simp only [Option.bind_eq_bind, Option.bind_some, splitAt?_append]
  rfl

theorem slice?_start (split : part ++ after = text) :
    slice? text 0 (byteLength part) = some part := by
  have fromStart : [] ++ part ++ after = text := split
  simpa using slice?_of_append fromStart

theorem slice?_end (split : before ++ part = text) :
    slice? text (byteLength before) (byteLength text) = some part := by
  have toEnd : before ++ part ++ [] = text := by rw [List.append_nil, split]
  have cut := slice?_of_append toEnd
  rwa [← byteLength_append, split] at cut

theorem slice?_eq_none {last : Nat} (noBoundary : splitAt? text last = none) (first : Nat) :
    slice? text first last = none := by
  rw [slice?, noBoundary]
  rfl

end Slice

/-- Whether a byte belongs to a class when it is taken for a character. -/
def onByte (isMember : Char → Bool) (byte : UInt8) : Bool := isMember (Char.ofUInt8 byte)

/-- The class contains all the characters beyond ASCII, or none of them. -/
def IsAsciiClass (isMember : Char → Bool) : Prop :=
  ∃ beyond, ∀ character : Char, 128 ≤ character.toNat → isMember character = beyond

/-- A character is one byte within ASCII, and beyond it no byte of it is in ASCII. -/
theorem utf8EncodeChar_cases (character : Char) :
    (character.toNat < 128 ∧
      String.utf8EncodeChar character = [UInt8.ofNat character.toNat]) ∨
    (128 ≤ character.toNat ∧
      ∀ byte ∈ String.utf8EncodeChar character, 128 ≤ byte.toNat) := by
  have value : character.val.toNat = character.toNat := rfl
  have atLeast (number : Nat) (least : 128 ≤ number) (small : number < 256) :
      128 ≤ (UInt8.ofNat number).toNat := by
    rw [UInt8.toNat_ofNat_of_lt' small]
    exact least
  rw [String.utf8EncodeChar]
  simp only [value]
  split
  · exact Or.inl ⟨by omega, rfl⟩
  · refine Or.inr ⟨by omega, ?_⟩
    split
    · simp only [List.forall_mem_cons]
      exact ⟨atLeast _ (by omega) (by omega), atLeast _ (by omega) (by omega), by simp⟩
    split
    · simp only [List.forall_mem_cons]
      exact ⟨atLeast _ (by omega) (by omega), atLeast _ (by omega) (by omega),
        atLeast _ (by omega) (by omega), by simp⟩
    · simp only [List.forall_mem_cons]
      exact ⟨atLeast _ (by omega) (by omega), atLeast _ (by omega) (by omega),
        atLeast _ (by omega) (by omega), atLeast _ (by omega) (by omega), by simp⟩

theorem toNat_ofUInt8 (byte : UInt8) : (Char.ofUInt8 byte).toNat = byte.toNat := rfl

/-- A run is found in any encoding of the characters by bytes of their class. -/
theorem takeWhile_flatMap {isMember : Char → Bool} {encode : Char → List UInt8}
    {isByte : UInt8 → Bool}
    (nonempty : ∀ character, encode character ≠ [])
    (sameClass : ∀ character, ∀ byte ∈ encode character, isByte byte = isMember character)
    (text : List Char) :
    (text.flatMap encode).takeWhile isByte = (text.takeWhile isMember).flatMap encode := by
  induction text with
  | nil => rfl
  | cons character rest inductionHypothesis =>
      have sameAsCharacter := sameClass character
      rw [List.flatMap_cons]
      cases inRun : isMember character with
      | true =>
          rw [inRun] at sameAsCharacter
          rw [List.takeWhile_append_of_pos sameAsCharacter, inductionHypothesis,
            List.takeWhile_cons_of_pos inRun, List.flatMap_cons]
      | false =>
          rw [inRun] at sameAsCharacter
          obtain ⟨byte, later, encoded⟩ := List.exists_cons_of_ne_nil (nonempty character)
          have outside : isByte byte = false := sameAsCharacter byte (by simp [encoded])
          simp [encoded, outside, inRun]

namespace IsAsciiClass

variable {isMember : Char → Bool}

/-- Every byte of a character is in the class if the character is. -/
theorem onByte_eq (ascii : IsAsciiClass isMember) {character : Char} {byte : UInt8}
    (member : byte ∈ String.utf8EncodeChar character) :
    onByte isMember byte = isMember character := by
  rcases utf8EncodeChar_cases character with ⟨small, encoded⟩ | ⟨large, allLarge⟩
  · obtain rfl : byte = UInt8.ofNat character.toNat := by simpa [encoded] using member
    have same : Char.ofUInt8 (UInt8.ofNat character.toNat) = character := by
      apply Char.toNat_inj.mp
      rw [toNat_ofUInt8, UInt8.toNat_ofNat_of_lt' (Nat.lt_trans small (by decide))]
    rw [onByte, same]
  · obtain ⟨beyond, constant⟩ := ascii
    rw [onByte, constant character large]
    exact constant _ (allLarge byte member)

theorem takeWhile_bytes (ascii : IsAsciiClass isMember) (text : List Char) :
    (bytes text).takeWhile (onByte isMember) = bytes (text.takeWhile isMember) :=
  takeWhile_flatMap (fun _ => String.utf8EncodeChar_ne_nil)
    (fun _ _ member => ascii.onByte_eq member) text

theorem rtakeWhile_bytes (ascii : IsAsciiClass isMember) (text : List Char) :
    (bytes text).rtakeWhile (onByte isMember) = bytes (text.rtakeWhile isMember) := by
  let encode : Char → List UInt8 := List.reverse ∘ String.utf8EncodeChar
  have run : (text.reverse.flatMap encode).takeWhile (onByte isMember) =
      (text.reverse.takeWhile isMember).flatMap encode :=
    takeWhile_flatMap (fun _ => by simp [encode, String.utf8EncodeChar_ne_nil])
      (fun _ _ member => ascii.onByte_eq (by simpa [encode] using member)) text.reverse
  rw [List.rtakeWhile, bytes, List.reverse_flatMap, run, List.reverse_flatMap, bytes]
  simp [encode, List.rtakeWhile, Function.comp_def]

end IsAsciiClass

end Text

namespace Snippet

open Text

theorem isAsciiClass_inLine : IsAsciiClass inLine := by
  refine ⟨true, fun character beyond => ?_⟩
  simp only [inLine, decide_eq_true_eq]
  rintro rfl
  exact absurd beyond (by decide)

/-- The place at a byte offset, found and cut out by byte offsets alone. There is
none when any cut is refused. -/
def cut? (source : String) (offset : Nat) : Option Snippet := do
  let text := source.toList
  let place := min offset (byteLength text)
  let before ← slice? text 0 place
  let after ← slice? text place (byteLength text)
  let lineStart := place - ((bytes before).rtakeWhile (onByte inLine)).length
  let lineEnd := place + ((bytes after).takeWhile (onByte inLine)).length
  let earlier ← slice? text 0 lineStart
  let indent ← slice? text lineStart place
  let line ← slice? text lineStart lineEnd
  return {
    line := earlier.count '\n' + 1
    column := indent.length + 1
    text := String.ofList (trimReturns line) }

theorem cut?_of_append {source : String} {before after : List Char}
    (split : before ++ after = source.toList) (offset : Nat)
    (place : min offset (byteLength source.toList) = byteLength before) :
    cut? source offset = some (between before after) := by
  have runBefore : ((bytes before).rtakeWhile (onByte inLine)).length =
      byteLength (lastLine before) := by
    rw [isAsciiClass_inLine.rtakeWhile_bytes, length_bytes, lastLine_eq_rtakeWhile]
  have runAfter : ((bytes after).takeWhile (onByte inLine)).length =
      byteLength (firstLine after) := by
    rw [isAsciiClass_inLine.takeWhile_bytes, length_bytes, firstLine_eq_takeWhile]
  have whole : earlierLines before ++ (lastLine before ++ firstLine after) ++
      laterLines after = source.toList := by
    rw [append_line_append, split]
  have size : byteLength (earlierLines before) + byteLength (lastLine before) =
      byteLength before := by
    rw [← byteLength_append, earlierLines_append_lastLine]
  have lineStart : byteLength before - byteLength (lastLine before) =
      byteLength (earlierLines before) := by omega
  have lineEnd : byteLength before + byteLength (firstLine after) =
      byteLength (earlierLines before) + byteLength (lastLine before ++ firstLine after) := by
    rw [byteLength_append]
    omega
  have earlierCut : slice? source.toList 0 (byteLength (earlierLines before)) =
      some (earlierLines before) :=
    slice?_start (by rw [← whole, List.append_assoc])
  have indentCut : slice? source.toList (byteLength (earlierLines before)) (byteLength before) =
      some (lastLine before) := by
    rw [← size]
    exact slice?_of_append (by rw [earlierLines_append_lastLine, split])
  have lineCut := slice?_of_append whole
  rw [cut?]
  simp only [place, slice?_start split, slice?_end split, Option.bind_eq_bind, Option.bind_some,
    runBefore, runAfter, lineStart, lineEnd, earlierCut, indentCut, lineCut,
    count_newline_earlierLines]
  rfl

/-- Only the cut at the place itself can be refused: a snippet that is cut out by
byte offsets is the one that is shown. -/
theorem cut?_eq_at? (source : String) (offset : Nat) : cut? source offset = at? source offset := by
  cases cut : splitAt? source.toList (min offset (byteLength source.toList)) with
  | none =>
      simp only [cut?, at?, slice?_eq_none cut, cut]
      rfl
  | some parts =>
      obtain ⟨before, after⟩ := parts
      obtain ⟨split, place⟩ := splitAt?_sound cut
      rw [cut?_of_append split offset place.symm]
      simp only [at?, cut]

end Snippet

end DefLang

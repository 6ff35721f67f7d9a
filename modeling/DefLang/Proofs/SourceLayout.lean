import DefLang.Proofs.SnippetPlaces
import DefLang.Proofs.TokenLayout
import Mathlib.Data.List.Chain

/-!
# A source is its tokens laid out with spaces

Scanning is the inverse of laying tokens out. A layout is read back as its own
tokens, because what follows a word in it never extends that word. The relation
`Layout` grows from the left; here the same text is also cut into pieces all at
once, each of them a gap and the token after it.
-/
namespace DefLang.Token

theorem endsWord_of_spaces {gap : List Char} (rest : List Char) (nonempty : gap ≠ [])
    (spaces : gap.all isSpace) : EndsWord (gap ++ rest) := by
  obtain ⟨first, later, rfl⟩ := List.exists_cons_of_ne_nil nonempty
  have firstSpace : isSpace first := List.all_eq_true.mp spaces first (by simp)
  exact endsWord_cons (isWordCharacter_of_isSpace firstSpace)

/-- A layout that follows a word directly does not extend it. -/
theorem Layout.endsWord {offset : Nat} {text : List Char} {tokens : List Token}
    (layout : Layout offset true text tokens) : EndsWord text := by
  cases layout with
  | nil spaces =>
      by_cases empty : text = []
      · rw [empty]
        exact endsWord_nil
      · simpa using endsWord_of_spaces [] empty spaces
  | @cons _ _ gap rest token later spaces admitted separated place continued =>
      rw [List.append_assoc]
      by_cases empty : gap = []
      · have noWord : token.kind.isWord = false := by
          by_contra word
          exact separated rfl (by simpa using word) empty
        obtain ⟨mark, text_eq, -, outside⟩ := admitted.exists_mark noWord
        rw [empty, text_eq]
        exact endsWord_cons outside
      · exact endsWord_of_spaces _ empty spaces

theorem scan_spaces {gap : List Char} (offset : Nat) (rest : List Char)
    (spaces : gap.all isSpace) :
    scan offset (gap ++ rest) = scan (offset + Text.byteLength gap) rest := by
  induction gap generalizing offset with
  | nil => simp
  | cons first gap inductionHypothesis =>
      obtain ⟨firstSpace, laterSpaces⟩ : isSpace first = true ∧ gap.all isSpace = true := by
        simpa using spaces
      rw [List.cons_append, scan_of_space firstSpace, inductionHypothesis _ laterSpaces,
        Text.byteLength_cons, Nat.add_assoc]

/-- A layout is read back as its own tokens. -/
theorem scan_of_layout {offset : Nat} {afterWord : Bool} {text : List Char}
    {tokens : List Token} (layout : Layout offset afterWord text tokens) :
    scan offset text = .ok tokens := by
  induction layout with
  | @nil offset _ gap spaces =>
      rw [← List.append_nil gap, scan_spaces offset [] spaces, scan_nil]
  | @cons offset _ gap rest token later spaces admitted separated place continued
      inductionHypothesis =>
      -- The longest word is scanned, so the rest must not go on with it.
      have ended : token.kind.isWord → EndsWord rest := by
        intro word
        rw [word] at continued
        exact continued.endsWord
      rw [List.append_assoc, scan_spaces offset _ spaces, ← place,
        scan_of_admits token.offset admitted ended, inductionHypothesis, String.ofList_toList]
      rfl

theorem scan_eq_ok_iff_layout {offset : Nat} {text : List Char} {tokens : List Token} :
    scan offset text = .ok tokens ↔ Layout offset false text tokens :=
  ⟨layout_of_scan (by simp), scan_of_layout⟩

/-- A token together with the gap before it. -/
structure Piece where
  gap : List Char
  token : Token

namespace Piece

def text (piece : Piece) : List Char := piece.gap ++ piece.token.text.toList

/-- There is a gap between the tokens of two pieces in a row if both are words. -/
def Apart (first second : Piece) : Prop :=
  first.token.kind.isWord = true → second.token.kind.isWord = true → second.gap ≠ []

/-- The token of a piece ends where the piece ends. -/
theorem byteLength_text {offset : Nat} (piece : Piece)
    (place : piece.token.offset = offset + Text.byteLength piece.gap) :
    piece.token.offset + Text.byteLength piece.token.text.toList =
      offset + Text.byteLength piece.text := by
  rw [place, text, Text.byteLength_append, Nat.add_assoc]

end Piece

/-- The pieces in order and a last gap are the text from a byte offset on, and
the tokens are those of the pieces. -/
structure Arranges (offset : Nat) (pieces : List Piece) (last : List Char)
    (text : List Char) (tokens : List Token) : Prop where
  text_eq : text = pieces.flatMap Piece.text ++ last
  tokens_eq : tokens = pieces.map Piece.token
  gaps : ∀ piece ∈ pieces, piece.gap.all isSpace
  lastGap : last.all isSpace
  admitted : ∀ piece ∈ pieces, piece.token.kind.Admits piece.token.text.toList
  separated : pieces.IsChain Piece.Apart
  placed : ∀ before piece after, pieces = before ++ piece :: after →
    piece.token.offset = offset + Text.byteLength (before.flatMap Piece.text ++ piece.gap)

section Arranges

variable {offset : Nat} {piece : Piece} {pieces : List Piece} {last text : List Char}
  {tokens : List Token}

theorem arranges_nil (spaces : last.all isSpace) : Arranges offset [] last last [] where
  text_eq := rfl
  tokens_eq := rfl
  gaps := by simp
  lastGap := spaces
  admitted := by simp
  separated := .nil
  placed := by simp

theorem Arranges.cons (arranged : Arranges (offset + Text.byteLength piece.text) pieces last
      text tokens)
    (spaces : piece.gap.all isSpace)
    (admitted : piece.token.kind.Admits piece.token.text.toList)
    (apart : ∀ next ∈ pieces.head?, piece.Apart next)
    (place : piece.token.offset = offset + Text.byteLength piece.gap) :
    Arranges offset (piece :: pieces) last (piece.text ++ text) (piece.token :: tokens) where
  text_eq := by simp [arranged.text_eq]
  tokens_eq := by simp [arranged.tokens_eq]
  gaps := List.forall_mem_cons.mpr ⟨spaces, arranged.gaps⟩
  lastGap := arranged.lastGap
  admitted := List.forall_mem_cons.mpr ⟨admitted, arranged.admitted⟩
  separated := List.isChain_cons.mpr ⟨apart, arranged.separated⟩
  placed := by
    intro before found after split
    cases before with
    | nil =>
        obtain ⟨rfl, -⟩ := List.cons.inj split
        simpa using place
    | cons first before =>
        obtain ⟨rfl, later⟩ := List.cons.inj split
        rw [arranged.placed before found after later]
        simp only [List.flatMap_cons, List.append_assoc, Text.byteLength_append]
        omega

theorem Arranges.tail (arranged : Arranges offset (piece :: pieces) last text tokens) :
    Arranges (offset + Text.byteLength piece.text) pieces last
      (pieces.flatMap Piece.text ++ last) (pieces.map Piece.token) where
  text_eq := rfl
  tokens_eq := rfl
  gaps := fun other member => arranged.gaps other (by simp [member])
  lastGap := arranged.lastGap
  admitted := fun other member => arranged.admitted other (by simp [member])
  separated := arranged.separated.tail
  placed := by
    intro before found after split
    have place := arranged.placed (piece :: before) found after (by rw [split, List.cons_append])
    rw [place]
    simp only [List.flatMap_cons, List.append_assoc, Text.byteLength_append]
    omega

end Arranges

/-- Cutting a layout into pieces loses nothing: the first piece keeps its
distance from a word directly before it. -/
theorem layout_iff_exists_arranges {offset : Nat} {afterWord : Bool} {text : List Char}
    {tokens : List Token} :
    Layout offset afterWord text tokens ↔
      ∃ pieces last, Arranges offset pieces last text tokens ∧
        ∀ first ∈ pieces.head?, afterWord = true → first.token.kind.isWord = true →
          first.gap ≠ [] := by
  constructor
  · intro layout
    induction layout with
    | nil spaces => exact ⟨[], _, arranges_nil spaces, by simp⟩
    | @cons offset afterWord gap rest token later spaces admitted separated place continued
        inductionHypothesis =>
        obtain ⟨pieces, last, arranged, apart⟩ := inductionHypothesis
        let piece : Piece := ⟨gap, token⟩
        rw [piece.byteLength_text place] at arranged
        refine ⟨piece :: pieces, last, arranged.cons spaces admitted apart place, ?_⟩
        simpa using separated
  · -- The chain says of two neighbours what a layout says of a token and the
    -- flag before it, so the flag is generalised along with the offset.
    rintro ⟨pieces, last, arranged, apart⟩
    induction pieces generalizing offset afterWord text tokens with
    | nil =>
        rw [arranged.text_eq, arranged.tokens_eq]
        exact .nil arranged.lastGap
    | cons piece pieces inductionHypothesis =>
        have place : piece.token.offset = offset + Text.byteLength piece.gap := by
          simpa using arranged.placed [] piece pieces rfl
        have continued := inductionHypothesis arranged.tail
          (List.isChain_cons.mp arranged.separated).1
        rw [← piece.byteLength_text place] at continued
        rw [arranged.text_eq, arranged.tokens_eq, List.flatMap_cons, List.append_assoc]
        exact .cons (arranged.gaps piece (by simp)) (arranged.admitted piece (by simp))
          (apart piece rfl) place continued

end DefLang.Token

namespace DefLang

open Token

theorem tokenize_eq_ok_iff {source : String} {tokens : List Token} :
    tokenize source = .ok tokens ↔
      ∃ pieces last, Arranges 0 pieces last source.toList tokens := by
  rw [tokenize, scan_eq_ok_iff_layout, layout_iff_exists_arranges]
  simp

/-- Every token stands at its offset in the source. -/
theorem exists_append_of_tokenize {source : String} {tokens : List Token}
    (tokenized : tokenize source = .ok tokens) :
    ∀ token ∈ tokens, ∃ before after,
      before ++ (token.text.toList ++ after) = source.toList ∧
        Text.byteLength before = token.offset := by
  intro token member
  obtain ⟨pieces, last, arranged⟩ := tokenize_eq_ok_iff.mp tokenized
  rw [arranged.tokens_eq] at member
  obtain ⟨piece, pieceMember, rfl⟩ := List.mem_map.mp member
  obtain ⟨before, after, rfl⟩ := List.append_of_mem pieceMember
  have place := arranged.placed before piece after rfl
  rw [Nat.zero_add] at place
  refine ⟨_, after.flatMap Piece.text ++ last, ?_, place.symm⟩
  simp [arranged.text_eq, Piece.text]

theorem isBoundary_of_tokenize {source : String} {tokens : List Token}
    (tokenized : tokenize source = .ok tokens) :
    ∀ token ∈ tokens, Text.IsBoundary source.toList token.offset := by
  intro token member
  obtain ⟨before, after, split, place⟩ := exists_append_of_tokenize tokenized token member
  exact ⟨before, _, split, place⟩

/-- What no token starts with is left over from some character on that is no
space. -/
theorem exists_append_of_scan_error {offset : Nat} {text : List Char} {found : Diagnostic}
    (stopped : scan offset text = .error found) :
    ∃ before character later, before ++ character :: later = text ∧
      isSpace character = false ∧
      found = ⟨offset + Text.byteLength before,
        .unmatched (String.ofList (character :: later))⟩ := by
  fun_induction scan offset text with
  | case1 => cases stopped
  | case2 offset space rest isSpace inductionHypothesis =>
      obtain ⟨before, character, later, split, noSpace, rfl⟩ := inductionHypothesis stopped
      refine ⟨space :: before, character, later, by rw [List.cons_append, split], noSpace, ?_⟩
      rw [Text.byteLength_cons, Nat.add_assoc]
  | case3 offset character rest noSpace inWord word unmatched =>
      obtain rfl := Except.error.inj stopped
      exact ⟨[], character, rest, rfl, by simpa using noSpace, rfl⟩
  | case4 offset character rest noSpace inWord word kind matched inductionHypothesis =>
      cases scanned : scan (offset + Text.byteLength word) (rest.dropWhile isWordCharacter) with
      | ok later =>
          rw [scanned] at stopped
          cases stopped
      | error other =>
          rw [scanned] at stopped
          obtain rfl := Except.error.inj stopped
          obtain ⟨before, first, later, split, firstNoSpace, rfl⟩ := inductionHypothesis scanned
          refine ⟨word ++ before, first, later, ?_, firstNoSpace, ?_⟩
          · rw [List.append_assoc, split]
            simp [word, List.takeWhile_append_dropWhile]
          · rw [Text.byteLength_append, Nat.add_assoc]
  | case5 offset character rest noSpace notInWord unmatched =>
      obtain rfl := Except.error.inj stopped
      exact ⟨[], character, rest, rfl, by simpa using noSpace, rfl⟩
  | case6 offset character rest noSpace notInWord kind matched inductionHypothesis =>
      cases scanned : scan (offset + character.utf8Size) rest with
      | ok later =>
          rw [scanned] at stopped
          cases stopped
      | error other =>
          rw [scanned] at stopped
          obtain rfl := Except.error.inj stopped
          obtain ⟨before, first, later, rfl, firstNoSpace, rfl⟩ := inductionHypothesis scanned
          refine ⟨character :: before, first, later, rfl, firstNoSpace, ?_⟩
          rw [Text.byteLength_cons, Nat.add_assoc]

theorem exists_append_of_tokenize_error {source : String} {found : Diagnostic}
    (stopped : tokenize source = .error found) :
    ∃ before character later, before ++ character :: later = source.toList ∧
      isSpace character = false ∧
      found = ⟨Text.byteLength before, .unmatched (String.ofList (character :: later))⟩ := by
  simpa using exists_append_of_scan_error stopped

/-- Some tokens are read from a source exactly when it is their texts in order,
each at its own offset, with spaces in the gaps and no two words without a gap
between them. No source is laid out from two lists of tokens. -/
theorem tokenize_eq_ok_iff_arranges (source : String) (tokens : List Token) :
    (tokenize source = .ok tokens ↔
      ∃ pieces last, Arranges 0 pieces last source.toList tokens) ∧
    ∀ pieces last otherPieces otherLast others,
      Arranges 0 pieces last source.toList tokens →
        Arranges 0 otherPieces otherLast source.toList others → others = tokens := by
  refine ⟨tokenize_eq_ok_iff, ?_⟩
  intro pieces last otherPieces otherLast others arranged otherArranged
  have read := tokenize_eq_ok_iff.mpr ⟨pieces, last, arranged⟩
  have otherRead := tokenize_eq_ok_iff.mpr ⟨otherPieces, otherLast, otherArranged⟩
  rw [read] at otherRead
  exact (Except.ok.inj otherRead).symm

example : tokenize "def\x0bdefinition (end" =
    .ok [⟨.defKeyword, "def", 0⟩, ⟨.identifier, "definition", 4⟩, ⟨.openParen, "(", 15⟩,
      ⟨.endKeyword, "end", 16⟩] := by decide +kernel

end DefLang

import DefLang.Proofs.CaretPlacement
import DefLang.Proofs.CommandOutcome
import DefLang.Proofs.SourcePrinting

/-!
# A listing of tokens tells what was listed

The lines of a listing are those of its tokens, because no text of a token holds a
line feed and an empty listing has no lines. On each line the first space ends the
name of the kind. The texts alone, one to a line, are a source again: the line feeds
keep the words apart, so the same kinds and texts are read from it. Whatever is done
with a source after it is split into tokens can therefore be told from its listing,
apart from places.
-/
namespace DefLang

namespace Token

def Kind.all : List Kind :=
  [.defKeyword, .endKeyword, .identifier, .integer, .openParen, .closeParen, .comma]

/-- The kind that a listing calls by a name. -/
def Kind.ofName? (name : String) : Option Kind := Kind.all.find? fun kind => kind.name = name

theorem Kind.ofName?_name (kind : Kind) : Kind.ofName? kind.name = some kind := by
  cases kind <;> decide

namespace Listing

/-- The lines of a listing. -/
def lines (listing : String) : List String :=
  if listing = "" then [] else (listing.toList.splitOn '\n').map String.ofList

/-- The kind that a line names up to its first space, and the text after that. -/
def decodeLine? (line : String) : Option (Kind × String) :=
  let (name, text) := line.toList.span (· ≠ ' ')
  (Kind.ofName? (String.ofList name)).map fun kind => (kind, String.ofList (text.drop 1))

def decode? (listing : String) : Option (List (Kind × String)) :=
  (lines listing).mapM decodeLine?

/-- The source with one of the texts on each line. -/
def rejoin (spellings : List (Kind × String)) : String :=
  String.intercalate "\n" (spellings.map Prod.snd)

theorem newline_notMem_listing {token : Token} (oneLine : '\n' ∉ token.text.toList) :
    '\n' ∉ token.listing.toList := by
  have inName : '\n' ∉ token.kind.name.toList := by
    cases token.kind <;> decide
  simp [listing, inName, oneLine]

theorem listing_ne_nil (token : Token) : token.listing.toList ≠ [] := by
  simp [listing]

theorem decodeLine?_listing (token : Token) :
    decodeLine? token.listing = some token.spelling := by
  have spaceNotMem : ' ' ∉ token.kind.name.toList := by
    cases token.kind <;> decide
  have noSpace : ∀ character ∈ token.kind.name.toList, character ≠ ' ' :=
    fun character member => ne_of_mem_of_not_mem member spaceNotMem
  have cut : token.listing.toList.span (· ≠ ' ') =
      (token.kind.name.toList, ' ' :: token.text.toList) := by
    rw [List.span_eq_takeWhile_dropWhile, listing, String.toList_append, String.toList_append,
      List.append_assoc, List.takeWhile_append_of_pos (by simpa using noSpace),
      List.dropWhile_append_of_pos (by simpa using noSpace)]
    simp
  simp only [decodeLine?, cut, String.ofList_toList, Kind.ofName?_name]
  simp [spelling]

section Tokens

variable {tokens : List Token}

theorem splitOn_intercalate (nonempty : tokens ≠ [])
    (oneLine : ∀ token ∈ tokens, '\n' ∉ token.text.toList) :
    (String.intercalate "\n" (tokens.map Token.listing)).toList.splitOn '\n' =
      tokens.map fun token => token.listing.toList := by
  have separator : "\n".toList = ['\n'] := rfl
  rw [String.toList_intercalate, separator, List.map_map]
  apply List.splitOn_intercalate
  · intro line member
    obtain ⟨token, inTokens, rfl⟩ := List.mem_map.mp member
    exact newline_notMem_listing (oneLine token inTokens)
  · simpa using nonempty

theorem lines_intercalate (oneLine : ∀ token ∈ tokens, '\n' ∉ token.text.toList) :
    lines (String.intercalate "\n" (tokens.map Token.listing)) = tokens.map Token.listing := by
  cases tokens with
  | nil => rfl
  | cons token later =>
      have pieces := splitOn_intercalate (List.cons_ne_nil token later) oneLine
      -- The only piece of an empty listing would be a line without the name of a kind.
      have nonempty : String.intercalate "\n" ((token :: later).map Token.listing) ≠ "" := by
        intro empty
        rw [empty, String.toList_empty, List.splitOn_nil, List.map_cons] at pieces
        exact listing_ne_nil token (List.cons.inj pieces).1.symm
      rw [lines, if_neg nonempty, pieces, List.map_map]
      simp [Function.comp_def]

theorem mapM_decodeLine? :
    (tokens.map Token.listing).mapM decodeLine? = some (tokens.map Token.spelling) := by
  induction tokens with
  | nil => rfl
  | cons token tokens inductionHypothesis =>
      simp [decodeLine?_listing, inductionHypothesis]

/-- Texts on lines of their own are read as the tokens that they were taken from. -/
theorem exists_scan_rejoin (admitted : ∀ token ∈ tokens, token.kind.Admits token.text.toList)
    (offset : Nat) :
    ∃ others, scan offset (rejoin (tokens.map Token.spelling)).toList = .ok others ∧
      others.map Token.spelling = tokens.map Token.spelling := by
  induction tokens generalizing offset with
  | nil => exact ⟨[], scan_nil, rfl⟩
  | cons token tokens inductionHypothesis =>
      obtain ⟨firstAdmitted, laterAdmitted⟩ := List.forall_mem_cons.mp admitted
      cases tokens with
      | nil =>
          have scanned := scan_of_text offset firstAdmitted fun _ => endsWord_nil
          refine ⟨[⟨token.kind, token.text, offset⟩], ?_, rfl⟩
          simpa [rejoin, spelling] using scanned
      | cons next later =>
          let place := offset + Text.byteLength token.text.toList
          obtain ⟨others, scanned, same⟩ :=
            inductionHypothesis laterAdmitted (place + '\n'.utf8Size)
          have text : (rejoin ((token :: next :: later).map Token.spelling)).toList =
              token.text.toList ++
                '\n' :: (rejoin ((next :: later).map Token.spelling)).toList := by
            simp [rejoin, spelling, String.intercalate_cons_cons]
          refine ⟨⟨token.kind, token.text, offset⟩ :: others, ?_, ?_⟩
          · rw [text, scan_of_text offset firstAdmitted fun _ => endsWord_cons (by decide),
              scan_of_space (by decide), scanned]
            rfl
          · rw [List.map_cons, same]
            rfl

end Tokens

end Listing

end Token

open Token

/-- An error without the place at which it arises. -/
def CompileError.unplaced : CompileError → CompileError
  | .diagnostic found => .diagnostic { found with offset := 0 }
  | .internal message => .internal message

/-- The outcome of compiling a source, apart from the place of an error. -/
def outcome (source : String) : Except CompileError String :=
  (compile source).mapError CompileError.unplaced

theorem outcome_eq_of_spelling {source other : String} {tokens others : List Token}
    (tokenized : tokenize source = .ok tokens) (otherTokenized : tokenize other = .ok others)
    (same : tokens.map spelling = others.map spelling) : outcome source = outcome other := by
  have read := readDefinition_eq_numbered tokenized
  have otherRead := readDefinition_eq_numbered otherTokenized
  rw [← numbered_eq_of_spelling same] at otherRead
  cases parsed : Parser.definition (numbered tokens) with
  | ok tree =>
      rw [parsed] at read otherRead
      rw [outcome, outcome, compile_of_readDefinition read, compile_of_readDefinition otherRead]
  | error fault =>
      rw [parsed] at read otherRead
      have sameCause := fault.cause_relocate (offsetAt tokens) source (offsetAt others) other
      rw [outcome, outcome, compile_of_readDefinition_error read,
        compile_of_readDefinition_error otherRead]
      simp [Except.mapError, CompileError.unplaced, sameCause]

theorem lines_of_tokenize {source : String} {tokens : List Token}
    (tokenized : tokenize source = .ok tokens) :
    Listing.lines (String.intercalate "\n" (tokens.map Token.listing)) =
      tokens.map Token.listing := by
  apply Listing.lines_intercalate
  intro token member newline
  have noSpace := (admits_of_tokenize tokenized token member).noSpace.2
  exact absurd (noSpace '\n' newline) (by decide)

theorem decode?_of_tokenize {source : String} {tokens : List Token}
    (tokenized : tokenize source = .ok tokens) :
    Listing.decode? (String.intercalate "\n" (tokens.map Token.listing)) =
      some (tokens.map spelling) := by
  rw [Listing.decode?, lines_of_tokenize tokenized, Listing.mapM_decodeLine?]

namespace Command

theorem Stage.run_tokens_eq_ok_iff {source output : String} :
    Stage.tokens.run source = .ok output ↔ ∃ tokens, tokenize source = .ok tokens ∧
      String.intercalate "\n" (tokens.map Token.listing) = output := by
  rw [Stage.run]
  cases tokenize source <;> simp

/-- A listing has one line for each token, from which the kinds and texts are read
back, and the texts on lines of their own are a source with the same tokens. Sources
with the same listing have the same outcome, apart from places. -/
theorem listing_tells_tokens :
    (∀ source tokens, tokenize source = .ok tokens →
      ∃ output spellings others, Stage.tokens.run source = .ok output ∧
        Listing.lines output = tokens.map (fun token => token.kind.name ++ " " ++ token.text) ∧
        Listing.decode? output = some spellings ∧ spellings = tokens.map spelling ∧
        tokenize (Listing.rejoin spellings) = .ok others ∧ others.map spelling = spellings ∧
        outcome (Listing.rejoin spellings) = outcome source) ∧
    ∀ source other output, Stage.tokens.run source = .ok output →
      Stage.tokens.run other = .ok output → outcome source = outcome other := by
  refine ⟨?_, ?_⟩
  · intro source tokens tokenized
    obtain ⟨others, scanned, same⟩ :=
      Listing.exists_scan_rejoin (admits_of_tokenize tokenized) 0
    exact ⟨_, tokens.map spelling, others, Stage.run_tokens_eq_ok_iff.mpr ⟨tokens, tokenized, rfl⟩,
      lines_of_tokenize tokenized, decode?_of_tokenize tokenized, rfl, scanned, same,
      outcome_eq_of_spelling scanned tokenized same⟩
  · intro source other output listed otherListed
    obtain ⟨tokens, tokenized, rfl⟩ := Stage.run_tokens_eq_ok_iff.mp listed
    obtain ⟨others, otherTokenized, sameOutput⟩ := Stage.run_tokens_eq_ok_iff.mp otherListed
    have decoded := decode?_of_tokenize tokenized
    rw [← sameOutput, decode?_of_tokenize otherTokenized] at decoded
    exact outcome_eq_of_spelling tokenized otherTokenized (Option.some.inj decoded).symm

/-- Two sources with one listing, which are refused for the same repeated parameter. -/
theorem listing_tells_repeated_parameter :
    let source := "def f(x,x"
    let other := "def f (\n\tx ,\n\tx"
    let tokens : List Token := [⟨.defKeyword, "def", 0⟩, ⟨.identifier, "f", 4⟩,
      ⟨.openParen, "(", 5⟩, ⟨.identifier, "x", 6⟩, ⟨.comma, ",", 7⟩, ⟨.identifier, "x", 8⟩]
    let output := "Def def\nIdentifier f\nOParen (\nIdentifier x\nComma ,\nIdentifier x"
    (tokenize source = .ok tokens ∧ ∃ spellings, spellings = tokens.map spelling ∧
      outcome (Listing.rejoin spellings) = outcome source) ∧
    (Stage.tokens.run source = .ok output ∧ Stage.tokens.run other = .ok output) ∧
      outcome source = outcome other := by
  intro source other tokens output
  have tokenized : tokenize source = .ok tokens := by decide +kernel
  have listed : Stage.tokens.run source = .ok output := by decide +kernel
  have otherListed : Stage.tokens.run other = .ok output := by decide +kernel
  obtain ⟨faithful, sameListing⟩ := listing_tells_tokens
  obtain ⟨-, spellings, -, -, -, -, recovered, -, -, sameOutcome⟩ :=
    faithful source tokens tokenized
  exact ⟨⟨tokenized, spellings, recovered, sameOutcome⟩, ⟨listed, otherListed⟩,
    sameListing source other output listed otherListed⟩

end Command

end DefLang

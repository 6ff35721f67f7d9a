import DefLang.Numeral
import Mathlib.Data.List.Basic

/-!
# Reading numerals back

The numeral that is written for a value is read back as that value. A numeral
that consists of digits alone has no sign, so its value is not negative, and
what is written for that value are the same digits without the leading zeros.
-/
namespace DefLang.Numeral

theorem toDigits_all_isDigit (number : Nat) : (Nat.toDigits 10 number).all Char.isDigit := by
  rw [List.all_eq_true]
  intro character member
  exact Nat.isDigit_of_mem_toDigits (by decide) (by decide) member

theorem natural?_toDigits (number : Nat) : natural? (Nat.toDigits 10 number) = some number := by
  rw [natural?, if_pos ⟨Nat.toDigits_ne_nil, toDigits_all_isDigit number⟩,
    Nat.ofDigitChars_ten_toDigits]

theorem integer?_of_digits {digits : List Char} (nonempty : digits ≠ [])
    (allDigits : digits.all Char.isDigit) :
    integer? digits = some (Nat.ofDigitChars 10 digits 0 : Int) := by
  unfold integer?
  split
  · exact absurd allDigits (by simp [show Char.isDigit '+' = false by decide])
  · exact absurd allDigits (by simp [show Char.isDigit '-' = false by decide])
  · rw [natural?, if_pos ⟨nonempty, allDigits⟩]
    rfl

theorem integer?_render (value : Int64) :
    integer? (render value).toList = some value.toInt := by
  rw [render, Int.repr_eq_if]
  by_cases nonnegative : 0 ≤ value.toInt
  · rw [if_pos nonnegative, Nat.toList_repr,
      integer?_of_digits Nat.toDigits_ne_nil (toDigits_all_isDigit _),
      Nat.ofDigitChars_ten_toDigits, Int.toNat_of_nonneg nonnegative]
  · have negated : 0 ≤ -value.toInt := by omega
    have signed : ("-" ++ (-value.toInt).toNat.repr).toList =
        '-' :: Nat.toDigits 10 (-value.toInt).toNat := by
      rw [String.toList_append, Nat.toList_repr]
      rfl
    rw [if_neg nonnegative, signed, integer?, natural?_toDigits]
    change some (-((-value.toInt).toNat : Int)) = some value.toInt
    rw [Int.toNat_of_nonneg negated, Int.neg_neg]

/-- A value is read back from the numeral that is written for it. -/
theorem parse?_render (value : Int64) : parse? (render value) = some value := by
  rw [parse?, integer?_render]
  simp only [if_pos (fits_toInt value), Int64.ofInt_toInt]

theorem render_all_isDigit {value : Int64} (nonnegative : 0 ≤ value.toInt) :
    (render value).toList ≠ [] ∧ (render value).toList.all Char.isDigit := by
  rw [render, Int.repr_eq_if, if_pos nonnegative, Nat.toList_repr]
  exact ⟨Nat.toDigits_ne_nil, toDigits_all_isDigit _⟩

theorem toInt_of_digits {text : String} {value : Int64} (nonempty : text.toList ≠ [])
    (digits : text.toList.all Char.isDigit) (parsed : parse? text = some value) :
    value.toInt = Nat.ofDigitChars 10 text.toList 0 := by
  rw [parse?, integer?_of_digits nonempty digits] at parsed
  by_cases fits : Fits (Nat.ofDigitChars 10 text.toList 0 : Int)
  · simp only [if_pos fits, Option.some.injEq] at parsed
    rw [← parsed, toInt_ofInt_of_fits fits]
  · simp [fits] at parsed

theorem nonneg_of_digits {text : String} {value : Int64} (nonempty : text.toList ≠ [])
    (digits : text.toList.all Char.isDigit) (parsed : parse? text = some value) :
    0 ≤ value.toInt := by
  rw [toInt_of_digits nonempty digits parsed]
  exact Int.natCast_nonneg _

/-- The digits without the zeros at their start, but at least one of them. -/
def stripZeros : List Char → List Char
  | '0' :: next :: rest => stripZeros (next :: rest)
  | digits => digits

theorem toDigits_of_isDigit {character : Char} (digit : character.isDigit) :
    character.toNat - '0'.toNat < 10 ∧
      Nat.toDigits 10 (character.toNat - '0'.toNat) = [character] := by
  obtain ⟨least, greatest⟩ := Char.isDigit_iff_toNat.mp digit
  have zero : '0'.toNat = 48 := rfl
  have nine : '9'.toNat = 57 := rfl
  have small : character.toNat - '0'.toNat < 10 := by omega
  refine ⟨small, ?_⟩
  have same : (character.toNat - '0'.toNat).digitChar = character := by
    rw [← Char.toNat_inj, Nat.toNat_digitChar_of_lt_ten small]
    omega
  rw [Nat.toDigits_of_lt_base small, same]

/-- Digits that follow a positive number are written after it as they are. -/
theorem toDigits_ofDigitChars {digits : List Char} {number : Nat}
    (allDigits : digits.all Char.isDigit) (positive : 0 < number) :
    Nat.toDigits 10 (Nat.ofDigitChars 10 digits number) = Nat.toDigits 10 number ++ digits := by
  induction digits generalizing number with
  | nil => simp
  | cons first digits inductionHypothesis =>
      obtain ⟨firstDigit, laterDigits⟩ : first.isDigit = true ∧ digits.all Char.isDigit = true := by
        simpa using allDigits
      obtain ⟨small, written⟩ := toDigits_of_isDigit firstDigit
      rw [Nat.ofDigitChars_cons, inductionHypothesis laterDigits (by omega),
        ← Nat.toDigits_append_toDigits (by decide) positive small, written, List.append_assoc,
        List.singleton_append]

theorem toDigits_ofDigitChars_zero {digits : List Char} (nonempty : digits ≠ [])
    (allDigits : digits.all Char.isDigit) :
    Nat.toDigits 10 (Nat.ofDigitChars 10 digits 0) = stripZeros digits := by
  fun_induction stripZeros digits with
  | case1 next rest inductionHypothesis =>
      have later : (next :: rest).all Char.isDigit = true :=
        (Bool.and_eq_true_iff.mp allDigits).2
      rw [← inductionHypothesis (by simp) later, Nat.ofDigitChars_cons]
      rfl
  | case2 digits noZero =>
      obtain ⟨first, rest, rfl⟩ := List.exists_cons_of_ne_nil nonempty
      obtain ⟨firstDigit, laterDigits⟩ : first.isDigit = true ∧ rest.all Char.isDigit = true := by
        simpa using allDigits
      obtain ⟨small, written⟩ := toDigits_of_isDigit firstDigit
      rw [Nat.ofDigitChars_cons, Nat.mul_zero, Nat.zero_add]
      cases rest with
      | nil => rw [Nat.ofDigitChars_nil, written]
      | cons next rest =>
          have nonzero : first ≠ '0' := by
            rintro rfl
            exact noZero next rest rfl
          have positive : 0 < first.toNat - '0'.toNat := by
            obtain ⟨least, -⟩ := Char.isDigit_iff_toNat.mp firstDigit
            have different : first.toNat ≠ '0'.toNat := fun same =>
              nonzero (Char.toNat_inj.mp same)
            omega
          rw [toDigits_ofDigitChars laterDigits positive, written, List.singleton_append]

/-- Reading digits and writing their value strips the leading zeros. -/
theorem toList_render_of_digits {text : String} {value : Int64} (nonempty : text.toList ≠ [])
    (digits : text.toList.all Char.isDigit) (parsed : parse? text = some value) :
    (render value).toList = stripZeros text.toList := by
  have same := toInt_of_digits nonempty digits parsed
  have nonnegative : 0 ≤ value.toInt := nonneg_of_digits nonempty digits parsed
  rw [render, Int.repr_eq_if, if_pos nonnegative, Nat.toList_repr, same, Int.toNat_natCast,
    toDigits_ofDigitChars_zero nonempty digits]

end DefLang.Numeral

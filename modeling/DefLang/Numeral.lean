/-! # Signed 64-bit decimal numerals

A numeral is an optional sign and at least one decimal digit. It is read
without a bound on its length, and has a value only when that value fits in a
signed 64-bit integer. Leading zeros and a plus sign are accepted but never
written.
-/
namespace DefLang.Numeral

/-- The number that a nonempty list of decimal digits stands for. -/
def natural? (digits : List Char) : Option Nat :=
  if digits ≠ [] ∧ digits.all Char.isDigit then
    some (Nat.ofDigitChars 10 digits 0)
  else
    none

/-- The number that a numeral stands for, of any size. -/
def integer? : List Char → Option Int
  | '+' :: digits => (natural? digits).map fun value => (value : Int)
  | '-' :: digits => (natural? digits).map fun value => -(value : Int)
  | digits => (natural? digits).map fun value => (value : Int)

/-- Whether a number fits in a signed 64-bit integer. -/
def Fits (value : Int) : Prop :=
  Int64.minValue.toInt ≤ value ∧ value ≤ Int64.maxValue.toInt

instance (value : Int) : Decidable (Fits value) := by
  unfold Fits
  infer_instance

theorem fits_toInt (value : Int64) : Fits value.toInt := by
  have below := Int64.toInt_lt value
  refine ⟨?_, ?_⟩
  · rw [Int64.toInt_minValue]
    exact Int64.le_toInt value
  · rw [Int64.toInt_maxValue]
    omega

/-- A number that fits is kept. -/
theorem toInt_ofInt_of_fits {value : Int} (fits : Fits value) :
    (Int64.ofInt value).toInt = value := by
  obtain ⟨least, greatest⟩ := fits
  rw [Int64.toInt_minValue] at least
  rw [Int64.toInt_maxValue] at greatest
  exact Int64.toInt_ofInt_of_le (by omega) (by omega)

/-- The value of a numeral, unless it has none or it does not fit. -/
def parse? (text : String) : Option Int64 :=
  match integer? text.toList with
  | some value => if Fits value then some (Int64.ofInt value) else none
  | none => none

/-- The numeral of a value: no plus sign and no leading zeros. -/
def render (value : Int64) : String := Int.repr value.toInt

end DefLang.Numeral

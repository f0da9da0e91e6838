import ToolCalls.Text.Blank
import ToolCalls.Text.Digit

/-!
# Decimal integers

Integers are written in decimal without leading zeros and read back from digit rows.  Reading has a
limit: a row of more than `maxDigits` digits, leading zeros counted, is `Oversized` and not
converted.
-/

namespace ToolCalls.Decimal

/-- The decimal digits of a number. -/
def ofNat (n : Nat) : Text := Nat.toDigits 10 n

/-- The decimal digits of an integer, with a minus sign if it is negative. -/
def ofInt : Int → Text
  | .ofNat n => ofNat n
  | .negSucc n => '-' :: ofNat (n + 1)

/-- The number that a row of ASCII digits denotes. -/
def toNat (digits : Text) : Nat := digits.foldl (fun n c => 10 * n + (c.toNat - '0'.toNat)) 0

theorem toNat_eq_ofDigitChars (digits : Text) : toNat digits = Nat.ofDigitChars 10 digits 0 :=
  Nat.ofDigitChars_eq_foldl.symm

/-- The most digits that an integer may be written with. -/
def maxDigits : Nat := 4300

/-- A digit row that is too long to be converted. -/
structure Oversized where
  /-- The number of digits in the row. -/
  digits : Nat
deriving DecidableEq, Repr

/-- The wording of the refusal. -/
def Oversized.message (o : Oversized) : Text :=
  "Exceeds the limit (".toList ++ ofNat maxDigits ++
    " digits) for integer string conversion: value has ".toList ++ ofNat o.digits ++
    " digits; use sys.set_int_max_str_digits() to increase the limit".toList

/-- A value, unless the digit row it is converted from is too long. -/
def within {α : Type} (digits : Text) (value : α) : Except Oversized α :=
  if digits.length ≤ maxDigits then .ok value else .error ⟨digits.length⟩

theorem within_eq_ok_iff {α : Type} {digits : Text} {v w : α} :
    within digits v = .ok w ↔ digits.length ≤ maxDigits ∧ v = w := by
  simp only [within]
  split
  · next h => simp [h]
  · next h =>
    simp only [reduceCtorEq, false_iff, not_and]
    intro h'
    exact absurd h' h

theorem within_eq_error_iff {α : Type} {digits : Text} {v : α} {o : Oversized} :
    within digits v = .error o ↔ maxDigits < digits.length ∧ o = ⟨digits.length⟩ := by
  simp only [within]
  split
  · simp; omega
  · simp only [Except.error.injEq]
    constructor
    · intro h
      exact ⟨by omega, h.symm⟩
    · rintro ⟨-, rfl⟩
      rfl

/-! ## Integers in settings -/

/-- The digits of a numeral, of any script, in which single underscores may stand between two
digits. -/
def ungrouped? : Text → Option Text
  | [] => none
  | c :: t =>
    if (Text.digitValue? c).isNone then none
    else match t with
      | [] => some [c]
      | '_' :: u => (ungrouped? u).map (c :: ·)
      | d :: u => (ungrouped? (d :: u)).map (c :: ·)

/-- The number a numeral denotes, if it is one and is not too long. -/
def numeral? (t : Text) : Option Nat :=
  (ungrouped? t).bind fun digits =>
    if digits.length ≤ maxDigits then Text.digitsValue? digits else none

/-- The integer that a setting denotes: white space around it, a sign, and a numeral.  The four
information separators do not count as white space here. -/
def toInt? (t : Text) : Option Int :=
  match Text.trim (fun c => Text.isWhite c && !Text.isSeparator c) t with
  | '-' :: u => (numeral? u).map fun n => -(n : Int)
  | '+' :: u => (numeral? u).map fun n => (n : Int)
  | u => (numeral? u).map fun n => (n : Int)

end ToolCalls.Decimal

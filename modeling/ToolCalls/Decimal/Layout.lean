import ToolCalls.Decimal.Integer
import ToolCalls.Decimal.Shortest

/-!
# Floating-point numbers as text

A number is written with its shortest digits, positionally while its decimal exponent is moderate
and with an exponent otherwise.  The decisions that differ between uses stand in a `Layout`.
-/

namespace ToolCalls.Decimal

/-- How floating-point numbers are written. -/
structure Layout where
  /-- The least decimal exponent that is written positionally. -/
  least : Int := -4
  /-- The first decimal exponent that is written with an exponent again. -/
  limit : Int := 16
  /-- The least number of digits of an exponent. -/
  exponentWidth : Nat := 2
  /-- The text of infinity, after its sign. -/
  infinity : Text
  /-- The text of what is not a number. -/
  notANumber : Text

/-- The digits without the zeros at their end. -/
def trimZeros (digits : Text) : Text := (digits.reverse.dropWhile (· == '0')).reverse

/-- Positional notation for `d.ddd · 10 ^ exponent`; at least one digit stands on either side of the
point. -/
def positional (digits : Text) (exponent : Int) : Text :=
  if exponent < 0 then
    '0' :: '.' :: (List.replicate (-exponent - 1).toNat '0' ++ digits)
  else
    let whole := exponent.toNat + 1
    if digits.length ≤ whole then
      digits ++ List.replicate (whole - digits.length) '0' ++ ['.', '0']
    else digits.take whole ++ '.' :: digits.drop whole

/-- Notation with an exponent for `d.ddd · 10 ^ exponent`; a point only before further digits. -/
def scientific (width : Nat) (digits : Text) (exponent : Int) : Text :=
  let mantissa := match digits with
    | c :: d :: t => c :: '.' :: d :: t
    | t => t
  let size := ofNat exponent.natAbs
  mantissa ++ 'e' :: (if exponent < 0 then '-' else '+') ::
    (List.replicate (width - size.length) '0' ++ size)

/-- The magnitude of a number. -/
def Layout.magnitude (l : Layout) (x : Binary64) : Text :=
  if x.significand = 0 then ['0', '.', '0']
  else
    let d := shortest x
    let all := ofNat d.digits
    let digits := trimZeros all
    let exponent := d.exponent + all.length - 1
    if l.least ≤ exponent ∧ exponent < l.limit then positional digits exponent
    else scientific l.exponentWidth digits exponent

/-- The text of a number. -/
def Layout.write (l : Layout) (x : Binary64) : Text :=
  if x.isNaN then l.notANumber
  else
    (if x.isNegative then ['-'] else []) ++ if x.isFinite then l.magnitude x else l.infinity

/-- Numbers as they appear in the source text of a value. -/
def plain : Layout where
  infinity := ['i', 'n', 'f']
  notANumber := ['n', 'a', 'n']

end ToolCalls.Decimal

/-!
# Binary floating-point numbers

A `Binary64` is the bit pattern of a number in the 64-bit binary format.  A finite pattern stands
for `significand · 2 ^ scale` with a sign; `ofRatio` finds the pattern nearest to a quotient of two
natural numbers, a tie going to the even significand.  All arithmetic here is exact.
-/

namespace ToolCalls

/-- A number in the 64-bit binary floating-point format, as its bit pattern. -/
structure Binary64 where
  /-- The pattern: sign, eleven bits of exponent, 52 bits of fraction. -/
  bits : UInt64
deriving DecidableEq, Repr

namespace Binary64

/-- Whether the sign bit is set. -/
def isNegative (x : Binary64) : Bool := decide (Nat.pow 2 63 ≤ x.bits.toNat)

/-- The exponent field. -/
def exponentField (x : Binary64) : Nat := x.bits.toNat / Nat.pow 2 52 % Nat.pow 2 11

/-- The fraction field. -/
def fractionField (x : Binary64) : Nat := x.bits.toNat % Nat.pow 2 52

/-- Neither an infinity nor a NaN. -/
def isFinite (x : Binary64) : Bool := x.exponentField != 2047

/-- Not a number. -/
def isNaN (x : Binary64) : Bool := x.exponentField == 2047 && x.fractionField != 0

/-- The integer factor of a finite number's magnitude. -/
def significand (x : Binary64) : Nat :=
  if x.exponentField = 0 then x.fractionField else Nat.pow 2 52 + x.fractionField

/-- The exponent of two in a finite number's magnitude. -/
def scale (x : Binary64) : Int :=
  if x.exponentField = 0 then -1074 else (x.exponentField : Int) - 1075

/-- A finite number's magnitude as a quotient of natural numbers. -/
def ratio (x : Binary64) : Nat × Nat :=
  (x.significand * Nat.pow 2 x.scale.toNat, Nat.pow 2 (-x.scale).toNat)

/-- The integer nearest to `a / b`, a tie going to the even one. -/
def roundQuotient (a b : Nat) : Nat :=
  let q := a / b
  let r := 2 * (a % b)
  if r < b ∨ (r = b ∧ q % 2 = 0) then q else q + 1

/-- The largest `e` with `2 ^ e ≤ a / b`, for positive `a` and `b`. -/
def log2Quotient (a b : Nat) : Int :=
  let l : Int := (a.log2 : Int) - b.log2
  if b * Nat.pow 2 l.toNat ≤ a * Nat.pow 2 (-l).toNat then l else l - 1

/-- The pattern with the given sign and magnitude bits. -/
def signed (negative : Bool) (magnitude : Nat) : Binary64 :=
  ⟨UInt64.ofNat ((if negative then Nat.pow 2 63 else 0) + magnitude)⟩

/-- The pattern of infinity, without its sign. -/
def infinityBits : Nat := 2047 * Nat.pow 2 52

/-- The number nearest to `a / b`, a tie going to the even significand; beyond the largest finite
number, infinity.  A significand that rounds up to a power of two carries into the exponent. -/
def ofRatio (negative : Bool) (a b : Nat) : Binary64 :=
  if a = 0 then signed negative 0
  else
    let e := max (log2Quotient a b - 52) (-1074)
    let q := roundQuotient (a * Nat.pow 2 (-e).toNat) (b * Nat.pow 2 e.toNat)
    let magnitude := (e + 1074).toNat * Nat.pow 2 52 + q
    signed negative (min magnitude infinityBits)

/-- The number nearest to the decimal fraction with the given digits, of which `places` stand behind
the point. -/
def ofDecimal (negative : Bool) (digits places : Nat) : Binary64 :=
  ofRatio negative digits (Nat.pow 10 places)

end Binary64

end ToolCalls

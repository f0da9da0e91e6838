import ToolCalls.Decimal.Binary64

/-!
# Shortest digits

The fewest decimal digits that read back as a given binary number, and of those the nearest to it.
A decimal reads back as the number if it lies in the number's rounding interval, which reaches half
way to the two neighbours and holds its ends if the significand is even.  For each count of digits
only the two grid points around the number have to be tried: if any grid point lies in the interval,
one of them does.
-/

namespace ToolCalls.Decimal

/-- A decimal number `digits · 10 ^ exponent`. -/
structure Scientific where
  digits : Nat
  exponent : Int
deriving DecidableEq, Repr

/-- The decimal number as a quotient of natural numbers. -/
def Scientific.ratio (d : Scientific) : Nat × Nat :=
  (d.digits * Nat.pow 10 d.exponent.toNat, Nat.pow 10 (-d.exponent).toNat)

/-- The largest `e` with `10 ^ e ≤ a / b`, for positive `a` and `b`. -/
def log10Quotient (a b : Nat) : Int :=
  if b ≤ a then (Nat.toDigits 10 (a / b)).length - 1
  else -((Nat.toDigits 10 ((b + a - 1) / a - 1)).length : Int)

/-- Whether the decimal number lies in the rounding interval of a positive finite number.  In units
of a quarter of the last place, the interval reaches two units up, and two units down unless the
lower neighbour is nearer because the significand is a power of two. -/
def readsBack (x : Binary64) (d : Scientific) : Bool :=
  let m := x.significand
  let down := if m = Nat.pow 2 52 ∧ x.exponentField > 1 then 1 else 2
  let e := x.scale - 2
  let (n, k) := d.ratio
  let point := n * Nat.pow 2 (-e).toNat
  let unit := k * Nat.pow 2 e.toNat
  let lo := (4 * m - down) * unit
  let hi := (4 * m + 2) * unit
  if m % 2 = 0 then decide (lo ≤ point ∧ point ≤ hi) else decide (lo < point ∧ point < hi)

/-- The grid point with the given last place next to a positive number that reads back as it: the
nearer one, the even one of two at the same distance. -/
def gridPoint? (x : Binary64) (exponent : Int) : Option Scientific :=
  let (a, b) := x.ratio
  let num := a * Nat.pow 10 (-exponent).toNat
  let den := b * Nat.pow 10 exponent.toNat
  let q := num / den
  let nearer := Binary64.roundQuotient num den
  let farther := if nearer = q then q + 1 else q
  ([⟨nearer, exponent⟩, ⟨farther, exponent⟩] : List Scientific).find? (readsBack x)

/-- The decimal number with the fewest digits that reads back as a positive finite number. -/
def shortest (x : Binary64) : Scientific :=
  let (a, b) := x.ratio
  let top := log10Quotient a b
  ((List.range 17).findSome? fun (n : Nat) => gridPoint? x (top - n)).getD ⟨0, 0⟩

end ToolCalls.Decimal

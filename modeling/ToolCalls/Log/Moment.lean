import ToolCalls.Datum

/-!
# Moments

A moment is given in seconds since the beginning of 1970, as an integer or a floating-point number,
and written as a date and a time of day in universal time.  A fraction of a second is rounded to
microseconds, a half to the even neighbour.
-/

namespace ToolCalls.Log

/-- Why there is no text for a moment. -/
inductive MomentError where
  /-- The number of seconds is not a number. -/
  | notANumber
  /-- The number of seconds does not fit into 64 bits. -/
  | tooFar
  /-- The year, counted from 1900, does not fit into 32 bits. -/
  | yearTooLarge
  /-- The year, as far as 32 bits can hold it, is not one of the years 1 to 9999. -/
  | year (n : Int)
deriving DecidableEq, Repr

/-- The wording of the error. -/
def MomentError.message : MomentError → Text
  | notANumber => "Invalid value NaN (not a number)".toList
  | tooFar => "timestamp out of range for platform time_t".toList
  | yearTooLarge => "[Errno 75] Value too large for defined data type".toList
  | year n => "year ".toList ++ Decimal.ofInt n ++ " is out of range".toList

/-- Seconds since the beginning of 1970 and microseconds on top of them. -/
structure Moment where
  seconds : Int
  micros : Nat
deriving DecidableEq, Repr

namespace Moment

/-- The moment of a finite number of seconds.  The fraction is turned into microseconds by a
multiplication that rounds to a floating-point number, and that number is rounded to an integer. -/
def ofFinite (x : Binary64) : Moment :=
  let (a, b) := x.ratio
  let whole := a / b
  let micros := Binary64.ofRatio false (a % b * 1000000) b |>.ratio
  let micros := Binary64.roundQuotient micros.1 micros.2
  if x.isNegative then
    if micros = 0 then ⟨-whole, 0⟩ else ⟨-whole - 1, 1000000 - micros⟩
  else if micros < 1000000 then ⟨whole, micros⟩
  else ⟨whole + 1, micros - 1000000⟩

/-- The moment, if its seconds fit into 64 bits, where `last` is the largest number that counts as
fitting. -/
def bounded (last : Int) (m : Moment) : Except MomentError Moment :=
  if -Int.pow 2 63 ≤ m.seconds ∧ m.seconds ≤ last then .ok m else .error .tooFar

/-- The moment that a number of seconds stands for.  The bound on floating-point numbers is the one
nearest to the bound on integers, which is larger by one. -/
def ofSeconds : Datum → Except MomentError Moment
  | .integer n => bounded (Int.pow 2 63 - 1) ⟨n, 0⟩
  | .float x =>
    if x.isNaN then .error .notANumber
    else if x.isFinite then bounded (Int.pow 2 63) (ofFinite x)
    else .error .tooFar
  | _ => .error .notANumber

/-! ## Dates -/

/-- The year, month and day of a day counted from the first of January 1970.  Years are counted from
March on, so that the leap day comes last. -/
def civil (day : Int) : Int × Nat × Nat :=
  let z := day + 719468
  let era := z.fdiv 146097
  let dayOfEra := (z - era * 146097).toNat
  let yearOfEra :=
    (dayOfEra - dayOfEra / 1460 + dayOfEra / 36524 - dayOfEra / 146096) / 365
  let dayOfYear := dayOfEra - (365 * yearOfEra + yearOfEra / 4 - yearOfEra / 100)
  let shifted := (5 * dayOfYear + 2) / 153
  let dayOfMonth := dayOfYear - (153 * shifted + 2) / 5 + 1
  let month := if shifted < 10 then shifted + 3 else shifted - 9
  let year : Int := yearOfEra + era * 400
  (if month ≤ 2 then year + 1 else year, month, dayOfMonth)

/-- A number with zeros in front up to the given width. -/
def padded (width n : Nat) : Text :=
  let digits := Decimal.ofNat n
  List.replicate (width - digits.length) '0' ++ digits

/-- The moment as a date and a time of day; microseconds only if there are any. -/
def write (m : Moment) : Except MomentError Text :=
  let day := m.seconds.fdiv 86400
  let second := (m.seconds - day * 86400).toNat
  let (year, month, dayOfMonth) := civil day
  if year - 1900 < -Int.pow 2 31 ∨ Int.pow 2 31 ≤ year - 1900 then .error .yearTooLarge
  else if year < 1 ∨ 9999 < year then .error (.year (year.bmod (Nat.pow 2 32)))
  else
    let date := padded 4 year.toNat ++ '-' :: padded 2 month ++ '-' :: padded 2 dayOfMonth
    let time := padded 2 (second / 3600) ++ ':' :: padded 2 (second / 60 % 60) ++ ':' ::
      padded 2 (second % 60)
    let fraction := if m.micros = 0 then [] else '.' :: padded 6 m.micros
    .ok (date ++ 'T' :: time ++ fraction ++ ['Z'])

end Moment

end ToolCalls.Log

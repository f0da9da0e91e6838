import ToolCalls.Datum

/-!
# Data as JSON

Data on one line of JSON, in ASCII: what lies outside of the printable ASCII range is escaped, in
two halves if it lies beyond the first 2 ^ 16 code points.  Tuples and sets are written as arrays,
structured values as objects, and whatever else there is as its text.
-/

namespace ToolCalls.Json

/-- Numbers as they appear in JSON. -/
def number : Decimal.Layout where
  infinity := "Infinity".toList
  notANumber := "NaN".toList

/-- An escaped 16-bit unit. -/
def unit (n : Nat) : Text := '\\' :: 'u' :: Text.hex 4 n

/-- A character inside of a string. -/
def char (c : Char) : Text :=
  if c = '\x22' ∨ c = '\\' then ['\\', c]
  else if c = '\n' then ['\\', 'n']
  else if c = '\r' then ['\\', 'r']
  else if c = '\t' then ['\\', 't']
  else if c = '\x08' then ['\\', 'b']
  else if c = '\x0c' then ['\\', 'f']
  else
    let n := c.toNat
    if 0x20 ≤ n ∧ n < 0x7F then [c]
    else if n < 0x10000 then unit n
    else unit (0xD800 + (n - 0x10000) / 0x400) ++ unit (0xDC00 + (n - 0x10000) % 0x400)

/-- A string. -/
def string (t : Text) : Text := '\x22' :: t.flatMap char ++ ['\x22']

mutual

/-- A datum on one line. -/
def write : Datum → Text
  | .null => "null".toList
  | .boolean true => "true".toList
  | .boolean false => "false".toList
  | .string t | .other t => string t
  | .integer n => Decimal.ofInt n
  | .float x => number.write x
  | .list items | .tuple items | .set items =>
    '[' :: Datum.commaSeparated (writeItems items) ++ [']']
  | .object fields | .record fields =>
    '\x7b' :: Datum.commaSeparated (writeFields fields) ++ ['\x7d']

/-- The items of an array. -/
def writeItems : List Datum → List Text
  | [] => []
  | item :: items => write item :: writeItems items

/-- The fields of an object. -/
def writeFields : List (Text × Datum) → List Text
  | [] => []
  | (key, item) :: fields => (string key ++ ':' :: ' ' :: write item) :: writeFields fields

end

end ToolCalls.Json

import ToolCalls.Block
import ToolCalls.Fence
import ToolCalls.Reading
import ToolCalls.Value

/-!
# Literals

Readers for the literals that arguments are written with:

* strings between single or double quotes, with the escapes `\n`, `\t`, `\r`, `\\` and the backslash
  before the quote in use; any other backslash stays, with the character behind it;
* numbers, a row of digits with an optional minus sign, or two rows with a point between them;
* the words `true`, `false` and `null`;
* arrays `[a, b]` and objects `{name: a, "other name": b}`;
* fenced blocks, whose cleaned body is a string.

Every reader first skips blanks.  Values nest at most `maxNesting` deep.
-/

namespace ToolCalls.Literal

open Text (skipBlank before)

/-- The deepest nesting of values. -/
def maxNesting : Nat := 128

/-! ## Names -/

/-- A character that a name may start with. -/
def isNameStart (c : Char) : Bool := Text.isLetter c || c == '_'

/-- A character of a name. -/
def isNameChar (c : Char) : Bool := Text.isLetter c || c.isDigit || c == '_'

theorem isNameChar_of_isNameStart {c : Char} (h : isNameStart c = true) : isNameChar c = true := by
  simp only [isNameStart, Bool.or_eq_true] at h
  simp only [isNameChar, Bool.or_eq_true]
  rcases h with h | h
  · exact Or.inl (Or.inl h)
  · exact Or.inr h

/-- Whether a text starts with a character of a class. -/
def startsWith (p : Char → Bool) : Text → Bool
  | c :: _ => p c
  | [] => false

/-- Reads a name, as long as it goes. -/
def readName (t : Text) : Reading Text :=
  let t := skipBlank t
  if startsWith isNameStart t then .found (t.takeWhile isNameChar) (t.dropWhile isNameChar)
  else .absent t

/-! ## Strings -/

/-- Whether a character quotes strings. -/
def isQuote (c : Char) : Bool := c == '\x22' || c == '\x27'

/-- What a backslash and the character behind it stand for. -/
def unescape (quote c : Char) : Text :=
  if c = quote then [quote]
  else if c = 'n' then ['\n']
  else if c = 't' then ['\t']
  else if c = 'r' then ['\r']
  else if c = '\\' then ['\\']
  else ['\\', c]

/-- The string up to the first quote without a backslash before it, and the text behind the
quote. -/
def unquote? (quote : Char) : Text → Option (Text × Text)
  | [] => none
  | c :: t =>
    if c = '\\' then
      match t with
      | [] => none
      | e :: u => (unquote? quote u).map fun (s, rest) => (unescape quote e ++ s, rest)
    else if c = quote then some ([], t)
    else (unquote? quote t).map fun (s, rest) => (c :: s, rest)

/-- Reads a string for what it denotes.  A string that does not end is no string, and the whole text
has been looked at. -/
def readText (t : Text) : Reading Text :=
  match skipBlank t with
  | [] => .absent []
  | quote :: body =>
    if isQuote quote then .ofOption (unquote? quote body) [] else .absent (quote :: body)

/-- Reads a string. -/
def readString (t : Text) : Reading Value :=
  (readText t).andThen fun s rest => .found (.string s (before (skipBlank t) rest)) rest

/-! ## Numbers and words -/

/-- Whether a text starts with a minus sign, and the text without it. -/
def splitSign : Text → Bool × Text
  | '-' :: t => (true, t)
  | t => (false, t)

/-- The reading of an integer with the given digits, which stands in `t` before `rest`. -/
def integerReading (negative : Bool) (digits t rest : Text) : Reading Value :=
  let n : Int := Decimal.toNat digits
  match Decimal.within digits (if negative then -n else n) with
  | .ok n => .found (.integer n (before t rest)) rest
  | .error o => .fault o

/-- The reading of a number with the given digits before and behind the point, which stands in `t`
before `rest`. -/
def floatReading (negative : Bool) (whole places t rest : Text) : Reading Value :=
  let x := Binary64.ofDecimal negative (Decimal.toNat (whole ++ places)) places.length
  .found (.float x (before t rest)) rest

/-- Reads a number.  A point belongs to it only with a digit behind it. -/
def readNumber (t : Text) : Reading Value :=
  let t := skipBlank t
  let negative := (splitSign t).1
  let body := (splitSign t).2
  let whole := body.takeWhile Char.isDigit
  let rest := body.dropWhile Char.isDigit
  if whole.isEmpty then .absent t
  else match rest with
    | '.' :: tail =>
      if startsWith Char.isDigit tail then
        floatReading negative whole (tail.takeWhile Char.isDigit) t (tail.dropWhile Char.isDigit)
      else integerReading negative whole t rest
    | _ => integerReading negative whole t rest

/-- Reads one of the words `true`, `false` and `null`.  What stands behind the word does not
matter. -/
def readWord (t : Text) : Reading Value :=
  match skipBlank t with
  | 't' :: 'r' :: 'u' :: 'e' :: rest => .found (.ofBool true) rest
  | 'f' :: 'a' :: 'l' :: 's' :: 'e' :: rest => .found (.ofBool false) rest
  | 'n' :: 'u' :: 'l' :: 'l' :: rest => .found .ofNull rest
  | rest => .absent rest

/-! ## Blocks -/

/-- Reads a fenced block. -/
def readBlock (dropsTag : Bool) (t : Text) : Reading Value :=
  let t := skipBlank t
  match Fence.read? t with
  | some (fence, rest) => .found (.string (Block.clean dropsTag fence.body) (before t rest)) rest
  | none => .absent t

/-! ## Arrays and objects

The readers for containers take the reader for the values inside as an argument.  Every round of
`readElements` and `readMembers` consumes a comma, so the length of the text bounds the rounds. -/

/-- Reads the elements of a non-empty array up to its closing bracket, in at most the given number
of rounds. -/
def readElements (readItem : Text → Reading Value) : Nat → Text → Reading (List Value)
  | 0, t => .absent t
  | rounds + 1, t =>
    (readItem t).andThen fun v rest =>
      match skipBlank rest with
      | ']' :: rest => .found [v] rest
      | ',' :: rest => (readElements readItem rounds rest).map (v :: ·)
      | rest => .absent rest

/-- Reads an array. -/
def readArray (readItem : Text → Reading Value) (t : Text) : Reading Value :=
  match skipBlank t with
  | '[' :: body =>
    match skipBlank body with
    | ']' :: rest => .found (.ofElements [] (before ('[' :: body) rest)) rest
    | inner =>
      (readElements readItem (inner.length + 1) inner).andThen fun vs rest =>
        .found (.ofElements vs (before ('[' :: body) rest)) rest
  | rest => .absent rest

/-- Reads the key of a member: a name or a string. -/
def readKey (t : Text) : Reading Text :=
  match readName t with
  | .absent rest => readText rest
  | r => r

/-- Reads a member of an object: a key, a colon and a value. -/
def readMember (readItem : Text → Reading Value) (t : Text) : Reading (Text × Value) :=
  (readKey t).andThen fun key rest =>
    match skipBlank rest with
    | ':' :: rest => (readItem rest).map (key, ·)
    | rest => .absent rest

/-- Reads the members of a non-empty object up to its closing brace, in at most the given number of
rounds. -/
def readMembers (readItem : Text → Reading Value) : Nat → Text → Reading (List (Text × Value))
  | 0, t => .absent t
  | rounds + 1, t =>
    (readMember readItem t).andThen fun m rest =>
      match skipBlank rest with
      | '\x7d' :: rest => .found [m] rest
      | ',' :: rest => (readMembers readItem rounds rest).map (m :: ·)
      | rest => .absent rest

/-- Reads an object.  A repeated key keeps its first place and gets the last value. -/
def readObject (readItem : Text → Reading Value) (t : Text) : Reading Value :=
  match skipBlank t with
  | '\x7b' :: body =>
    match skipBlank body with
    | '\x7d' :: rest => .found (.ofMembers [] (before ('\x7b' :: body) rest)) rest
    | inner =>
      (readMembers readItem (inner.length + 1) inner).andThen fun ms rest =>
        .found (.ofMembers (Fields.ofList ms) (before ('\x7b' :: body) rest)) rest
  | rest => .absent rest

/-! ## Values -/

/-- Reads a value of any kind, nested at most as deep as the given number of levels.  The first
character decides the kind. -/
def readNested (dropsTag : Bool) : (levels : Nat) → Text → Reading Value
  | 0, t => .absent (skipBlank t)
  | levels + 1, t =>
    match skipBlank t with
    | [] => .absent []
    | c :: rest =>
      let t := c :: rest
      if isQuote c then readString t
      else if c.isDigit || (c == '-' && startsWith Char.isDigit rest) then readNumber t
      else if c = '[' then readArray (readNested dropsTag levels) t
      else if c = '\x7b' then readObject (readNested dropsTag levels) t
      else if c = tick then readBlock dropsTag t
      else if c = 't' ∨ c = 'f' ∨ c = 'n' then readWord t
      else .absent t

/-- Reads a value of any kind. -/
def readValue (dropsTag : Bool) (t : Text) : Reading Value := readNested dropsTag maxNesting t

/-- Whether a character may begin an argument that no comma separates from the one before it. -/
def canStart (c : Char) : Bool :=
  isNameStart c || c.isDigit || isQuote c || c == tick || c == '[' || c == '\x7b' || c == '-'

end ToolCalls.Literal

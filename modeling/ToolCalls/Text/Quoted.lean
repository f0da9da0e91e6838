import ToolCalls.Text.Printable

/-!
# Quoted texts

A text between quotes, as it is shown in messages: single quotes unless the text has single quotes
and no double ones, a backslash before the quote in use and before a backslash, short escapes for
tab and line ends, and numeric escapes for what is not printable.
-/

namespace ToolCalls.Text

/-- The hexadecimal digits of `n` in lower case, with zeros in front up to the given width. -/
def hex (width n : Nat) : Text :=
  let digits := Nat.toDigits 16 n
  List.replicate (width - digits.length) '0' ++ digits

/-- A numeric escape, as short as the code point allows. -/
def pointEscape (n : Nat) : Text :=
  if n < 0x100 then '\\' :: 'x' :: hex 2 n
  else if n < 0x10000 then '\\' :: 'u' :: hex 4 n
  else '\\' :: 'U' :: hex 8 n

/-- A character between quotes of the given kind. -/
def quotedChar (quote c : Char) : Text :=
  if c = quote ∨ c = '\\' then ['\\', c]
  else if c = '\n' then ['\\', 'n']
  else if c = '\t' then ['\\', 't']
  else if c = '\r' then ['\\', 'r']
  else if isPrintable c then [c]
  else pointEscape c.toNat

/-- The quote that `quoted` puts around a text. -/
def quoteFor (t : Text) : Char :=
  if '\x27' ∈ t ∧ '\x22' ∉ t then '\x22' else '\x27'

/-- The text between quotes. -/
def quoted (t : Text) : Text :=
  let quote := quoteFor t
  quote :: t.flatMap (quotedChar quote) ++ [quote]

end ToolCalls.Text

import ToolCalls.Text.Basic

/-!
# White space

Three classes of white space are in use: `isBlank` separates the tokens of a call, `isInline` is
what may stand between a call and the end of its line and what indents a line, and `isWhite` is
white space in the sense of the Unicode standard, which decides whether a line is empty to the eye.
-/

namespace ToolCalls.Text

/-- White space between the tokens of a call. -/
def isBlank (c : Char) : Bool := c == ' ' || c == '\t' || c == '\n' || c == '\r'

/-- White space inside a line: spaces and tabs. -/
def isInline (c : Char) : Bool := c == ' ' || c == '\t'

/-- The code points of white space in the sense of the Unicode standard, with the four
information separators. -/
def whiteRanges : List (Nat × Nat) :=
  [(0x9, 0xD), (0x1C, 0x20), (0x85, 0x85), (0xA0, 0xA0), (0x1680, 0x1680), (0x2000, 0x200A),
    (0x2028, 0x2029), (0x202F, 0x202F), (0x205F, 0x205F), (0x3000, 0x3000)]

/-- White space in the sense of the Unicode standard, with the four information separators. -/
def isWhite (c : Char) : Bool := inRanges whiteRanges c.toNat

/-- The four information separators, U+001C to U+001F. -/
def isSeparator (c : Char) : Bool := inRanges [(0x1C, 0x1F)] c.toNat

theorem isBlank_of_isInline {c : Char} (h : isInline c = true) : isBlank c = true := by
  simp only [isInline, Bool.or_eq_true, beq_iff_eq] at h
  rcases h with rfl | rfl <;> rfl

theorem isWhite_of_isBlank {c : Char} (h : isBlank c = true) : isWhite c = true := by
  simp only [isBlank, Bool.or_eq_true, beq_iff_eq] at h
  rcases h with ((rfl | rfl) | rfl) | rfl <;> rfl

/-- The text without its leading blanks. -/
def skipBlank (t : Text) : Text := t.dropWhile isBlank

/-- The text without its leading spaces and tabs. -/
def skipInline (t : Text) : Text := t.dropWhile isInline

theorem skipBlank_suffix (t : Text) : skipBlank t <:+ t := List.dropWhile_suffix _

theorem skipInline_suffix (t : Text) : skipInline t <:+ t := List.dropWhile_suffix _

/-- The text without the characters of a class at either end. -/
def trim (p : Char → Bool) (t : Text) : Text := ((t.dropWhile p).reverse.dropWhile p).reverse

end ToolCalls.Text

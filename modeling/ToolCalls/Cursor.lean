import ToolCalls.Fence
import ToolCalls.Reading
import ToolCalls.Text.Blank

/-!
# Cursors

A position in a text that stays fixed.  The position may lie beyond the end, where nothing stands;
moving on brings it back to the end.  Readers work on the text behind the cursor and move it.
-/

namespace ToolCalls

/-- A position in a text. -/
structure Cursor where
  text : Text
  pos : Nat := 0
deriving DecidableEq, Repr

namespace Cursor

/-- The text from the cursor on. -/
def rest (c : Cursor) : Text := c.text.drop c.pos

/-- Whether nothing stands behind the cursor. -/
def atEnd (c : Cursor) : Bool := decide (c.text.length ≤ c.pos)

/-- The character some places ahead. -/
def peek? (c : Cursor) (offset : Nat) : Option Char := c.text[c.pos + offset]?

/-- The character at the cursor. -/
def current? (c : Cursor) : Option Char := c.peek? 0

/-- Moves on, not beyond the end. -/
def advance (c : Cursor) (n : Nat) : Cursor := { c with pos := min (c.pos + n) c.text.length }

/-- Moves on over the characters of a class. -/
def skip (c : Cursor) (p : Char → Bool) : Cursor :=
  { c with pos := c.pos + (c.rest.takeWhile p).length }

/-- Whether the given text stands at the cursor. -/
def startsWith (c : Cursor) (t : Text) : Bool :=
  decide (c.pos ≤ c.text.length) && t.isPrefixOf c.rest

/-- The length of the run of backticks at a position. -/
def tickRunAt (c : Cursor) (pos : Nat) : Nat := tickRun (c.text.drop pos)

/-- The text from an earlier position to the cursor. -/
def span (c : Cursor) (start : Nat) : Text := (c.text.take c.pos).drop start

/-- The cursor at the place where only `rest` is left. -/
def moveTo (c : Cursor) (rest : Text) : Cursor := { c with pos := c.text.length - rest.length }

/-- Reads at the cursor and moves it to where the reader stopped. -/
def read {α : Type} (c : Cursor) (reader : Text → Reading α) :
    Except Decimal.Oversized (Option α × Cursor) :=
  match reader c.rest with
  | .found a rest => .ok (some a, c.moveTo rest)
  | .absent rest => .ok (none, c.moveTo rest)
  | .fault o => .error o

/-- Reads a fence at the cursor and moves behind it; where there is none the cursor stays. -/
def readFence (c : Cursor) : Option Fence × Cursor :=
  match Fence.read? c.rest with
  | some (fence, rest) => (some fence, c.moveTo rest)
  | none => (none, c)

end Cursor

end ToolCalls

import ToolCalls.Fence

/-!
# Tracking quotes in a call

While a call goes by character by character, a tracker keeps account of parentheses and of the
quotes and fences in which parentheses do not count.  The tracker's idea of a literal is coarser
than the reader's, but the two agree on where a literal ends.
-/

namespace ToolCalls.Scanner

/-- What kind of literal the last character stands in. -/
inductive Quote where
  /-- Outside of strings and blocks. -/
  | none
  /-- Between single quotes. -/
  | single
  /-- Between double quotes. -/
  | double
  /-- Between tripled double quotes. -/
  | triple
  /-- In a fenced block. -/
  | fence
deriving DecidableEq, Repr

/-- Where in a call the last character stands. -/
structure Tracker where
  quote : Quote := .none
  /-- The number of open parentheses. -/
  depth : Nat := 1
  /-- Whether a backslash in a string has just gone by. -/
  escaped : Bool := false
  /-- The number of double quotes that have just gone by. -/
  doubles : Nat := 0
  /-- The number of double quotes that have just gone by between tripled ones. -/
  closing : Nat := 0
  /-- The number of backticks that have just gone by. -/
  ticks : Nat := 0
  /-- The length of the run that the block was opened with. -/
  fence : Nat := 0
deriving DecidableEq, Repr

namespace Tracker

/-- A character outside of strings and blocks. -/
def outside (k : Tracker) (c : Char) : Tracker :=
  if c = tick then { k with ticks := 1 }
  else if c = '\x22' then
    { k with quote := if k.doubles = 2 then .triple else .double, closing := 0 }
  else if c = '\x27' then { k with quote := .single }
  else if c = '(' then { k with depth := k.depth + 1 }
  else if c = ')' then { k with depth := k.depth - 1 }
  else k

/-- A character in a string. -/
def inString (k : Tracker) (c : Char) : Tracker :=
  if c = '\\' then { k with escaped := true }
  else match k.quote with
    | .single => if c = '\x27' then { k with quote := .none } else k
    | .double => if c = '\x22' then { k with quote := .none } else k
    | .triple =>
      let closing := if c = '\x22' then k.closing + 1 else 0
      if closing = 3 then { k with quote := .none, closing := 0 } else { k with closing := closing }
    | _ => k

/-- A character in a block.  The block ends with the character behind its closing run. -/
def inFence (k : Tracker) (c : Char) : Tracker :=
  if c = tick then { k with ticks := k.ticks + 1 }
  else if k.ticks = k.fence then outside { k with quote := .none, ticks := 0 } c
  else { k with ticks := 0 }

/-- A character behind a run of backticks outside of strings and blocks.  A long enough run opens a
block. -/
def afterTicks (k : Tracker) (c : Char) : Tracker :=
  if c = tick then { k with ticks := k.ticks + 1 }
  else if minTicks ≤ k.ticks then { k with quote := .fence, fence := k.ticks, ticks := 0 }
  else outside { k with ticks := 0 } c

/-- A character that no backslash stands before. -/
def plainStep (k : Tracker) (c : Char) : Tracker :=
  match k.quote with
  | .none => if k.ticks = 0 then k.outside c else k.afterTicks c
  | .fence => k.inFence c
  | _ => k.inString c

/-- One more character of the call. -/
def step (k : Tracker) (c : Char) : Tracker :=
  if k.escaped then { k with escaped := false, doubles := 0, closing := 0 }
  else { k.plainStep c with doubles := if c = '\x22' then k.doubles + 1 else 0 }

/-- Whether the parenthesis that opened the call is closed. -/
def closed (k : Tracker) : Bool := k.depth == 0 && k.quote == .none

end Tracker

end ToolCalls.Scanner

import ToolCalls.Text.Basic

/-!
# Fences

A fence is a body between two equal runs of backticks, at least three long.  The opening run is as
long as it can be, and the fence ends at the first later run of exactly the same length; shorter and
longer runs belong to the body.
-/

namespace ToolCalls

/-- The character that fences are made of. -/
def tick : Char := '\x60'

/-- The length of the shortest fence. -/
def minTicks : Nat := 3

/-- The length of the run of backticks that a text starts with. -/
def tickRun (t : Text) : Nat := (t.takeWhile (· == tick)).length

/-- A row of backticks. -/
def ticks (n : Nat) : Text := List.replicate n tick

/-- A body between two runs of backticks. -/
structure Fence where
  /-- The length of the runs. -/
  width : Nat
  /-- The text between them. -/
  body : Text
deriving DecidableEq, Repr

namespace Fence

/-- The fence as it is written. -/
def raw (f : Fence) : Text := ticks f.width ++ f.body ++ ticks f.width

/-- Cuts a text at its first full run of exactly `n` backticks: what stands before the run and what
stands behind it.  `run` backticks stand directly before the text. -/
def cutAtRun (n : Nat) : (run : Nat) → Text → Option (Text × Text)
  | run, [] => if run = n then some ([], []) else none
  | run, c :: t =>
    if c = tick then cutAtRun n (run + 1) t
    else if run = n then some ([], c :: t)
    else (cutAtRun n 0 t).map fun (body, rest) => (ticks run ++ c :: body, rest)

/-- The fence that a text starts with, and the text behind it. -/
def read? (t : Text) : Option (Fence × Text) :=
  let width := tickRun t
  if width < minTicks then none
  else (cutAtRun width 0 (t.drop width)).map fun (body, rest) => (⟨width, body⟩, rest)

end Fence

end ToolCalls

import ToolCalls.Call
import ToolCalls.Log.Record
import ToolCalls.Scanner.Tracker

/-!
# States of a scanner

A scanner passes plain text on as soon as that text can be no part of a call, and holds back what
may become one.  Its state is the plain text not yet passed on and its `Mode`, which says what the
last characters may belong to and keeps them.
-/

namespace ToolCalls.Scanner

/-- What the last characters may belong to. -/
inductive Mode where
  /-- Plain text; `lineStart` if only spaces and tabs stand before it on its line. -/
  | text (lineStart : Bool)
  /-- A tool's name at the start of a line. -/
  | name (held : Text)
  /-- A call up to its closing parenthesis. -/
  | call (held : Text) (tracker : Tracker)
  /-- Behind the closing parenthesis, after `run` backticks. -/
  | afterCall (held : Text) (run : Nat)
  /-- The block behind a call, opened by `width` backticks and after a run of `run` of them.  The
  opening run may still be going on as long as the block is not `opened`. -/
  | content (held : Text) (width run : Nat) (opened : Bool)
deriving DecidableEq, Repr

namespace Mode

/-- The name of a mode. -/
def label : Mode → Text
  | text _ => "text".toList
  | name _ => "ident".toList
  | call .. => "call".toList
  | afterCall .. => "post_paren".toList
  | content .. => "content".toList

/-- The characters held back. -/
def held : Mode → Text
  | text _ => []
  | name held | call held _ | afterCall held _ | content held _ _ _ => held

end Mode

/-- The state of a scanner between two characters. -/
structure State where
  /-- Plain text that has not been passed on. -/
  buffer : Text := []
  /-- The length of that text. -/
  size : Nat := 0
  mode : Mode := .text true
deriving DecidableEq, Repr

namespace State

/-- The text held back because it may become a call. -/
def pending (s : State) : Text := s.mode.held

/-- Whether a call may start with the next character. -/
def atLineStart (s : State) : Bool :=
  match s.mode with
  | .text lineStart => lineStart
  | _ => false

/-- The state with more plain text. -/
def append (s : State) (t : Text) : State :=
  { s with buffer := s.buffer ++ t, size := s.size + t.length }

end State

/-- What a scanner reports. -/
inductive Event where
  /-- Plain text. -/
  | text (t : Text)
  /-- A call. -/
  | tool (call : Call)
  /-- A call of this tool has begun. -/
  | status (name : Text)

/-- The event for a text, if there is any. -/
def textEvents (t : Text) : List Event := if t.isEmpty then [] else [.text t]

/-- What became of a state: the next one, and what was reported and noted on the way.  After a fault
the scanner stands still in the state it had reached. -/
structure Outcome where
  state : State
  events : List Event := []
  notes : List Log.Entry := []
  fault? : Option Decimal.Oversized := none

namespace Outcome

/-- Goes on from the state that was reached, unless there was a fault. -/
def andThen (o : Outcome) (next : State → Outcome) : Outcome :=
  match o.fault? with
  | some _ => o
  | none =>
    let p := next o.state
    { p with events := o.events ++ p.events, notes := o.notes ++ p.notes }

theorem andThen_of_fault {o : Outcome} (next : State → Outcome) (h : o.fault? ≠ none) :
    o.andThen next = o := by
  unfold andThen
  split
  · rfl
  · next hn => exact absurd hn h

theorem andThen_of_no_fault {o : Outcome} (next : State → Outcome) (h : o.fault? = none) :
    o.andThen next =
      { next o.state with
        events := o.events ++ (next o.state).events
        notes := o.notes ++ (next o.state).notes } := by
  unfold andThen
  rw [h]

@[simp] theorem andThen_state (s : State) (next : State → Outcome) :
    ({ state := s } : Outcome).andThen next = next s := by
  rw [andThen_of_no_fault next rfl]
  rfl

theorem andThen_assoc (o : Outcome) (f g : State → Outcome) :
    (o.andThen f).andThen g = o.andThen fun s => (f s).andThen g := by
  by_cases h : o.fault? = none
  · rw [andThen_of_no_fault f h, andThen_of_no_fault _ h]
    by_cases h' : (f o.state).fault? = none
    · rw [andThen_of_no_fault g h', andThen_of_no_fault g (by exact h')]
      simp [List.append_assoc]
    · rw [andThen_of_fault g h', andThen_of_fault g (by exact h')]
  · rw [andThen_of_fault f h, andThen_of_fault g h, andThen_of_fault _ h]

end Outcome

/-- Passes the plain text on. -/
def State.flush (s : State) : Outcome where
  state := { s with buffer := [], size := 0 }
  events := textEvents s.buffer

end ToolCalls.Scanner

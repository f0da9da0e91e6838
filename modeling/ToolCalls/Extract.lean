import ToolCalls.Scanner

/-!
# Calls in a message

All calls in a message that is complete.  The message goes through a scanner, so the same rules hold
as for a stream.
-/

namespace ToolCalls

/-- What was found in a message. -/
structure Extraction where
  /-- The calls, in order. -/
  calls : Except Decimal.Oversized (List Call) := .ok []
  /-- What was noted on the way. -/
  notes : List Log.Entry := []

namespace Extraction

/-- The logger of extractions. -/
def logger : Text := Log.logger "plugins.parsers.call_syntax_plugin"

/-- The fields of the context in which a message is searched. -/
def scopeFields : Fields Datum := [("parser".toList, .string "call_syntax".toList)]

/-- The calls among the events of a scanner. -/
def callsOf (events : List Scanner.Event) : List Call :=
  events.filterMap fun
    | .tool call => some call
    | _ => none

/-- How many calls have been found. -/
def countNote (n : Nat) : Log.Entry :=
  Log.debugNote logger "Extracted %d tool call(s)".toList [.integer n] []

end Extraction

/-- Finds the calls in a message.  Where no tool is known, or the message is no text, there are
none. -/
def extract (tools : List Text) (scan : ScanOptions) (read : ReadOptions) : Datum → Extraction
  | .string message =>
    if tools.isEmpty then {}
    else
      let scanner : Scanner := { tools := tools, scan := scan, read := read }
      let o := scanner.feedAll {} [message]
      match o.fault? with
      | some fault => { calls := .error fault, notes := o.notes }
      | none =>
        let calls := Extraction.callsOf o.events
        { calls := .ok calls, notes := o.notes ++ [Extraction.countNote calls.length] }
  | _ => {}

end ToolCalls

import ToolCalls.Failure

/-!
# Receivers

Whoever wants a scanner's reports hands it receivers for texts, calls and, if wanted, beginnings of
calls.  Each has to be something that can be called.
-/

namespace ToolCalls.Scanner

/-- What was given as a receiver. -/
inductive Receiver where
  | callable
  | notCallable
deriving DecidableEq, Repr

/-- What was given as the receivers of a scanner. -/
structure Receivers where
  text : Receiver
  tool : Receiver
  status? : Option Receiver := none

/-- The failure for a receiver that cannot be called. -/
def notCallable (setting : Text) : Failure :=
  .configuration (setting ++ " must be callable".toList) (some setting)

/-- Refuses receivers that cannot be called, the first one of them. -/
def Receivers.check (r : Receivers) : Except Failure Unit :=
  if r.text = .notCallable then .error (notCallable "on_text".toList)
  else if r.tool = .notCallable then .error (notCallable "on_tool".toList)
  else if r.status? = some .notCallable then .error (notCallable "on_status".toList)
  else .ok ()

/-- The names of the known tools, each once, in the order of their code points. -/
def sortedTools (tools : List Text) : List Text :=
  tools.eraseDups.mergeSort fun a b => !List.lex b a (fun c d => decide (c < d))

end ToolCalls.Scanner

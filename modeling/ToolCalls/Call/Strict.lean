import ToolCalls.Call.Reader
import ToolCalls.Failure

/-!
# Reading calls strictly

A text that has to be a call: anything else is a failure that shows the text.
-/

namespace ToolCalls.Call

/-- Why there is no call where one has to be. -/
inductive Refusal where
  /-- An integer has too many digits. -/
  | oversized (o : Decimal.Oversized)
  /-- The text is no call. -/
  | failure (f : Failure)

/-- The failure for a text that is no call. -/
def notACall (t : Text) : Failure :=
  .parsing "Text is not a valid tool call".toList (some "call_syntax".toList) (some t)
    .invalidFormat

/-- The call at the front of a text, which has to be there. -/
def parse (requireLineEnd : Bool) (options : ReadOptions) (t : Text) : Except Refusal Call :=
  match parse? requireLineEnd options t with
  | .ok (some call) => .ok call
  | .ok none => .error (.failure (notACall t))
  | .error o => .error (.oversized o)

end ToolCalls.Call

import ToolCalls.Call.Reader
import ToolCalls.Log.Record

/-!
# Looking for calls of known tools

A call at the front of a text counts only if its tool is known; otherwise the text is left as it is.
-/

namespace ToolCalls.Call

open Text (skipBlank)

/-- What looking for a call of a known tool gave. -/
structure Attempt where
  /-- The call, if there is one. -/
  call? : Option Call
  /-- The text behind the call; without one, the whole text. -/
  rest : Text
  /-- What was noted on the way. -/
  notes : List Log.Entry := []

/-- A call of a known tool could not be read. -/
def unreadableNote (name : Text) : Log.Entry :=
  Log.debugNote (Log.logger "syntax.call_parser") "Known tool %s failed to parse".toList
    [.string name] []

/-- Looks for a call of a known tool at the front of a text, blanks before it apart. -/
def attempt (known : List Text) (options : ReadOptions) (t : Text) :
    Except Decimal.Oversized Attempt :=
  let start := skipBlank t
  match Literal.readName start with
  | .found name rest =>
    if known.contains name && Literal.startsWith (· == '(') (skipBlank rest) then
      match read true options.dropTag start with
      | .found call rest => .ok ⟨some call, rest, []⟩
      | .absent _ => .ok ⟨none, t, [unreadableNote name]⟩
      | .fault o => .error o
    else .ok ⟨none, t, []⟩
  | _ => .ok ⟨none, t, []⟩

end ToolCalls.Call

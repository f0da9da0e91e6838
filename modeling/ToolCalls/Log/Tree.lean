import ToolCalls.Text.Basic

/-!
# The tree of loggers

Loggers have dotted names, and a logger hangs below another one if what stands before one of its
dots is the other's name.  What matters here is whether a logger hangs below the common one of this
library (`reachesRoot`), directly or through loggers between them.
-/

namespace ToolCalls.Log

/-- The logger that all loggers of this library are below. -/
def rootLogger : Text := "chuk_tool_format".toList

/-- The logger with the given name below the common one. -/
def logger (name : String) : Text := rootLogger ++ '.' :: name.toList

/-- Whether a logger hangs below the common one; its name is given backwards, and with it the
loggers that are known.  The dots of the name are looked at from the right.  Where no known logger's
name stands before a dot, the character before that dot is passed over, be it a dot itself. -/
def isBelow (known : List Text) : Text → Bool
  | '.' :: c :: t =>
    let above := (c :: t).reverse
    if above = rootLogger then true
    else if known.contains above then isBelow known (c :: t)
    else isBelow known t
  | _ :: t => isBelow known t
  | [] => false

/-- Whether the records of a logger reach the common one. -/
def reachesRoot (known : List Text) (name : Text) : Bool :=
  name == rootLogger || isBelow known name.reverse

end ToolCalls.Log

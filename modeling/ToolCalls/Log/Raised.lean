import ToolCalls.Log.Record

/-!
# Raised errors in records

A record may report an error.  It is shown by the name of its class and its message.
-/

namespace ToolCalls.Log

/-- An error by its class and what it was made of. -/
structure Raised where
  className : Text
  arguments : List Datum

namespace Raised

/-- The classes of this library's own errors. -/
def ownClasses : List Text :=
  ["ToolFormatError".toList, "ParserError".toList, "ConfigurationError".toList]

/-- Whether the error is one of this library's own. -/
def isOwn (r : Raised) : Bool := ownClasses.contains r.className

/-- The message of an error: its only argument, or all of them in parentheses.  The library's own
errors have their message first; a missing key is shown between quotes. -/
def message (r : Raised) : Text :=
  match r.arguments with
  | [] => []
  | d :: ds =>
    if r.isOwn then d.text
    else if !ds.isEmpty then Datum.shown (.tuple (d :: ds))
    else if r.className = "KeyError".toList then d.shown
    else d.text

/-- The class with the module it belongs to. -/
def fullName (r : Raised) : Text :=
  if r.isOwn then rootLogger ++ ".core.exceptions.".toList ++ r.className else r.className

/-- The error on one line; the class alone if the message is empty. -/
def write (r : Raised) : Text :=
  if r.message.isEmpty then r.fullName else r.fullName ++ ':' :: ' ' :: r.message

/-- What is shown where an error was to be reported and there was none. -/
def absent : Text := "NoneType: None".toList

end Raised

end ToolCalls.Log

import ToolCalls.Log.Context
import ToolCalls.Log.Level
import ToolCalls.Log.Tree

/-!
# Log records

An `Entry` is what a caller asks to be logged: a severity, a logger, a message with places for its
arguments, and extra data.  It becomes a `Record` by filling in the message and putting the fields
of the context under the entry's own.  An entry whose extra data have a name that records keep for
themselves is refused (`Entry.clash?`).
-/

namespace ToolCalls.Log

/-! ## Messages -/

/-- The template with its places filled in order.  `%s` and `%d` are places, `%%` is a percent
sign. -/
def fill : Text → List Datum → Text
  | '%' :: '%' :: t, ds => '%' :: fill t ds
  | '%' :: 's' :: t, d :: ds => d.text ++ fill t ds
  | '%' :: 'd' :: t, d :: ds => d.text ++ fill t ds
  | c :: t, ds => c :: fill t ds
  | [], _ => []

/-- The number of places in a template. -/
def places : Text → Nat
  | '%' :: '%' :: t => places t
  | '%' :: 's' :: t | '%' :: 'd' :: t => places t + 1
  | _ :: t => places t
  | [] => 0

/-- The message of a template and its arguments.  Without arguments the template is the message. -/
def message (template : Text) (arguments : List Datum) : Text :=
  if arguments.isEmpty then template else fill template arguments

/-- Why arguments do not go with a template. -/
inductive Misfit where
  | tooFew
  | tooMany
deriving DecidableEq, Repr

/-- The wording of a misfit. -/
def Misfit.message : Misfit → Text
  | tooFew => "not enough arguments for format string".toList
  | tooMany => "not all arguments converted during string formatting".toList

/-- Why the arguments do not go with the template, if they do not.  None at all go with any. -/
def misfit? (template : Text) (arguments : List Datum) : Option Misfit :=
  if arguments.isEmpty then none
  else match compare arguments.length (places template) with
    | .lt => some .tooFew
    | .eq => none
    | .gt => some .tooMany

/-! ## Entries and records -/

/-- What a caller asks to be logged. -/
structure Entry where
  severity : Severity
  logger : Text
  template : Text
  arguments : List Datum := []
  extra : Fields Datum := []

/-- What is logged. -/
structure Record where
  severity : Severity
  logger : Text
  message : Text
  /-- The context of the record; null if it has none. -/
  context : Datum := .null
  /-- Further data of the record; null if there are none. -/
  extra : Datum := .null

/-- The name of the extra datum that holds an entry's own context. -/
def contextKey : Text := "context".toList

/-- The name of the extra datum that holds further fields. -/
def extraKey : Text := "extra".toList

/-- The fields of a datum that is an object. -/
def fieldsOf : Datum → Fields Datum
  | .object fields => fields
  | _ => []

/-- The record of an entry under the given context fields.  The entry's own context comes on top of
them; if nothing comes together the entry's own context stays as it was given. -/
def Entry.record (e : Entry) (fields : Fields Datum) : Record :=
  let own := (e.extra.get? contextKey).getD .null
  let merged := fields.merge (fieldsOf own)
  { severity := e.severity
    logger := e.logger
    message := message e.template e.arguments
    context := if merged.isEmpty then own else .object merged
    extra := (e.extra.get? extraKey).getD .null }

/-- The names that a record keeps for itself. -/
def reservedNames : List Text :=
  ["name", "msg", "args", "levelname", "levelno", "pathname", "filename", "module", "exc_info",
    "exc_text", "stack_info", "lineno", "funcName", "created", "msecs", "relativeCreated", "thread",
    "threadName", "processName", "process", "message", "asctime"].map String.toList

/-- An extra datum under a reserved name. -/
structure Clash where
  name : Text
deriving DecidableEq, Repr

/-- The wording of the refusal. -/
def Clash.message (c : Clash) : Text :=
  Text.quoted ("Attempt to overwrite ".toList ++ Text.quoted c.name ++ " in LogRecord".toList)

/-- The first of an entry's extra data that has a reserved name. -/
def Entry.clash? (e : Entry) : Option Clash :=
  (e.extra.keys.find? reservedNames.contains).map Clash.mk

/-- The entry of a note that a part of this library makes. -/
def debugNote (logger template : Text) (arguments : List Datum) (context : Fields Datum) :
    Entry where
  severity := .debug
  logger := logger
  template := template
  arguments := arguments
  extra := if context.isEmpty then [] else [(contextKey, .object context)]

end ToolCalls.Log

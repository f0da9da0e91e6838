import ToolCalls.Datum

/-!
# Failures

The errors of this library's own: a failure of a general kind, a text that is no call, and a wrong
setting.  Each has a message, a code and details for a program to read.
-/

namespace ToolCalls

namespace Failure

/-- What a program can tell failures apart by. -/
inductive Code where
  | parserError | invalidFormat | configurationError
deriving DecidableEq, Repr

namespace Code

/-- The name of a code. -/
def name : Code → Text
  | parserError => "PARSER_ERROR".toList
  | invalidFormat => "PARSER_INVALID_FORMAT".toList
  | configurationError => "CONFIGURATION_ERROR".toList

/-- All codes. -/
def all : List Code := [parserError, invalidFormat, configurationError]

/-- The code of a name. -/
def ofName? (t : Text) : Option Code := all.find? fun c => c.name == t

/-- What is said of a name that is no code's. -/
def unknownMessage (t : Text) : Text := Text.quoted t ++ " is not a valid ErrorCode".toList

end Code

end Failure

/-- An error of this library's own. -/
inductive Failure where
  /-- A failure of a general kind. -/
  | general (message : Text) (code : Failure.Code) (details : Fields Datum)
  /-- A text could not be read. -/
  | parsing (message : Text) (parser? sample? : Option Text) (code : Failure.Code)
  /-- A setting is wrong. -/
  | configuration (message : Text) (setting? : Option Text)

namespace Failure

/-- The longest sample of a text that is shown whole. -/
def maxSample : Nat := 200

/-- The sample of a text: its beginning, with dots behind it if anything is left out. -/
def sample (t : Text) : Text :=
  if maxSample < t.length then t.take maxSample ++ ['.', '.', '.'] else t

/-- The message of a failure. -/
def message : Failure → Text
  | general message _ _ | parsing message _ _ _ | configuration message _ => message

/-- The code of a failure. -/
def code : Failure → Code
  | general _ code _ | parsing _ _ _ code => code
  | configuration .. => .configurationError

/-- A field with a text, left out if there is none or it is empty. -/
def textDetail (key : Text) : Option Text → Fields Datum
  | none | some [] => []
  | some t => [(key, .string t)]

/-- The details of a failure. -/
def details : Failure → Fields Datum
  | general _ _ details => details
  | parsing _ parser? sample? _ =>
    textDetail "parser_name".toList parser? ++
      match sample? with
      | none => []
      | some t => [("input_sample".toList, .string (sample t))]
  | configuration _ setting? => textDetail "setting".toList setting?

end Failure

end ToolCalls

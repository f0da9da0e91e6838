import ToolCalls.Call
import ToolCalls.Literal
import ToolCalls.Options

/-!
# Reading calls

A call is a name, its arguments between parentheses, and an optional fenced block behind it:

    edit("/f.txt", old: "a", new: "b")
    shell(lang: "sh") ```ls -la```

An argument is a value, or a name, a colon and a value.  A comma separates it from the next one, or
nothing does if the next character can begin an argument.  Arguments are read into a list of
`Argument`s, which `file` then turns into named fields.
-/

namespace ToolCalls

namespace Call

open Text (skipBlank skipInline before)

/-! ## Arguments -/

/-- An argument as it is written: a value, with or without a name. -/
structure Argument where
  name? : Option Text
  value : Value

/-- Files arguments under their names, those without a name under their positions, which are counted
from `next` on. -/
def fileFrom (next : Nat) (fields : Fields Value) : List Argument → Fields Value
  | [] => fields
  | ⟨some name, v⟩ :: rest => fileFrom next (fields.put name v) rest
  | ⟨none, v⟩ :: rest => fileFrom (next + 1) (fields.put (positionKey next) v) rest

/-- The arguments as named fields. -/
def file (arguments : List Argument) : Fields Value := fileFrom 0 [] arguments

/-- Reads one argument.  A name without a colon behind it is no argument's name, and is read again
as a value. -/
def readArgument (dropsTag : Bool) (t : Text) : Reading Argument :=
  let t := skipBlank t
  let bare := (Literal.readValue dropsTag t).map (Argument.mk none)
  match Literal.readName t with
  | .found name rest =>
    match skipBlank rest with
    | ':' :: rest => (Literal.readValue dropsTag rest).map (Argument.mk (some name))
    | _ => bare
  | _ => bare

/-- Reads one or more arguments up to the closing parenthesis, which is left, in at most the given
number of rounds.  Every round consumes a value. -/
def readArguments (dropsTag : Bool) : Nat → Text → Reading (List Argument)
  | 0, t => .absent t
  | rounds + 1, t =>
    (readArgument dropsTag t).andThen fun a rest =>
      match skipBlank rest with
      | [] => .absent []
      | c :: rest =>
        if c = ')' then .found [a] (c :: rest)
        else if c = ',' then (readArguments dropsTag rounds rest).map (a :: ·)
        else if Literal.canStart c then (readArguments dropsTag rounds (c :: rest)).map (a :: ·)
        else .absent (c :: rest)

/-- Reads the arguments of a call up to the closing parenthesis, which is left. -/
def readArgumentList (dropsTag : Bool) (t : Text) : Reading (List Argument) :=
  match skipBlank t with
  | ')' :: rest => .found [] (')' :: rest)
  | t => readArguments dropsTag (t.length + 1) t

/-! ## Behind the closing parenthesis -/

/-- Whether only spaces and tabs stand before a line end, a fence or the end of the text. -/
def endsLine (t : Text) : Bool :=
  match skipInline t with
  | [] => true
  | c :: rest => c == '\r' || c == '\n' || decide (minTicks ≤ tickRun (c :: rest))

/-- Reads the block behind a call.  Without one the content is empty and nothing is consumed; a
block that does not end is none of a call's. -/
def readContent (dropsTag : Bool) (t : Text) : Reading Text :=
  let t' := skipInline t
  if tickRun t' < minTicks then .found [] t
  else match Fence.read? t' with
    | some (fence, rest) => .found (Block.clean dropsTag fence.body) rest
    | none => .absent t'

/-! ## Calls -/

/-- Reads a call at the front of a text, with or without the rule about the end of its line. -/
def read (requireLineEnd dropsTag : Bool) (t : Text) : Reading Call :=
  (Literal.readName t).andThen fun name rest =>
    match skipBlank rest with
    | '(' :: rest =>
      (readArgumentList dropsTag rest).andThen fun arguments rest =>
        match skipBlank rest with
        | ')' :: rest =>
          if requireLineEnd && !endsLine rest then .absent rest
          else (readContent dropsTag rest).andThen fun content rest =>
            .found ⟨name, file arguments, content, before t rest⟩ rest
        | rest => .absent rest
    | rest => .absent rest

/-- The call at the front of a text. -/
def parse? (requireLineEnd : Bool) (options : ReadOptions) (t : Text) :
    Except Decimal.Oversized (Option Call) :=
  (read requireLineEnd options.dropTag t).result

end Call

end ToolCalls

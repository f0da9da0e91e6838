import ToolCalls.Text.Blank
import ToolCalls.Text.Lines
import ToolCalls.Text.Word

/-!
# Blocks

The body of a fence as a block of text: a language tag behind the opening run is dropped, so are an
empty first and an empty last line, and the indentation that the lines have in common.
-/

namespace ToolCalls.Block

/-- A line with nothing but white space on it. -/
def isEmptyLine (line : Text) : Bool := line.all Text.isWhite

/-- The number of spaces and tabs that a line starts with. -/
def indent (line : Text) : Nat := (line.takeWhile Text.isInline).length

/-- The least indentation of the lines that are not empty; nothing if all are. -/
def commonIndent? (lines : List Text) : Option Nat :=
  ((lines.filter fun l => !isEmptyLine l).map indent).min?

/-- The line without its first `k` characters; a shorter line stays as it is. -/
def cutLine (k : Nat) (line : Text) : Text := if k ≤ line.length then line.drop k else line

/-- The lines without the indentation they have in common. -/
def dedentLines (lines : List Text) : List Text :=
  match commonIndent? lines with
  | none => lines
  | some k => lines.map (cutLine k)

/-- The text without the indentation that its lines have in common. -/
def dedent (t : Text) : Text := Text.unlines (dedentLines (Text.lines t))

/-- A character of a language tag. -/
def isTagChar (c : Char) : Bool := Text.isWord c || c == '+' || c == '.' || c == '#' || c == '-'

/-- Whether a text starts with a line end. -/
def startsWithLineEnd : Text → Bool
  | '\n' :: _ => true
  | '\r' :: '\n' :: _ => true
  | _ => false

/-- The text without the language tag that fills its first line. -/
def dropTag (t : Text) : Text :=
  let rest := t.dropWhile isTagChar
  if (t.takeWhile isTagChar).isEmpty || !startsWithLineEnd rest then t else rest

/-- The lines without an empty first line. -/
def dropFirst : List Text → List Text
  | first :: second :: rest =>
    if first.all fun c => Text.isInline c || c == '\r' then second :: rest
    else first :: second :: rest
  | lines => lines

/-- The line without a carriage return at its end. -/
def dropReturn (line : Text) : Text :=
  if line.getLast? = some '\r' then line.dropLast else line

/-- The lines without an empty last line.  The line before it then ends the text, and a carriage
return at its end goes too. -/
def dropLast : List Text → List Text
  | [] => []
  | [line] => [line]
  | [line, last] => if last.all Text.isInline then [dropReturn line] else [line, last]
  | line :: lines => line :: dropLast lines

/-- The body of a fence, cleaned: tag, edges, indentation. -/
def clean (dropsTag : Bool) (body : Text) : Text :=
  let body := if dropsTag then dropTag body else body
  Text.unlines (dedentLines (dropLast (dropFirst (Text.lines body))))

end ToolCalls.Block

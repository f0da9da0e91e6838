import ToolCalls.Call.Reader
import ToolCalls.Scanner.State

/-!
# Scanners

A scanner finds the calls of known tools in a stream of characters:

* a call starts at the beginning of a line, spaces and tabs before it apart, with a known name and
  an opening parenthesis right behind it;
* behind the closing parenthesis only a line end, the end of the stream or a fenced block may
  follow;
* what has been held back is read as a call, and passed on as text if it is none.

`step` takes one character, `feed` a chunk of them, and `finalize` ends the stream.
-/

namespace ToolCalls

/-- A scanner: the tools it knows, its options and who receives its calls. -/
structure Scanner where
  tools : List Text
  scan : ScanOptions := {}
  read : ReadOptions := {}
  /-- Whether the beginning of a call is reported. -/
  status : Bool := false
  /-- What the receiver of calls makes of one.  A receiver that fails stops the scanner. -/
  receive : Call → Except Decimal.Oversized Unit := fun _ => .ok ()

namespace Scanner

/-! ## Notes -/

/-- The logger of scanners. -/
def logger : Text := Log.logger "streaming.scanner"

/-- A name with a parenthesis behind it is no tool's. -/
def unknownToolNote (name : Text) : Log.Entry :=
  Log.debugNote logger "Unknown tool %s, forwarding as text".toList [.string name]
    [("tool".toList, .string name)]

/-- A text that was held back is no call. -/
def rejectedNote (raw : Text) : Log.Entry :=
  Log.debugNote logger "Buffered call rejected by parser, forwarding as text".toList []
    [("length".toList, .integer raw.length)]

/-- The stream ended in a call. -/
def brokenOffNote (mode : Mode) : Log.Entry :=
  Log.debugNote logger "Stream ended inside a tool call".toList []
    [("state".toList, .string mode.label), ("length".toList, .integer mode.held.length)]

/-! ## One character at a time -/

/-- A character of plain text. -/
def textStep (sc : Scanner) (s : State) (lineStart : Bool) (c : Char) : Outcome :=
  if lineStart && Literal.isNameStart c then { s with mode := .name [c] }.flush
  else
    let lineStart := if lineStart && Text.isInline c then true else c == '\n'
    let s := { s.append [c] with mode := .text lineStart }
    if c = '\n' ∨ sc.scan.flushThreshold < s.size then s.flush else { state := s }

/-- A character after text that is plain text after all. -/
def backToText (sc : Scanner) (s : State) (held : Text) (c : Char) : Outcome :=
  sc.textStep (s.append held) false c

/-- Reads what was held back as a call.  If it is none, `fallback` is passed on in its place; what
stands behind a call that was received is plain text. -/
def resolve (sc : Scanner) (s : State) (raw fallback : Text) : Outcome :=
  { s with mode := .text false }.flush.andThen fun s =>
    match Call.read false sc.read.dropTag raw with
    | .found call rest => match sc.receive call with
      | .ok () => { state := s.append rest, events := [.tool call] }
      | .error o => { state := s, fault? := some o }
    | .absent _ => { state := s, events := textEvents fallback, notes := [rejectedNote raw] }
    | .fault o => { state := s, fault? := some o }

/-- Reads what was held back as a call, and goes on with a character of plain text. -/
def complete (sc : Scanner) (s : State) (held : Text) (c : Char) : Outcome :=
  (sc.resolve s held held).andThen fun s => sc.textStep s false c

/-- A character behind the beginning of a name. -/
def nameStep (sc : Scanner) (s : State) (held : Text) (c : Char) : Outcome :=
  if Literal.isNameChar c then { state := { s with mode := .name (held ++ [c]) } }
  else if c = '(' then
    if sc.tools.contains held then
      { state := { s with mode := .call (held ++ [c]) {} }
        events := if sc.status then [.status held] else [] }
    else
      let o := sc.backToText s held c
      { o with notes := unknownToolNote held :: o.notes }
  else sc.backToText s held c

/-- A character in a call. -/
def callStep (s : State) (held : Text) (k : Tracker) (c : Char) : Outcome :=
  let k' := k.step c
  if !k.escaped && k'.closed then { state := { s with mode := .afterCall (held ++ [c]) 0 } }
  else { state := { s with mode := .call (held ++ [c]) k' } }

/-- A character behind the closing parenthesis. -/
def afterCallStep (sc : Scanner) (s : State) (held : Text) (run : Nat) (c : Char) : Outcome :=
  if c = tick then
    let run := run + 1
    if minTicks ≤ run then { state := { s with mode := .content (held ++ [c]) run 0 false } }
    else { state := { s with mode := .afterCall (held ++ [c]) run } }
  else if run ≠ 0 then sc.backToText s held c
  else if Text.isInline c || c == '\r' then
    { state := { s with mode := .afterCall (held ++ [c]) 0 } }
  else if c = '\n' then sc.complete s held c
  else sc.backToText s held c

/-- A character of the block behind a call. -/
def contentStep (sc : Scanner) (s : State) (held : Text) (width run : Nat) (opened : Bool)
    (c : Char) : Outcome :=
  if !opened then
    if c = tick then { state := { s with mode := .content (held ++ [c]) (width + 1) run false } }
    else { state := { s with mode := .content (held ++ [c]) width run true } }
  else if c = tick then { state := { s with mode := .content (held ++ [c]) width (run + 1) true } }
  else if run = width then sc.complete s held c
  else { state := { s with mode := .content (held ++ [c]) width 0 true } }

/-- One more character of the stream. -/
def step (sc : Scanner) (s : State) (c : Char) : Outcome :=
  match s.mode with
  | .text lineStart => sc.textStep s lineStart c
  | .name held => sc.nameStep s held c
  | .call held k => callStep s held k c
  | .afterCall held run => sc.afterCallStep s held run c
  | .content held width run opened => sc.contentStep s held width run opened c

/-! ## Streams -/

/-- A chunk of the stream. -/
def feed (sc : Scanner) (s : State) : Text → Outcome
  | [] => { state := s }
  | c :: t => (sc.step s c).andThen fun s => sc.feed s t

/-- What is still held back when the stream ends. -/
def settle (sc : Scanner) (s : State) : Outcome :=
  match s.mode with
  | .text _ => { state := s }
  | .name held => { state := s, events := textEvents held }
  | .afterCall held _ => sc.resolve s held held
  | .call held _ | .content held _ _ _ =>
    let o := sc.resolve s held (sc.scan.incomplete held)
    { o with notes := brokenOffNote s.mode :: o.notes }

/-- The end of the stream.  The scanner is ready for another one. -/
def finalize (sc : Scanner) (s : State) : Outcome :=
  (s.flush.andThen sc.settle).andThen fun s => s.flush.andThen fun _ => { state := {} }

/-- Several chunks and the end of the stream. -/
def feedAll (sc : Scanner) (s : State) : List Text → Outcome
  | [] => sc.finalize s
  | chunk :: chunks => (sc.feed s chunk).andThen fun s => sc.feedAll s chunks

/-- The states after each character of a chunk, up to a fault. -/
def trace (sc : Scanner) (s : State) : Text → List State
  | [] => []
  | c :: t =>
    let o := sc.step s c
    if o.fault?.isSome then [] else o.state :: sc.trace o.state t

@[simp] theorem feed_nil (sc : Scanner) (s : State) : sc.feed s [] = { state := s } := rfl

@[simp] theorem feed_cons (sc : Scanner) (s : State) (c : Char) (t : Text) :
    sc.feed s (c :: t) = (sc.step s c).andThen fun s => sc.feed s t := rfl

/-- Where a chunk is cut does not matter. -/
theorem feed_append (sc : Scanner) (s : State) (t u : Text) :
    sc.feed s (t ++ u) = (sc.feed s t).andThen fun s => sc.feed s u := by
  induction t generalizing s with
  | nil => simp
  | cons c t ih =>
    rw [List.cons_append, feed_cons, feed_cons, Outcome.andThen_assoc]
    congr 1
    funext s'
    exact ih s'

end Scanner

end ToolCalls

import ToolCalls.Defect

/-!
# Calls

A call of a tool: its name, its arguments under their names, the content behind it and its source
text.  An argument without a name is filed under its position, `_0`, `_1` and so on (`positionKey`).
The views `positional` and `named` take the two sorts of arguments apart again.
-/

namespace ToolCalls

/-- A call of a tool. -/
structure Call where
  name : Text
  arguments : Fields Value := []
  content : Text := []
  raw : Text := []

namespace Call

/-- The name under which the argument at a position is filed. -/
def positionKey (n : Nat) : Text := '_' :: Decimal.ofNat n

/-- The digits in a name that stands for a position. -/
def positionDigits? : Text → Option Text
  | '_' :: c :: t =>
    if (c :: t).all fun d => (Text.digitValue? d).isSome then some (c :: t) else none
  | _ => none

/-- Whether a name stands for a position: an underscore and digits, of any script. -/
def isPositionKey (key : Text) : Bool := (positionDigits? key).isSome

/-- The position that a name stands for.  Names with too many digits are refused. -/
def position? (key : Text) : Except Decimal.Oversized (Option Nat) :=
  match positionDigits? key with
  | none => .ok none
  | some digits => Decimal.within digits (Text.digitsValue? digits)

/-- The arguments filed under a position, each with its position, in order of appearance. -/
def withPosition : Fields Value → Except Decimal.Oversized (List (Nat × Value))
  | [] => .ok []
  | (key, v) :: rest =>
    match position? key with
    | .error o => .error o
    | .ok none => withPosition rest
    | .ok (some n) => (withPosition rest).map ((n, v) :: ·)

/-- The arguments filed under a position, in order of position; those of one position in order of
appearance. -/
def positional (c : Call) : Except Decimal.Oversized (List Value) :=
  (withPosition c.arguments).map fun vs =>
    (vs.mergeSort fun a b => decide (a.1 ≤ b.1)).map (·.2)

/-- The arguments under names that stand for no position. -/
def named (c : Call) : Fields Value := c.arguments.filter fun e => !isPositionKey e.1

/-- What the arguments denote. -/
def plain (c : Call) : Fields Datum := c.arguments.mapValues Value.datum

/-- The call in one line, with the arguments as they were written. -/
def summary (c : Call) : Text :=
  "ParsedCall(".toList ++ c.name ++ '(' ::
    Datum.commaSeparated (c.arguments.map fun e => e.1 ++ '=' :: e.2.raw) ++ [')', ')']

/-! ## Drafts of calls -/

/-- The parts of a call, unchecked. -/
structure Draft where
  name : Datum
  arguments : Fields Value := []
  content : Datum := .string []
  raw : Datum := .string []

/-- The parts of a call. -/
def toDraft (c : Call) : Draft where
  name := .string c.name
  arguments := c.arguments
  content := .string c.content
  raw := .string c.raw

/-- The text in a field, or the defect that there is none. -/
def Draft.textField (field : Text) : Datum → Except Defect Text
  | .string t => .ok t
  | _ => .error (.notText field)

/-- The name in a draft. -/
def Draft.checkName (d : Draft) : Except Defect Text :=
  match d.name with
  | .string [] => .error .emptyName
  | name => Draft.textField "name".toList name

/-- The call that a draft describes, or all that is wrong with its fields. -/
def Draft.check (d : Draft) : Except (List Defect) Call :=
  match d.checkName, Draft.textField "content".toList d.content,
      Draft.textField "raw".toList d.raw with
  | .ok name, .ok content, .ok raw =>
    .ok { name := name, arguments := d.arguments, content := content, raw := raw }
  | name, content, raw => .error (defect name ++ defect content ++ defect raw)
where
  /-- The defect of a field as a list. -/
  defect : Except Defect Text → List Defect
    | .ok _ => []
    | .error e => [e]

/-- The parts of a call with a name fit together. -/
theorem check_toDraft {c : Call} (h : c.name ≠ []) : c.toDraft.check = .ok c := by
  obtain ⟨name, arguments, content, raw⟩ := c
  cases name with
  | nil => exact absurd rfl h
  | cons a t => rfl

end Call

end ToolCalls

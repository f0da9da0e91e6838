import ToolCalls.Defect

/-!
# Options

What can be chosen about reading calls and about scanning streams for them.
-/

namespace ToolCalls

/-- Options for reading a call. -/
structure ReadOptions where
  /-- Whether only a line end or a fence may follow a call on its line. -/
  requireLineEnd : Bool := true
  /-- Whether the language tag of a block is dropped. -/
  dropTag : Bool := true
deriving DecidableEq, Repr

/-- Options for scanning a stream. -/
structure ScanOptions where
  /-- Plain text is passed on when more than this many characters have been held back. -/
  flushThreshold : Nat := 80
  /-- What stands for a call that the stream breaks off in. -/
  marker : Text := "[Incomplete tool call: \x7braw\x7d]".toList
deriving DecidableEq, Repr

namespace ScanOptions

/-- The scan options with the given threshold and marker, if the threshold is at least one. -/
def check (threshold : Int) (marker : Text) : Except (List Defect) ScanOptions :=
  if threshold < 1 then .error [.thresholdTooSmall]
  else .ok { flushThreshold := threshold.toNat, marker := marker }

/-- The text with every `{raw}` in it replaced.  What is put in is not searched again. -/
def fill (raw : Text) : Text → Text
  | '\x7b' :: 'r' :: 'a' :: 'w' :: '\x7d' :: t => raw ++ fill raw t
  | c :: t => c :: fill raw t
  | [] => []

/-- What is passed on for a call that the stream breaks off in. -/
def incomplete (o : ScanOptions) (raw : Text) : Text := fill raw o.marker

end ScanOptions

end ToolCalls

/-!
# Texts

A text is the list of its characters, so positions and lengths count code points.  Readers work on
the text that is still to be read; what they consumed is `before t rest`, the part of the text they
started from in front of the text they left.
-/

namespace ToolCalls

/-- Text as the list of its characters. -/
abbrev Text := List Char

namespace Text

/-- The part of `t` in front of its suffix `rest`. -/
def before (t rest : Text) : Text := t.take (t.length - rest.length)

@[simp] theorem before_append (a rest : Text) : before (a ++ rest) rest = a := by
  simp [before]

@[simp] theorem before_self (t : Text) : before t t = [] := by
  simp [before]

/-- Whether a code point lies in one of the closed ranges of a table. -/
def inRanges (table : List (Nat × Nat)) (n : Nat) : Bool :=
  table.any fun r => decide (r.1 ≤ n ∧ n ≤ r.2)

theorem inRanges_iff {table : List (Nat × Nat)} {n : Nat} :
    inRanges table n = true ↔ ∃ r ∈ table, r.1 ≤ n ∧ n ≤ r.2 := by
  simp [inRanges]

end Text

end ToolCalls

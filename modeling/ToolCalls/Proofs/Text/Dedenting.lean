import ToolCalls.Proofs.Call.Blocks
import ToolCalls.Proofs.Text.Indentation

/-!
# Dedented texts

Dedenting takes the same number of spaces and tabs from every line that is not empty, so that the
widths of their indentations keep their differences and the least of them becomes zero.  It turns no
line into an empty one and no empty one into another, and neither adds nor removes a line.  A text
whose least indentation is zero already stays as it is, hence so does a dedented one.
-/

namespace ToolCalls.Block

open Literal (startsWith)
open Text (AllOf isInline lines unlines)

/-! ## One line -/

section Line

variable {k : Nat} {line : Text}

theorem cutLine_zero : cutLine 0 = id := by
  funext line
  rw [cutLine, if_pos (Nat.zero_le _), List.drop_zero, id]

/-- A line that is indented far enough is the indentation that is cut off and what is left. -/
theorem take_append_cutLine (h : k ≤ indent line) : line.take k ++ cutLine k line = line := by
  rw [cutLine, if_pos (inline_take_of_le_indent h).1, List.take_append_drop]

theorem isEmptyLine_cutLine (h : k ≤ indent line) :
    isEmptyLine (cutLine k line) = isEmptyLine line := by
  have hinline := (inline_take_of_le_indent h).2
  calc isEmptyLine (cutLine k line)
      = isEmptyLine (line.take k ++ cutLine k line) := (isEmptyLine_append hinline _).symm
    _ = isEmptyLine line := by rw [take_append_cutLine h]

theorem isEmptyLine_cutLine_of_empty (h : isEmptyLine line = true) (k : Nat) :
    isEmptyLine (cutLine k line) = true := by
  unfold cutLine
  split
  · rw [isEmptyLine, List.all_eq_true] at h ⊢
    exact fun c hc => h c (List.mem_of_mem_drop hc)
  · exact h

theorem indent_cutLine (h : k ≤ indent line) : indent line = k + indent (cutLine k line) := by
  obtain ⟨hlength, hinline⟩ := inline_take_of_le_indent h
  calc indent line
      = indent (line.take k ++ cutLine k line) := by rw [take_append_cutLine h]
    _ = (line.take k).length + indent (cutLine k line) := indent_append hinline _
    _ = k + indent (cutLine k line) := by rw [List.length_take, Nat.min_eq_left hlength]

theorem startsWith_inline_of_indent (h : indent line = 0) : startsWith isInline line = false := by
  cases line with
  | nil => rfl
  | cons c line =>
    rw [Text.startsWith_cons, Bool.eq_false_iff]
    intro hc
    rw [indent, List.takeWhile_cons_of_pos hc] at h
    cases h

end Line

/-- What becomes of a line: an empty one stays empty, and any other loses the given number of spaces
and tabs, nothing else, and does not become empty. -/
inductive Dedents (k : Nat) : Text → Text → Prop where
  | empty {line line' : Text} (h : isEmptyLine line = true) (h' : isEmptyLine line' = true) :
      Dedents k line line'
  | cut {p line' : Text} (hp : AllOf isInline p) (hk : p.length = k)
      (h' : isEmptyLine line' = false) : Dedents k (p ++ line') line'

theorem dedents_cutLine {k : Nat} {line : Text} (h : isEmptyLine line = false → k ≤ indent line) :
    Dedents k line (cutLine k line) := by
  cases hempty : isEmptyLine line with
  | true => exact .empty hempty (isEmptyLine_cutLine_of_empty hempty k)
  | false =>
    have hk := h hempty
    obtain ⟨hlength, hinline⟩ := inline_take_of_le_indent hk
    have hcut : Dedents k (line.take k ++ cutLine k line) (cutLine k line) := by
      apply Dedents.cut hinline
      · rw [List.length_take, Nat.min_eq_left hlength]
      · rw [isEmptyLine_cutLine hk, hempty]
    rwa [take_append_cutLine hk] at hcut

/-- The widths of two indentations keep their difference. -/
theorem Dedents.indent_eq {k : Nat} {line line' : Text} (h : Dedents k line line')
    (hline : isEmptyLine line = false) : indent line = k + indent line' := by
  cases h with
  | empty h h' =>
    rw [h] at hline
    cases hline
  | cut hp hk h' => rw [indent_append hp, hk]

/-! ## All lines -/

section Lines

variable {ls : List Text} {k : Nat}

theorem commonIndent?_eq_none (h : ∀ line ∈ ls, isEmptyLine line = true) :
    commonIndent? ls = none := by
  have hfilter : (ls.filter fun line => !isEmptyLine line) = [] := by
    rw [List.filter_eq_nil_iff]
    intro line hline
    simp [h line hline]
  rw [commonIndent?, hfilter]
  rfl

/-- Without the least indentation the least indentation is zero. -/
theorem commonIndent?_map_cutLine (h : commonIndent? ls = some k) :
    commonIndent? (ls.map (cutLine k)) = some 0 := by
  obtain ⟨⟨line, hline, hempty, hk⟩, -⟩ := commonIndent?_eq_some_iff.1 h
  have hle : k ≤ indent line := by omega
  rw [commonIndent?_eq_some_iff]
  refine ⟨⟨cutLine k line, List.mem_map_of_mem hline, ?_, ?_⟩, fun _ _ _ => Nat.zero_le _⟩
  · rw [isEmptyLine_cutLine hle, hempty]
  · have hcut := indent_cutLine hle
    omega

theorem dedentLines_of_zero (h : commonIndent? ls = some 0) : dedentLines ls = ls := by
  rw [dedentLines, h]
  show ls.map (cutLine 0) = ls
  rw [cutLine_zero, List.map_id]

theorem dedentLines_dedentLines (ls : List Text) :
    dedentLines (dedentLines ls) = dedentLines ls := by
  cases h : commonIndent? ls with
  | none =>
    have hsame : dedentLines ls = ls := by rw [dedentLines, h]
    rw [hsame, hsame]
  | some k =>
    have hcut : dedentLines ls = ls.map (cutLine k) := by rw [dedentLines, h]
    rw [hcut, dedentLines_of_zero (commonIndent?_map_cutLine h)]

end Lines

/-- Dedenting keeps the number of lines, and leaves a text as it is whose lines are all empty.  From
any other it takes the least indentation `k` off every line that is not empty, spaces and tabs
alone, so that one of them is not indented any more and all of them keep their widths relative to
each other.  A second time it changes nothing. -/
theorem dedent_takes_least_indent (t : Text) :
    (lines (dedent t)).length = (lines t).length ∧
    ((∀ line ∈ lines t, isEmptyLine line = true) → dedent t = t) ∧
    ((∃ line ∈ lines t, isEmptyLine line = false) →
      ∃ k, (∃ line ∈ lines t, isEmptyLine line = false ∧ indent line = k) ∧
        (∀ line ∈ lines t, isEmptyLine line = false → k ≤ indent line) ∧
        List.Forall₂ (Dedents k) (lines t) (lines (dedent t)) ∧
        List.Forall₂ (fun line line' => isEmptyLine line = false → indent line = k + indent line')
          (lines t) (lines (dedent t)) ∧
        ∃ line ∈ lines (dedent t), isEmptyLine line = false ∧ startsWith isInline line = false) ∧
    dedent (dedent t) = dedent t := by
  refine ⟨?_, fun hempty => ?_, fun hline => ?_, ?_⟩
  · rw [lines_dedent, dedentLines]
    split
    · rfl
    · exact List.length_map _
  · rw [dedent, dedentLines, commonIndent?_eq_none hempty]
    exact Text.unlines_lines t
  · obtain ⟨k, hk⟩ := exists_commonIndent hline
    obtain ⟨hattained, hleast⟩ := commonIndent?_eq_some_iff.1 hk
    have hlines : lines (dedent t) = (lines t).map (cutLine k) := by
      rw [lines_dedent, dedentLines, hk]
    have hdedents : List.Forall₂ (Dedents k) (lines t) (lines (dedent t)) := by
      rw [hlines, List.forall₂_map_right_iff, List.forall₂_same]
      exact fun line hline => dedents_cutLine (hleast line hline)
    refine ⟨k, hattained, hleast, hdedents, hdedents.imp fun _ _ h => h.indent_eq, ?_⟩
    -- the line with the least indentation is the one that is not indented any more
    have hzero := commonIndent?_map_cutLine hk
    rw [← hlines, commonIndent?_eq_some_iff] at hzero
    obtain ⟨⟨line, hline, hempty, hindent⟩, -⟩ := hzero
    exact ⟨line, hline, hempty, startsWith_inline_of_indent hindent⟩
  · rw [dedent, lines_dedent, dedentLines_dedentLines, ← dedent]

/-- Lines with different widths, and an empty line that is too short for the cut. -/
example : dedent "\t  a\n \n  \tb\n    c".toList = "a\n \nb\n c".toList := by decide

end ToolCalls.Block

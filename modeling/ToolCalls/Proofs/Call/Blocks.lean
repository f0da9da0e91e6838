import ToolCalls.Proofs.Call.Grammar
import ToolCalls.Proofs.Text.FullRuns

/-!
# Blocks written out

A `Layout` says how lines are written out as a fenced block: the length of the fences, the tag
behind the opening one, the indentation that the lines get and the one of the closing fence.
Reading undoes all of it (`Layout.read_write`).  What is asked of the lines (`Layout.Suits`) keeps
each step of cleaning from taking more away than was added: the tag, the empty first line, the empty
last line with a carriage return before it, and the indentation.
-/

namespace ToolCalls.Block

open Literal (startsWith)
open Text (AllOf HasFullRun isBlank isInline isWhite lines unlines)

/-- How lines are written out as a fenced block. -/
structure Layout where
  /-- The number of backticks in either fence. -/
  width : Nat
  /-- The language tag behind the opening fence. -/
  tag : Text := []
  /-- What stands before every line that is not empty. -/
  indent : Text := []
  /-- What stands before the closing fence. -/
  closing : Text := []
deriving DecidableEq, Repr

/-- The line with an indentation, which an empty line does not get. -/
def indentLine (p line : Text) : Text := if line = [] then [] else p ++ line

namespace Layout

/-- The text between the fences. -/
def body (l : Layout) (ls : List Text) : Text :=
  l.tag ++ '\n' :: (unlines (ls.map (indentLine l.indent)) ++ '\n' :: l.closing)

/-- The lines as a fenced block. -/
def write (l : Layout) (ls : List Text) : Text := ticks l.width ++ l.body ls ++ ticks l.width

/-- The lines can be told from what the layout adds to them. -/
structure Suits (dropsTag : Bool) (l : Layout) (ls : List Text) : Prop where
  width : 3 ≤ l.width
  tag : l.tag = [] ∨ dropsTag = true ∧ AllOf isTagChar l.tag
  indent : AllOf isInline l.indent
  closing : AllOf isInline l.closing
  newline : ∀ line ∈ ls, '\n' ∉ line
  /-- The lines have no indentation of their own in common. -/
  flush : ∃ line ∈ ls, isEmptyLine line = false ∧ startsWith isInline line = false
  last : ∀ line, ls.getLast? = some line → line.getLast? ≠ some '\r'
  runs : ∀ line ∈ ls, ¬ HasFullRun l.width line

end Layout

/-! ## Indentation -/

section Indentation

variable {p : Text}

theorem isEmptyLine_append (hp : AllOf isInline p) (line : Text) :
    isEmptyLine (p ++ line) = isEmptyLine line := by
  have hwhite : p.all isWhite = true := by
    rw [List.all_eq_true]
    intro c hc
    exact Text.isWhite_of_isBlank (Text.isBlank_of_isInline (hp c hc))
  rw [isEmptyLine, List.all_append, hwhite, Bool.true_and, isEmptyLine]

theorem isEmptyLine_indentLine (hp : AllOf isInline p) (line : Text) :
    isEmptyLine (indentLine p line) = isEmptyLine line := by
  unfold indentLine
  split
  · next h => rw [h]
  · exact isEmptyLine_append hp line

theorem indent_append (hp : AllOf isInline p) (line : Text) :
    indent (p ++ line) = p.length + indent line := by
  rw [indent, List.takeWhile_append_of_pos hp, List.length_append, indent]

theorem cutLine_indentLine (p line : Text) : cutLine p.length (indentLine p line) = line := by
  unfold indentLine
  split
  · next h =>
    rw [h]
    simp [cutLine]
  · rw [cutLine, if_pos (by simp), List.drop_left]

theorem commonIndent?_map_indentLine (hp : AllOf isInline p) {ls : List Text}
    (hflush : ∃ line ∈ ls, isEmptyLine line = false ∧ startsWith isInline line = false) :
    commonIndent? (ls.map (indentLine p)) = some p.length := by
  have hindent (line : Text) (h : isEmptyLine line = false) :
      indent (indentLine p line) = p.length + indent line := by
    have hne : line ≠ [] := by
      rintro rfl
      cases h
    rw [indentLine, if_neg hne, indent_append hp]
  rw [commonIndent?, List.min?_eq_some_iff]
  simp only [List.mem_map, List.mem_filter, Bool.not_eq_true']
  constructor
  · obtain ⟨line, hmem, hempty, hstart⟩ := hflush
    refine ⟨_, ⟨⟨line, hmem, rfl⟩, ?_⟩, ?_⟩
    · rw [isEmptyLine_indentLine hp, hempty]
    · rw [hindent line hempty, indent, Text.takeWhile_eq_nil hstart]
      rfl
  · rintro k ⟨_, ⟨⟨line, -, rfl⟩, hempty⟩, rfl⟩
    rw [isEmptyLine_indentLine hp] at hempty
    rw [hindent line hempty]
    omega

/-- The indentation that lines were given is taken away again. -/
theorem dedentLines_map_indentLine (hp : AllOf isInline p) {ls : List Text}
    (hflush : ∃ line ∈ ls, isEmptyLine line = false ∧ startsWith isInline line = false) :
    dedentLines (ls.map (indentLine p)) = ls := by
  have hcut : cutLine p.length ∘ indentLine p = id := funext (cutLine_indentLine p)
  rw [dedentLines, commonIndent?_map_indentLine hp hflush]
  simp only [List.map_map, hcut, List.map_id]

end Indentation

/-! ## The edges -/

theorem dropTag_tag {tag : Text} (h : AllOf isTagChar tag) (t : Text) :
    dropTag (tag ++ '\n' :: t) = '\n' :: t := by
  have hnewline : startsWith isTagChar ('\n' :: t) = false := by
    have hchar : isTagChar '\n' = false := by decide
    exact hchar
  rw [dropTag, Text.takeWhile_run h hnewline, Text.dropWhile_run h hnewline]
  cases tag with
  | nil => rfl
  | cons c tag => rfl

theorem dropFirst_nil_cons {ls : List Text} (h : ls ≠ []) : dropFirst ([] :: ls) = ls := by
  cases ls with
  | nil => exact absurd rfl h
  | cons line ls => rfl

theorem dropLast_append (ls : List Text) (line : Text) {q : Text} (hq : AllOf isInline q) :
    dropLast (ls ++ [line, q]) = ls ++ [dropReturn line] := by
  induction ls with
  | nil =>
    have hall : q.all isInline = true := List.all_eq_true.2 hq
    simp [dropLast, hall]
  | cons first ls ih =>
    rw [List.cons_append, List.cons_append, ← ih]
    -- two lines follow the first one, so that it is none of the last two
    cases ls with
    | nil => rfl
    | cons second ls => cases ls <;> rfl

theorem dropReturn_indentLine (p : Text) {line : Text} (h : line.getLast? ≠ some '\r') :
    dropReturn (indentLine p line) = indentLine p line := by
  rw [dropReturn, if_neg]
  unfold indentLine
  split
  · simp
  · next hne =>
    obtain ⟨front, c, rfl⟩ := (List.eq_nil_or_concat line).resolve_left hne
    rw [List.concat_eq_append, List.getLast?_concat] at h
    rwa [List.concat_eq_append, ← List.append_assoc, List.getLast?_concat]

/-! ## Runs of backticks in lines -/

theorem hasFullRun_unlines {n : Nat} (hn : 0 < n) {ls : List Text} (h : HasFullRun n (unlines ls)) :
    ∃ line ∈ ls, HasFullRun n line := by
  induction ls with
  | nil => exact absurd h (Text.not_hasFullRun_of_notMem hn List.not_mem_nil)
  | cons line ls ih =>
    cases ls with
    | nil => exact ⟨line, List.mem_cons_self, h⟩
    | cons next ls =>
      rw [Text.unlines_cons_of_ne_nil line (by simp),
        Text.hasFullRun_append_cons_iff hn (by decide)] at h
      rcases h with h | h
      · exact ⟨line, List.mem_cons_self, h⟩
      · obtain ⟨l, hl, h⟩ := ih h
        exact ⟨l, List.mem_cons_of_mem _ hl, h⟩

theorem tick_notMem_of_inline {p : Text} (hp : AllOf isInline p) : tick ∉ p := by
  intro h
  exact absurd (hp tick h) (by decide)

/-! ## Reading what was written -/

namespace Layout

variable {dropsTag : Bool} {l : Layout} {ls : List Text}

theorem Suits.ne_nil (h : l.Suits dropsTag ls) : ls ≠ [] := by
  obtain ⟨line, hmem, -⟩ := h.flush
  exact List.ne_nil_of_mem hmem

theorem Suits.allOf_tag (h : l.Suits dropsTag ls) : AllOf isTagChar l.tag := by
  rcases h.tag with htag | ⟨-, htag⟩
  · rw [htag]
    exact Text.allOf_nil
  · exact htag

/-- The lines between the fences, the tag apart. -/
theorem Suits.lines_body (h : l.Suits dropsTag ls) :
    lines ('\n' :: (unlines (ls.map (indentLine l.indent)) ++ '\n' :: l.closing)) =
      [] :: (ls.map (indentLine l.indent) ++ [l.closing]) := by
  have hnewline (p : Text) (hp : AllOf isInline p) : '\n' ∉ p := by
    intro hmem
    exact absurd (hp '\n' hmem) (by decide)
  have hunlines : '\n' :: (unlines (ls.map (indentLine l.indent)) ++ '\n' :: l.closing) =
      unlines ([] :: (ls.map (indentLine l.indent) ++ [l.closing])) := by
    rw [Text.unlines_cons_of_ne_nil [] (by simp), Text.unlines_concat (by simpa using h.ne_nil)]
    rfl
  rw [hunlines, Text.lines_unlines (by simp)]
  simp only [List.mem_cons, List.mem_append, List.mem_map, List.not_mem_nil, or_false]
  rintro line (rfl | ⟨line, hmem, rfl⟩ | rfl)
  · exact List.not_mem_nil
  · unfold indentLine
    split
    · exact List.not_mem_nil
    · rw [List.mem_append, not_or]
      exact ⟨hnewline l.indent h.indent, h.newline line hmem⟩
  · exact hnewline l.closing h.closing

/-- Cleaning takes away just what was added. -/
theorem Suits.clean_body (h : l.Suits dropsTag ls) : clean dropsTag (l.body ls) = unlines ls := by
  have htag : (if dropsTag then dropTag (l.body ls) else l.body ls) =
      '\n' :: (unlines (ls.map (indentLine l.indent)) ++ '\n' :: l.closing) := by
    split
    · exact dropTag_tag h.allOf_tag _
    · next hkeep =>
      have hnil : l.tag = [] := h.tag.resolve_right fun hdrop => hkeep hdrop.1
      rw [body, hnil]
      rfl
  obtain ⟨front, line, rfl⟩ : ∃ front line, ls = front ++ [line] :=
    ⟨_, _, (List.dropLast_concat_getLast h.ne_nil).symm⟩
  have hreturn : line.getLast? ≠ some '\r' := h.last line (by simp)
  have hedges : dropLast ((front ++ [line]).map (indentLine l.indent) ++ [l.closing]) =
      (front ++ [line]).map (indentLine l.indent) := by
    rw [List.map_append, List.append_assoc]
    show dropLast (front.map (indentLine l.indent) ++ [indentLine l.indent line, l.closing]) = _
    rw [dropLast_append _ _ h.closing, dropReturn_indentLine _ hreturn]
    rfl
  rw [clean, htag, h.lines_body, dropFirst_nil_cons (by simp), hedges,
    dedentLines_map_indentLine h.indent h.flush]

/-- The fences are found again around the lines. -/
theorem Suits.splits (h : l.Suits dropsTag ls) {rest : Text} (hr : rest.head? ≠ some tick) :
    Fence.Splits (l.write ls ++ rest) ⟨l.width, l.body ls⟩ rest := by
  have hpositive : 0 < l.width := by
    have := h.width
    omega
  have hnewline : '\n' ≠ tick := by decide
  have htag : tick ∉ l.tag := by
    intro hmem
    exact absurd (h.allOf_tag tick hmem) (by decide)
  have hclosing := tick_notMem_of_inline h.closing
  refine ⟨rfl, h.width, by simp [body], ?_, ?_, ?_, hr⟩
  · rw [body]
    cases ht : l.tag with
    | nil => simp [tick]
    | cons c tag =>
      rw [ht] at htag
      simp only [List.mem_cons, not_or] at htag
      simpa using Ne.symm htag.1
  · rw [body, Text.getLast?_append_cons_ne_iff hnewline, Text.getLast?_append_cons_ne_iff hnewline]
    intro hlast
    exact hclosing (List.mem_of_getLast? hlast)
  · rw [body, Text.hasFullRun_append_cons_iff hpositive hnewline,
      Text.hasFullRun_append_cons_iff hpositive hnewline]
    rintro (hrun | hrun | hrun)
    · exact Text.not_hasFullRun_of_notMem hpositive htag hrun
    · obtain ⟨_, hmem, hrun⟩ := hasFullRun_unlines hpositive hrun
      obtain ⟨line, hline, rfl⟩ := List.mem_map.1 hmem
      unfold indentLine at hrun
      split at hrun
      · exact Text.not_hasFullRun_of_notMem hpositive List.not_mem_nil hrun
      · have hindent := tick_notMem_of_inline h.indent
        exact h.runs line hline (Text.hasFullRun_of_append hpositive hindent hrun)
    · exact Text.not_hasFullRun_of_notMem hpositive hclosing hrun

/-- Lines that were written out as a block are read back, as a value and as the content of a call,
and nothing behind the closing fence is read. -/
theorem read_write (h : l.Suits dropsTag ls) {rest : Text} (hr : rest.head? ≠ some tick) :
    (∀ b, AllOf isBlank b →
      Literal.readBlock dropsTag (b ++ (l.write ls ++ rest)) =
        .found (.string (unlines ls) (l.write ls)) rest) ∧
    ∀ gap, AllOf isInline gap →
      Call.readContent dropsTag (gap ++ (l.write ls ++ rest)) = .found (unlines ls) rest := by
  have hread := Fence.read?_eq_some_iff_splits.2 (h.splits hr)
  obtain ⟨hf, -, hstop⟩ := Fence.read?_eq_some_iff.1 hread
  refine ⟨fun b hb => ?_, fun gap hgap => ?_⟩
  · rw [Literal.readBlock_eq_found_iff]
    exact ⟨b, _, hb, hf, hstop, by rw [h.clean_body]; rfl, rfl⟩
  · rw [Call.readContent_eq_found_iff]
    exact Or.inr ⟨gap, _, hgap, hf, hstop, h.clean_body.symm, rfl⟩

/-- An empty line, an indentation of its own and a shorter fence come back as they were. -/
theorem read_write_shorter_fence :
    let l : Layout :=
      { width := 4, tag := "c++".toList, indent := "  ".toList, closing := "\t".toList }
    let ls : List Text := ["int f()".toList, [], "\t/* ``` */ ;".toList]
    l.Suits true ls ∧
      l.write ls = "````c++\n  int f()\n\n  \t/* ``` */ ;\n\t````".toList ∧
      Literal.readBlock true (l.write ls ++ ", 1".toList) =
        .found (.string "int f()\n\n\t/* ``` */ ;".toList (l.write ls)) ", 1".toList ∧
      Call.readContent true (' ' :: (l.write ls ++ ['\n'])) =
        .found "int f()\n\n\t/* ``` */ ;".toList ['\n'] := by
  intro l ls
  have havoids : ∀ line ∈ ls, Fence.avoids l.width 0 line = true := by decide
  have hsuits : l.Suits true ls := by
    refine ⟨by decide, Or.inr ⟨rfl, by decide⟩, by decide, by decide, by decide,
      ⟨_, List.mem_cons_self, by decide, by decide⟩, ?_, fun line hline => ?_⟩
    · intro line hline
      obtain rfl : "\t/* ``` */ ;".toList = line := by simpa [ls] using hline
      decide
    · exact ((Fence.avoids_iff (by decide) 0 line).1 (havoids line hline)).1
  have hcomma : (", 1".toList).head? ≠ some tick := by decide
  have hnewline : ['\n'].head? ≠ some tick := by decide
  obtain ⟨hblock, -⟩ := read_write hsuits hcomma
  obtain ⟨-, hcontent⟩ := read_write hsuits hnewline
  exact ⟨hsuits, by decide, hblock [] Text.allOf_nil, hcontent [' '] (by decide)⟩

end Layout

end ToolCalls.Block

import Mathlib.Data.List.Forall2
import ToolCalls.Block
import ToolCalls.Proofs.Text.Runs

/-!
# Indentation that lines have in common

Lines can have an indentation in common in two senses: the spaces and tabs that all of them start
with (`sharedIndent`), and the number of spaces and tabs that all of them start with at least.
Dedenting goes by the number.  It cuts that many characters off every line that is long enough, and
the number is never less than the length of the shared indentation, so that lines which are indented
by different characters lose more than they share, and an empty line may lose white space of
another kind.

`Strips` says that lines lose their shared indentation and nothing else.  The main statement,
`dedent_strips_shared_iff`, says when dedenting does that.
-/

namespace ToolCalls.Block

open Text (AllOf isInline lines unlines)

/-! ## What texts start with -/

/-- What two texts both start with, as far as they agree. -/
def common : Text → Text → Text
  | c :: t, d :: u => if c = d then c :: common t u else []
  | _, _ => []

theorem prefix_common_iff {p t u : Text} : p <+: common t u ↔ p <+: t ∧ p <+: u := by
  induction p generalizing t u with
  | nil => simp
  | cons a p ih =>
    cases t with
    | nil => simp [common]
    | cons c t =>
      cases u with
      | nil => simp [common]
      | cons d u =>
        simp only [common]
        split
        · next h =>
          subst h
          simp only [List.cons_prefix_cons, ih]
          tauto
        · next h =>
          simp only [List.cons_prefix_cons, List.prefix_nil, reduceCtorEq, false_iff]
          rintro ⟨⟨rfl, -⟩, rfl, -⟩
          exact h rfl

theorem prefix_foldl_common_iff {p t : Text} {ls : List Text} :
    p <+: ls.foldl common t ↔ p <+: t ∧ ∀ line ∈ ls, p <+: line := by
  induction ls generalizing t with
  | nil => simp
  | cons line ls ih =>
    rw [List.foldl_cons, ih, prefix_common_iff]
    simp [and_assoc]

theorem prefix_takeWhile_iff {q : Char → Bool} {p t : Text} :
    p <+: t.takeWhile q ↔ AllOf q p ∧ p <+: t := by
  constructor
  · intro h
    exact ⟨fun c hc => Text.allOf_takeWhile q t c (h.subset hc), h.trans (List.takeWhile_prefix q)⟩
  · rintro ⟨hall, rest, rfl⟩
    rw [List.takeWhile_append_of_pos hall]
    exact List.prefix_append p _

/-! ## The two senses -/

/-- Spaces and tabs that all lines start with, empty lines apart. -/
structure IsShared (ls : List Text) (p : Text) : Prop where
  inline : AllOf isInline p
  starts : ∀ line ∈ ls, isEmptyLine line = false → p <+: line

/-- The spaces and tabs that all lines start with, empty lines apart. -/
def sharedIndent (ls : List Text) : Text :=
  match ls.filter fun line => !isEmptyLine line with
  | [] => []
  | line :: ls => ls.foldl common (line.takeWhile isInline)

/-- The shared indentation is the longest one, and all that is shared is part of it. -/
theorem prefix_sharedIndent_iff {ls : List Text} (h : ∃ line ∈ ls, isEmptyLine line = false)
    (p : Text) : p <+: sharedIndent ls ↔ IsShared ls p := by
  have hmem (line : Text) :
      line ∈ ls.filter (fun line => !isEmptyLine line) ↔ line ∈ ls ∧ isEmptyLine line = false := by
    simp
  rw [sharedIndent]
  split
  · next hnil =>
    obtain ⟨line, hline⟩ := h
    rw [← hmem, hnil] at hline
    cases hline
  · next first rest hcons =>
    rw [hcons] at hmem
    rw [prefix_foldl_common_iff, prefix_takeWhile_iff]
    constructor
    · rintro ⟨⟨hall, hfirst⟩, hrest⟩
      refine ⟨hall, fun line hline hempty => ?_⟩
      rcases List.mem_cons.1 ((hmem line).2 ⟨hline, hempty⟩) with rfl | hline
      · exact hfirst
      · exact hrest line hline
    · intro hshared
      have hstarts (line : Text) (hline : line ∈ first :: rest) : p <+: line :=
        hshared.starts line ((hmem line).1 hline).1 ((hmem line).1 hline).2
      exact ⟨⟨hshared.inline, hstarts first List.mem_cons_self⟩, fun line hline =>
        hstarts line (List.mem_cons_of_mem first hline)⟩

theorem commonIndent?_eq_some_iff {ls : List Text} {k : Nat} :
    commonIndent? ls = some k ↔
      (∃ line ∈ ls, isEmptyLine line = false ∧ indent line = k) ∧
        ∀ line ∈ ls, isEmptyLine line = false → k ≤ indent line := by
  rw [commonIndent?, List.min?_eq_some_iff]
  simp only [List.mem_map, List.mem_filter, Bool.not_eq_true', and_assoc, forall_exists_index,
    and_imp]
  constructor
  · rintro ⟨hline, hleast⟩
    exact ⟨hline, fun line hline hempty => hleast _ line hline hempty rfl⟩
  · rintro ⟨hline, hleast⟩
    refine ⟨hline, ?_⟩
    rintro _ line hline hempty rfl
    exact hleast line hline hempty

theorem exists_commonIndent {ls : List Text} (h : ∃ line ∈ ls, isEmptyLine line = false) :
    ∃ k, commonIndent? ls = some k := by
  cases hk : commonIndent? ls with
  | some k => exact ⟨k, rfl⟩
  | none =>
    obtain ⟨line, hline, hempty⟩ := h
    rw [commonIndent?, List.min?_eq_none_iff] at hk
    have hmem : indent line ∈ (ls.filter fun l => !isEmptyLine l).map indent :=
      List.mem_map_of_mem (by simp [hline, hempty])
    rw [hk] at hmem
    cases hmem

/-- A line starts with as many spaces and tabs as it is indented. -/
theorem inline_take_of_le_indent {line : Text} {k : Nat} (h : k ≤ indent line) :
    k ≤ line.length ∧ AllOf isInline (line.take k) := by
  have hsplit : line.takeWhile isInline ++ line.dropWhile isInline = line :=
    List.takeWhile_append_dropWhile
  have htake : (line.takeWhile isInline ++ line.dropWhile isInline).take k =
      (line.takeWhile isInline).take k := List.take_append_of_le_length h
  rw [hsplit] at htake
  refine ⟨Nat.le_trans h (List.takeWhile_prefix isInline).length_le, ?_⟩
  rw [htake]
  exact fun c hc => Text.allOf_takeWhile isInline line c (List.mem_of_mem_take hc)

/-- What all lines share is no longer than the least indentation. -/
theorem IsShared.prefix_take {ls : List Text} {p : Text} (hp : IsShared ls p) {k : Nat}
    (hk : commonIndent? ls = some k) {line : Text} (hline : line ∈ ls)
    (hempty : isEmptyLine line = false) : p <+: line.take k := by
  obtain ⟨⟨least, hleast, hempty', rfl⟩, -⟩ := commonIndent?_eq_some_iff.1 hk
  have hlength : p.length ≤ indent least :=
    (prefix_takeWhile_iff.2 ⟨hp.inline, hp.starts least hleast hempty'⟩).length_le
  exact List.prefix_take_iff.2 ⟨hp.starts line hline hempty, hlength⟩

/-! ## Dedenting -/

/-- Dedenting neither adds nor removes a line. -/
theorem lines_dedent (t : Text) : lines (dedent t) = dedentLines (lines t) := by
  have hcut (k : Nat) (line : Text) (h : '\n' ∉ line) : '\n' ∉ cutLine k line := by
    unfold cutLine
    split
    · exact fun hmem => h (List.mem_of_mem_drop hmem)
    · exact h
  rw [dedent, dedentLines]
  split
  · rw [Text.unlines_lines]
  · next k hk =>
    refine Text.lines_unlines (by simpa using Text.lines_ne_nil t) fun line hline => ?_
    obtain ⟨line, hmem, rfl⟩ := List.mem_map.1 hline
    exact hcut k line (Text.newline_notMem_of_mem_lines hmem)

/-- A line without the given indentation.  An empty line may lose spaces and tabs that it starts
with, and nothing else. -/
def StripsLine (p line line' : Text) : Prop :=
  if isEmptyLine line then ∃ u, AllOf isInline u ∧ line = u ++ line' else line = p ++ line'

/-- Lines without the given indentation. -/
def Strips (p : Text) (ls ls' : List Text) : Prop := List.Forall₂ (StripsLine p) ls ls'

/-- Cutting off characters leaves what was in front of them just if they are all that stood
there. -/
theorem eq_append_cutLine_iff {p line : Text} {k : Nat} (hk : k ≤ line.length) :
    line = p ++ cutLine k line ↔ line.take k = p := by
  rw [cutLine, if_pos hk]
  constructor
  · intro h
    exact List.append_cancel_right ((List.take_append_drop k line).trans h)
  · rintro rfl
    exact (List.take_append_drop k line).symm

theorem stripsLine_cutLine_iff_of_empty {p line : Text} {k : Nat}
    (hempty : isEmptyLine line = true) :
    StripsLine p line (cutLine k line) ↔ (k ≤ line.length → AllOf isInline (line.take k)) := by
  rw [StripsLine, if_pos hempty]
  by_cases hk : k ≤ line.length
  · simp only [eq_append_cutLine_iff hk, hk, true_imp_iff]
    simp
  · simp only [hk, false_imp_iff, iff_true, cutLine, if_false]
    exact ⟨[], Text.allOf_nil, rfl⟩

/-- Dedenting takes from lines what they share, and nothing else, just if all lines that are not
empty start with the same characters, as many as the least of them is indented, and each empty line
that has as many characters starts with as many spaces and tabs.  In any case the lines that are not
empty lose so many spaces and tabs, among them what they share. -/
theorem dedent_strips_shared_iff (t : Text) (h : ∃ line ∈ lines t, isEmptyLine line = false) :
    (∀ p, p <+: sharedIndent (lines t) ↔ IsShared (lines t) p) ∧
    ∃ k, (∃ line ∈ lines t, isEmptyLine line = false ∧ indent line = k) ∧
      (∀ line ∈ lines t, isEmptyLine line = false → k ≤ indent line ∧
        AllOf isInline (line.take k) ∧ sharedIndent (lines t) <+: line.take k) ∧
      lines (dedent t) = (lines t).map (cutLine k) ∧
      (Strips (sharedIndent (lines t)) (lines t) (lines (dedent t)) ↔
        (∀ line ∈ lines t, ∀ line' ∈ lines t, isEmptyLine line = false →
          isEmptyLine line' = false → line.take k = line'.take k) ∧
        ∀ line ∈ lines t, isEmptyLine line = true → k ≤ line.length →
          AllOf isInline (line.take k)) := by
  obtain ⟨k, hk⟩ := exists_commonIndent h
  obtain ⟨hattained, hleast⟩ := commonIndent?_eq_some_iff.1 hk
  have hlongest := prefix_sharedIndent_iff h
  have hshared : IsShared (lines t) (sharedIndent (lines t)) :=
    (hlongest _).1 (List.prefix_refl _)
  have hlines : lines (dedent t) = (lines t).map (cutLine k) := by
    rw [lines_dedent, dedentLines, hk]
  have htake (line : Text) (hline : line ∈ lines t) (hempty : isEmptyLine line = false) :=
    inline_take_of_le_indent (hleast line hline hempty)
  refine ⟨hlongest, k, hattained, fun line hline hempty => ⟨hleast line hline hempty,
    (htake line hline hempty).2, hshared.prefix_take hk hline hempty⟩, hlines, ?_⟩
  rw [hlines, Strips, List.forall₂_map_right_iff, List.forall₂_same]
  constructor
  · intro hstrips
    have hfull (line : Text) (hline : line ∈ lines t) (hempty : isEmptyLine line = false) :
        line.take k = sharedIndent (lines t) := by
      have hline' := hstrips line hline
      rw [StripsLine, hempty, if_neg Bool.false_ne_true] at hline'
      exact (eq_append_cutLine_iff (htake line hline hempty).1).1 hline'
    refine ⟨fun line hline line' hline' hempty hempty' => ?_, fun line hline hempty => ?_⟩
    · rw [hfull line hline hempty, hfull line' hline' hempty']
    · exact (stripsLine_cutLine_iff_of_empty hempty).1 (hstrips line hline)
  · rintro ⟨hagree, hinline⟩ line hline
    cases hempty : isEmptyLine line with
    | true => exact (stripsLine_cutLine_iff_of_empty hempty).2 (hinline line hline hempty)
    | false =>
      -- what the lines agree on is shared, hence all of the shared indentation
      have hagreed : IsShared (lines t) (line.take k) := by
        refine ⟨(htake line hline hempty).2, fun line' hline' hempty' => ?_⟩
        rw [hagree line hline line' hline' hempty hempty']
        exact List.take_prefix k line'
      have hall : line.take k = sharedIndent (lines t) :=
        ((hlongest _).2 hagreed).eq_of_length_le
          (hshared.prefix_take hk hline hempty).length_le
      rw [StripsLine, hempty, if_neg Bool.false_ne_true]
      exact (eq_append_cutLine_iff (htake line hline hempty).1).2 hall

/-- A tab and spaces before the lines, and an empty line shorter than the indentation. -/
theorem dedent_strips_shared_iff_mixed :
    let t := "\t  a\n \n\t    b\n\t  ".toList
    (∃ line ∈ lines t, isEmptyLine line = false) ∧
      sharedIndent (lines t) = "\t  ".toList ∧ dedent t = "a\n \n  b\n".toList ∧
      Strips (sharedIndent (lines t)) (lines t) (lines (dedent t)) := by
  intro t
  have h : ∃ line ∈ lines t, isEmptyLine line = false := by decide
  obtain ⟨-, k, hattained, hleast, -, hiff⟩ := dedent_strips_shared_iff t h
  have hk : commonIndent? (lines t) = some k :=
    commonIndent?_eq_some_iff.2 ⟨hattained, fun line hline hempty => (hleast line hline hempty).1⟩
  have hthree : commonIndent? (lines t) = some 3 := by decide
  obtain rfl : k = 3 := Option.some.inj (hk.symm.trans hthree)
  exact ⟨h, by decide, by decide, hiff.2 (by decide)⟩

/-- Lines that are indented by different characters lose what they do not share, and an empty line
loses a carriage return. -/
theorem dedent_strips_unshared :
    let t := "\ta\n b".toList
    let u := " a\n\r\n b".toList
    sharedIndent (lines t) = [] ∧ dedent t = "a\nb".toList ∧
      ¬ Strips (sharedIndent (lines t)) (lines t) (lines (dedent t)) ∧
      sharedIndent (lines u) = [' '] ∧ dedent u = "a\n\nb".toList ∧
      ¬ Strips (sharedIndent (lines u)) (lines u) (lines (dedent u)) := by
  intro t u
  refine ⟨by decide, by decide, fun h => ?_, by decide, by decide, fun h => ?_⟩
  · have hfirst : StripsLine [] "\ta".toList "a".toList := by
      cases h with
      | cons hfirst _ => exact hfirst
    have hline : "\ta".toList = "a".toList := hfirst
    exact absurd hline (by decide)
  · have hsecond : StripsLine [' '] ['\r'] [] := by
      cases h with
      | cons _ hrest =>
        cases hrest with
        | cons hsecond _ => exact hsecond
    obtain ⟨v, hv, hline⟩ : ∃ v, AllOf isInline v ∧ ['\r'] = v ++ [] := hsecond
    rw [List.append_nil] at hline
    rw [← hline] at hv
    exact absurd hv (by decide)

end ToolCalls.Block

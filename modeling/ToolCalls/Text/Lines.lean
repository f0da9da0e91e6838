import ToolCalls.Text.Basic

/-!
# Lines

`lines` cuts a text at its newlines and `unlines` puts the pieces together again.  A text has one
more line than newlines, so the list of lines is never empty, and the two are inverse to each other
on lists of lines without newlines (`unlines_lines`, `lines_unlines`).
-/

namespace ToolCalls.Text

/-- The lines of a text, without the newlines between them. -/
def lines : Text → List Text
  | [] => [[]]
  | c :: t =>
    if c = '\n' then [] :: lines t
    else match lines t with
      | [] => [[c]]
      | l :: ls => (c :: l) :: ls

/-- The lines joined by newlines. -/
def unlines : List Text → Text
  | [] => []
  | [l] => l
  | l :: ls => l ++ '\n' :: unlines ls

theorem lines_ne_nil (t : Text) : lines t ≠ [] := by
  cases t with
  | nil => simp [lines]
  | cons c t =>
    simp only [lines]
    split
    · simp
    · split <;> simp

theorem unlines_cons_of_ne_nil (l : Text) {ls : List Text} (h : ls ≠ []) :
    unlines (l :: ls) = l ++ '\n' :: unlines ls := by
  cases ls with
  | nil => exact absurd rfl h
  | cons m ms => rfl

theorem unlines_concat {ls : List Text} (h : ls ≠ []) (q : Text) :
    unlines (ls ++ [q]) = unlines ls ++ '\n' :: q := by
  induction ls with
  | nil => exact absurd rfl h
  | cons line ls ih =>
    cases ls with
    | nil => rfl
    | cons next ls =>
      rw [List.cons_append, unlines_cons_of_ne_nil line (by simp), ih (by simp),
        unlines_cons_of_ne_nil line (by simp)]
      simp

theorem unlines_lines (t : Text) : unlines (lines t) = t := by
  induction t with
  | nil => rfl
  | cons c t ih =>
    simp only [lines]
    split
    · next h => rw [unlines_cons_of_ne_nil _ (lines_ne_nil t), ih, h]; rfl
    · next h =>
      split
      · next hl => exact absurd hl (lines_ne_nil t)
      · next l ls hl =>
        rw [hl] at ih
        cases ls with
        | nil => simp only [unlines] at ih ⊢; rw [ih]
        | cons m ms => simp only [unlines, List.cons_append] at ih ⊢; rw [ih]

theorem newline_notMem_of_mem_lines {t l : Text} (h : l ∈ lines t) : '\n' ∉ l := by
  induction t generalizing l with
  | nil => simp [lines] at h; simp [h]
  | cons c t ih =>
    simp only [lines] at h
    split at h
    · rcases List.mem_cons.1 h with rfl | h
      · simp
      · exact ih h
    · next hc =>
      split at h
      · simp only [List.mem_singleton] at h
        subst h
        simpa using fun e => hc e.symm
      · next m ms hm =>
        rcases List.mem_cons.1 h with rfl | h
        · have := ih (hm ▸ List.mem_cons_self)
          simp only [List.mem_cons, not_or]
          exact ⟨fun e => hc e.symm, this⟩
        · exact ih (hm ▸ List.mem_cons_of_mem _ h)

theorem lines_of_newline_notMem {l : Text} (h : '\n' ∉ l) : lines l = [l] := by
  induction l with
  | nil => rfl
  | cons c t ih =>
    simp only [List.mem_cons, not_or] at h
    simp only [lines]
    rw [if_neg fun e => h.1 e.symm, ih h.2]

theorem lines_append_newline {l : Text} (h : '\n' ∉ l) (t : Text) :
    lines (l ++ '\n' :: t) = l :: lines t := by
  induction l with
  | nil => simp [lines]
  | cons c l ih =>
    simp only [List.mem_cons, not_or] at h
    simp only [List.cons_append, lines]
    rw [if_neg fun e => h.1 e.symm, ih h.2]

theorem lines_unlines {ls : List Text} (hne : ls ≠ []) (h : ∀ l ∈ ls, '\n' ∉ l) :
    lines (unlines ls) = ls := by
  induction ls with
  | nil => exact absurd rfl hne
  | cons l ls ih =>
    cases ls with
    | nil => exact lines_of_newline_notMem (h l (by simp))
    | cons m ms =>
      rw [unlines_cons_of_ne_nil l (by simp), lines_append_newline (h l (by simp)),
        ih (by simp) fun x hx => h x (List.mem_cons_of_mem _ hx)]

end ToolCalls.Text

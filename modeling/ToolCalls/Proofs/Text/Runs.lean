import ToolCalls.Literal

/-!
# Runs of characters

A reader takes a run of characters of one class, as long as it goes.  `AllOf p u` says that `u` is
such a run; it ends where the text behind it does not start with a character of the class.  Cutting
a text at the end of a run and putting a run in front of a text are inverse to each other
(`exists_run`, `takeWhile_run`, `dropWhile_run`).
-/

namespace ToolCalls.Text

open Literal (startsWith)

variable {p q : Char → Bool} {c : Char} {t u rest : Text}

/-- Every character is of the class. -/
def AllOf (p : Char → Bool) (t : Text) : Prop := ∀ c ∈ t, p c = true

instance (p : Char → Bool) (t : Text) : Decidable (AllOf p t) :=
  decidable_of_iff (t.all p = true) List.all_eq_true

@[simp] theorem allOf_nil : AllOf p [] := by
  intro c hc
  cases hc

@[simp] theorem allOf_cons : AllOf p (c :: t) ↔ p c = true ∧ AllOf p t := by
  simp [AllOf]

@[simp] theorem allOf_append : AllOf p (t ++ u) ↔ AllOf p t ∧ AllOf p u := by
  simp [AllOf, or_imp, forall_and]

@[simp] theorem allOf_reverse : AllOf p t.reverse ↔ AllOf p t := by
  simp [AllOf]

theorem AllOf.mono (h : AllOf p t) (hpq : ∀ c, p c = true → q c = true) : AllOf q t :=
  fun c hc => hpq c (h c hc)

theorem allOf_takeWhile (p : Char → Bool) (t : Text) : AllOf p (t.takeWhile p) := by
  intro c hc
  exact List.all_eq_true.1 List.all_takeWhile c hc

@[simp] theorem startsWith_nil : startsWith p [] = false := rfl

@[simp] theorem startsWith_cons : startsWith p (c :: t) = p c := rfl

theorem startsWith_append_of_ne_nil (h : t ≠ []) : startsWith p (t ++ u) = startsWith p t := by
  cases t with
  | nil => exact absurd rfl h
  | cons c t => rfl

theorem startsWith_append_of_startsWith (h : startsWith p t = true) :
    startsWith p (t ++ u) = true := by
  cases t with
  | nil => cases h
  | cons c t => exact h

theorem exists_cons_of_startsWith (h : startsWith p t = true) :
    ∃ c u, t = c :: u ∧ p c = true := by
  cases t with
  | nil => cases h
  | cons c u => exact ⟨c, u, rfl, h⟩

theorem startsWith_of_allOf_not (h : AllOf (fun c => !p c) t) : startsWith p t = false := by
  cases t with
  | nil => rfl
  | cons c u => simpa using h c List.mem_cons_self

theorem startsWith_dropWhile (p : Char → Bool) (t : Text) :
    startsWith p (t.dropWhile p) = false := by
  induction t with
  | nil => rfl
  | cons c t ih =>
    by_cases hc : p c = true
    · rwa [List.dropWhile_cons_of_pos hc]
    · rw [List.dropWhile_cons_of_neg hc]
      simpa using hc

theorem dropWhile_eq_self (h : startsWith p t = false) : t.dropWhile p = t := by
  cases t with
  | nil => rfl
  | cons c t => exact List.dropWhile_cons_of_neg (by simpa using h)

theorem takeWhile_eq_nil (h : startsWith p t = false) : t.takeWhile p = [] := by
  cases t with
  | nil => rfl
  | cons c t => exact List.takeWhile_cons_of_neg (by simpa using h)

theorem takeWhile_run (hu : AllOf p u) (hr : startsWith p rest = false) :
    (u ++ rest).takeWhile p = u := by
  rw [List.takeWhile_append_of_pos hu, takeWhile_eq_nil hr, List.append_nil]

theorem dropWhile_run (hu : AllOf p u) (hr : startsWith p rest = false) :
    (u ++ rest).dropWhile p = rest := by
  rw [List.dropWhile_append_of_pos hu, dropWhile_eq_self hr]

/-- Every text is a run and what stands behind it. -/
theorem exists_run (p : Char → Bool) (t : Text) :
    ∃ u, t = u ++ t.dropWhile p ∧ AllOf p u ∧ startsWith p (t.dropWhile p) = false :=
  ⟨t.takeWhile p, List.takeWhile_append_dropWhile.symm, allOf_takeWhile p t,
    startsWith_dropWhile p t⟩

/-! ## Runs at both ends -/

/-- Every text is a run, the text without its runs at either end, and another run. -/
theorem exists_trim (p : Char → Bool) (t : Text) :
    ∃ lead trail, t = lead ++ (trim p t ++ trail) ∧ AllOf p lead ∧ AllOf p trail := by
  obtain ⟨lead, hlead, hrun, -⟩ := exists_run p t
  obtain ⟨trail, htrail, hrun', -⟩ := exists_run p (t.dropWhile p).reverse
  have hrest : t.dropWhile p = trim p t ++ trail.reverse := by
    rw [trim, ← List.reverse_append, ← htrail, List.reverse_reverse]
  exact ⟨lead, trail.reverse, by rwa [← hrest], hrun, allOf_reverse.2 hrun'⟩

theorem trim_run {lead trail : Text} (hlead : AllOf p lead) (htrail : AllOf p trail) (hne : t ≠ [])
    (ht : AllOf (fun c => !p c) t) : trim p (lead ++ (t ++ trail)) = t := by
  have hfront : startsWith p (t ++ trail) = false := by
    rw [startsWith_append_of_ne_nil hne]
    exact startsWith_of_allOf_not ht
  have hback : startsWith p t.reverse = false := startsWith_of_allOf_not (allOf_reverse.2 ht)
  rw [trim, dropWhile_run hlead hfront, List.reverse_append,
    dropWhile_run (allOf_reverse.2 htrail) hback, List.reverse_reverse]

/-! ## Runs that are cut off by a character -/

/-- What stands behind a character that ends the run does not matter. -/
theorem dropWhile_append_cons (hc : p c = false) (t u : Text) :
    (t ++ c :: u).dropWhile p = t.dropWhile p ++ c :: u := by
  induction t with
  | nil => exact List.dropWhile_cons_of_neg (by simpa using hc)
  | cons d t ih =>
    by_cases hd : p d = true
    · rw [List.cons_append, List.dropWhile_cons_of_pos hd, List.dropWhile_cons_of_pos hd, ih]
    · rw [List.cons_append, List.dropWhile_cons_of_neg hd, List.dropWhile_cons_of_neg hd]
      rfl

theorem startsWith_append_cons (t u v : Text) :
    startsWith p (t ++ c :: u) = startsWith p (t ++ c :: v) := by
  cases t <;> rfl

/-! ## Blanks -/

theorem isBlank_iff : isBlank c = true ↔ c = ' ' ∨ c = '\t' ∨ c = '\n' ∨ c = '\r' := by
  simp [isBlank, or_assoc]

theorem skipBlank_run (hu : AllOf isBlank u) (hr : startsWith isBlank rest = false) :
    skipBlank (u ++ rest) = rest :=
  dropWhile_run hu hr

theorem skipBlank_eq_self (h : startsWith isBlank t = false) : skipBlank t = t :=
  dropWhile_eq_self h

theorem skipBlank_skipBlank (t : Text) : skipBlank (skipBlank t) = skipBlank t :=
  skipBlank_eq_self (startsWith_dropWhile _ t)

theorem skipInline_run (hu : AllOf isInline u) (hr : startsWith isInline rest = false) :
    skipInline (u ++ rest) = rest :=
  dropWhile_run hu hr

/-- Every text is a row of blanks and what is left without them. -/
theorem exists_blanks (t : Text) :
    ∃ b, t = b ++ skipBlank t ∧ AllOf isBlank b ∧ startsWith isBlank (skipBlank t) = false :=
  exists_run isBlank t

end ToolCalls.Text

import ToolCalls.Proofs.Literal.Reading

/-!
# Strings and fences character by character

A reader of a string or of a fence sees the whole text.  Whoever sees it character by character has
to know how far it has come: in a string whether a backslash has just gone by, in a fence how long
its opening run is and how many backticks have just gone by (`Fence.Stage`).  The functions
`escapes?` and `Fence.Stage.next?` say what becomes of that with one more character, as long as the
string or the fence goes on.

Both are compared with the readers: what is read ends just where there is no next stage any more,
and there is always one in what does not end (`exists_escapes_of_unquote?_eq_none`,
`Fence.Stage.exists_of_read?_eq_none`).
-/

namespace ToolCalls

open Literal (startsWith)

namespace Text

/-- What goes on to the end of a text goes on at every place before. -/
theorem exists_foldlM_of_prefix {σ : Type} {next? : σ → Char → Option σ} {g g' : σ} {p t : Text}
    (h : t.foldlM next? g = some g') (hp : p <+: t) : ∃ g'', p.foldlM next? g = some g'' := by
  obtain ⟨u, rfl⟩ := hp
  rw [List.foldlM_append, Option.bind_eq_bind, Option.bind_eq_some_iff] at h
  obtain ⟨g'', h, -⟩ := h
  exact ⟨g'', h⟩

end Text

/-! ## Strings -/

namespace Literal

variable {quote : Char} {t : Text}

/-- Whether a character of a string escapes the next one, if the character before it escapes it or
not.  The closing quote is no character of the string. -/
def escapes? (quote : Char) (escaped : Bool) (c : Char) : Option Bool :=
  if escaped then some false
  else if c = '\\' then some true
  else if c = quote then none
  else some false

theorem foldlM_escapes_of_quoted {s body : Text} (h : Quoted quote s body) :
    body.foldlM (escapes? quote) false = some false := by
  induction h with
  | nil => rfl
  | escape he h ih => simpa [escapes?] using ih
  | plain hc hne h ih => simpa [escapes?, hc, hne] using ih

/-- A string that does not end goes on for ever. -/
theorem exists_escapes_of_unquote?_eq_none (h : unquote? quote t = none) :
    ∃ e, t.foldlM (escapes? quote) false = some e := by
  fun_induction unquote? quote t with
  | case1 => exact ⟨false, rfl⟩
  | case2 => exact ⟨true, rfl⟩
  | case3 e u ih => simpa [escapes?] using ih (by simpa using h)
  | case4 t hc => cases h
  | case5 c t hc hne ih => simpa [escapes?, hc, hne] using ih (by simpa using h)

/-- A string that begins with its quote is read up to the next quote that is not escaped. -/
theorem readString_cons_eq_found_iff (hq : isQuote quote = true) {v : Value} {rest : Text} :
    readString (quote :: t) = .found v rest ↔
      ∃ s body, Quoted quote s body ∧ v = .string s (quote :: (body ++ [quote])) ∧
        t = body ++ quote :: rest := by
  rw [readString_eq_found_iff]
  constructor
  · rintro ⟨b, s, raw, hb, ⟨hq', h⟩, rfl, heq⟩
    cases b with
    | nil =>
      obtain ⟨rfl, rfl⟩ := List.cons.inj heq
      exact ⟨s, _, h, rfl, by simp⟩
    | cons c b =>
      -- a quote is no blank
      obtain ⟨rfl, -⟩ := List.cons.inj heq
      have hblank := (Text.allOf_cons.1 hb).1
      rcases isQuote_iff.1 hq with rfl | rfl <;> cases hblank
  · rintro ⟨s, body, h, rfl, rfl⟩
    exact ⟨[], s, _, Text.allOf_nil, ⟨hq, h⟩, rfl, by simp⟩

end Literal

/-! ## Fences -/

namespace Fence

/-- How far a text has come with a fence. -/
inductive Stage where
  /-- In the opening run. -/
  | opening (run : Nat)
  /-- Behind an opening run of `width` backticks, after `run` of them. -/
  | body (width run : Nat)
deriving DecidableEq, Repr

namespace Stage

/-- The stage behind one more character, unless the fence has ended before it or none begins. -/
def next? : Stage → Char → Option Stage
  | opening run, c =>
    if c = tick then some (opening (run + 1))
    else if minTicks ≤ run then some (body run 0)
    else none
  | body width run, c =>
    if c = tick then some (body width (run + 1))
    else if run = width then none
    else some (body width 0)

/-- Whether the opening run has ended. -/
def opened : Stage → Bool
  | opening _ => false
  | body .. => true

/-- The stage behind a text. -/
def of? (t : Text) : Option Stage := t.foldlM next? (opening 0)

/-- The stage behind `n` more backticks. -/
def extend (n : Nat) : Stage → Stage
  | opening run => opening (run + n)
  | body width run => body width (run + n)

theorem next?_tick (g : Stage) : g.next? tick = some (g.extend 1) := by
  cases g with
  | opening run => rfl
  | body width run => rfl

theorem extend_extend (m n : Nat) (g : Stage) : (g.extend m).extend n = g.extend (m + n) := by
  cases g with
  | opening run => exact congrArg opening (Nat.add_assoc run m n)
  | body width run => exact congrArg (body width) (Nat.add_assoc run m n)

theorem foldlM_ticks (n : Nat) (g : Stage) : (ticks n).foldlM next? g = some (g.extend n) := by
  induction n generalizing g with
  | zero => cases g <;> rfl
  | succ n ih =>
    rw [ticks_succ, List.foldlM_cons, next?_tick]
    show (ticks n).foldlM next? (g.extend 1) = _
    rw [ih, extend_extend, Nat.add_comm]

/-- The first character behind the opening run is the first one of the body. -/
theorem of?_ticks_cons {width : Nat} (hw : minTicks ≤ width) {c : Char} (hc : c ≠ tick) (t : Text) :
    of? (ticks width ++ c :: t) = t.foldlM next? (body width 0) := by
  rw [of?, List.foldlM_append, foldlM_ticks, extend, Nat.zero_add]
  show (c :: t).foldlM next? (opening width) = _
  rw [List.foldlM_cons, next?, if_neg hc, if_pos hw]
  rfl

/-! ### What is read -/

theorem foldlM_of_avoids {width run : Nat} {t : Text} (h : avoids width run t = true) :
    t.foldlM next? (body width run) = some (body width 0) := by
  induction t generalizing run with
  | nil =>
    obtain rfl : run = 0 := by simpa [avoids] using h
    rfl
  | cons c t ih =>
    rw [List.foldlM_cons, next?]
    by_cases hc : c = tick
    · subst hc
      rw [avoids_tick] at h
      rw [if_pos rfl]
      exact ih h
    · obtain ⟨hrun, h⟩ := (avoids_cons hc _ _ _).1 h
      rw [if_neg hc, if_neg hrun]
      exact ih h

/-- A fence as it is written has just come to its end. -/
theorem of?_raw {f : Fence} (h : f.WellFormed) : of? f.raw = some (body f.width f.width) := by
  have hw := h.width
  have hstart := h.start
  have havoids := h.avoids
  obtain ⟨width, b⟩ := f
  cases b with
  | nil => exact absurd rfl h.nonempty
  | cons c b =>
    have hc : c ≠ tick := by simpa using hstart
    have hb := ((avoids_cons hc _ _ _).1 havoids).2
    rw [raw, List.append_assoc, List.cons_append, of?_ticks_cons hw hc, List.foldlM_append,
      foldlM_of_avoids hb]
    show (ticks width).foldlM next? (body width 0) = _
    rw [foldlM_ticks, extend, Nat.zero_add]

/-! ### What is not read -/

theorem exists_of_cutAtRun_eq_none {width run : Nat} {t : Text} (h : cutAtRun width run t = none) :
    ∃ g, t.foldlM next? (body width run) = some g := by
  induction t generalizing run with
  | nil => exact ⟨_, rfl⟩
  | cons c t ih =>
    rw [List.foldlM_cons, next?]
    rw [cutAtRun] at h
    by_cases hc : c = tick
    · rw [if_pos hc] at h ⊢
      exact ih h
    · rw [if_neg hc] at h ⊢
      by_cases hrun : run = width
      · rw [if_pos hrun] at h
        cases h
      · rw [if_neg hrun, Option.map_eq_none_iff] at h
        rw [if_neg hrun]
        exact ih h

/-- A fence that does not end goes on for ever. -/
theorem exists_of_read?_eq_none {t : Text} (hw : minTicks ≤ tickRun t) (h : read? t = none) :
    ∃ g, of? t = some g := by
  have hsplit := ticks_tickRun_append t
  have hstart := Text.startsWith_dropWhile (· == tick) t
  simp only [read?, if_neg (Nat.not_lt.2 hw), Option.map_eq_none_iff, drop_tickRun] at h
  cases hrest : t.dropWhile (· == tick) with
  | nil =>
    rw [hrest, List.append_nil] at hsplit
    rw [← hsplit, of?, foldlM_ticks]
    exact ⟨_, rfl⟩
  | cons c u =>
    rw [hrest] at hsplit hstart h
    have hc : c ≠ tick := by simpa using hstart
    rw [← hsplit, of?_ticks_cons hw hc]
    -- no run has gone by yet, so the first character is not behind the closing one
    have hne : 0 ≠ tickRun t := by
      simp only [minTicks] at hw
      omega
    rw [cutAtRun, if_neg hc, if_neg hne, Option.map_eq_none_iff] at h
    exact exists_of_cutAtRun_eq_none h

/-! ### What a stage says of the text -/

/-- The text has just come to the stage. -/
def Reached : Stage → Text → Prop
  | opening run, u => u = ticks run
  | body width _, u => minTicks ≤ width ∧ ∃ c v, c ≠ tick ∧ u = ticks width ++ c :: v

theorem Reached.next {g g' : Stage} {u : Text} {c : Char} (h : g.Reached u)
    (hg : g.next? c = some g') : g'.Reached (u ++ [c]) := by
  cases g with
  | opening run =>
    obtain rfl : u = ticks run := h
    rw [next?] at hg
    split at hg
    · next hc =>
      cases hg
      rw [hc, ← ticks_succ_append, List.append_nil]
      rfl
    · next hc =>
      simp only [Option.ite_none_right_eq_some, Option.some.injEq] at hg
      obtain ⟨hw, rfl⟩ := hg
      exact ⟨hw, c, [], hc, rfl⟩
  | body width run =>
    obtain ⟨hw, d, v, hd, rfl⟩ := h
    have hnext : ∃ run', g' = body width run' := by
      rw [next?] at hg
      split at hg
      · cases hg
        exact ⟨_, rfl⟩
      · simp only [Option.ite_none_left_eq_some, Option.some.injEq] at hg
        exact ⟨_, hg.2.symm⟩
    obtain ⟨run', rfl⟩ := hnext
    exact ⟨hw, d, v ++ [c], hd, by simp⟩

theorem Reached.foldlM {g g' : Stage} {u t : Text} (h : g.Reached u)
    (hg : t.foldlM next? g = some g') : g'.Reached (u ++ t) := by
  induction t generalizing g u with
  | nil =>
    rw [List.foldlM_nil, Option.pure_def, Option.some.injEq] at hg
    rwa [← hg, List.append_nil]
  | cons c t ih =>
    rw [List.foldlM_cons, Option.bind_eq_bind, Option.bind_eq_some_iff] at hg
    obtain ⟨g₁, hnext, hg⟩ := hg
    have hreached := ih (h.next hnext) hg
    rwa [List.append_assoc] at hreached

/-- In a text, a place is behind the opening run just if it is behind the backticks that the text
starts with. -/
theorem opened_iff {p t : Text} (hp : p <+: t) {g : Stage} (hg : of? p = some g) :
    g.opened = true ↔ tickRun t < p.length := by
  obtain ⟨u, rfl⟩ := hp
  have hreached : g.Reached p := Reached.foldlM (g := opening 0) (u := []) rfl hg
  cases g with
  | opening run =>
    obtain rfl : p = ticks run := hreached
    have hlen : (ticks run).length = run := List.length_replicate
    have hle : run ≤ tickRun (ticks run ++ u) := by
      rw [tickRun, List.takeWhile_append_of_pos (allOf_ticks run), List.length_append, hlen]
      omega
    simp only [opened, Bool.false_eq_true, false_iff, hlen]
    omega
  | body width run =>
    obtain ⟨-, c, v, hc, rfl⟩ := hreached
    have hrun : tickRun (ticks width ++ (c :: v ++ u)) = width :=
      tickRun_ticks_append (by simpa using hc)
    rw [List.append_assoc, hrun]
    simp [opened, ticks]

end Stage

end Fence

end ToolCalls

import ToolCalls.Proofs.Call.Grammar
import ToolCalls.Scanner.Tracker

/-!
# Trackers and the grammar of calls

A tracker sees a call character by character and knows nothing of its grammar.  It still finds the
closing parenthesis where the grammar has it (`behind?_argumentList`), as long as no three double
quotes follow each other, which it takes for a quote of its own and the grammar does not.

`Leads P u z Q` is the form of the argument: from a tracker with `P`, the characters of `u` before
the text `z` lead to a tracker with `Q` without closing the call.  There is a rule for each
character, and from these one for each construct of the grammar, which leads from between two tokens
to between two tokens (`Crossable`).
-/

namespace ToolCalls.Scanner

namespace Tracker

open Literal (startsWith isQuote isQuote_iff isNameChar IsName Quoted StringForm Listed Bracketed
  Element Key Member Digits Spelled Stops isDelimiter maxNesting stops_of_delimiter
  startsWith_delimiter)
open Text (AllOf isBlank)
open Call (Argument ArgumentForm Arguments ArgumentList)

/-! ## The end of a call -/

/-- The text behind the parenthesis that closes the call, if it is closed. -/
def behind? (k : Tracker) : Text → Option Text
  | [] => none
  | c :: t => if !k.escaped && (k.step c).closed then some t else (k.step c).behind? t

/-- Nothing behind the closing parenthesis matters for where it is. -/
theorem behind?_append {k : Tracker} {t r : Text} (h : k.behind? t = some r) (z : Text) :
    k.behind? (t ++ z) = some (r ++ z) := by
  induction t generalizing k with
  | nil => cases h
  | cons c t ih =>
    rw [List.cons_append, behind?]
    rw [behind?] at h
    split at h
    · next hclosed =>
      cases h
      rw [if_pos hclosed]
    · next hopen =>
      rw [if_neg hopen]
      exact ih h

theorem length_lt_of_behind? {k : Tracker} {t r : Text} (h : k.behind? t = some r) :
    r.length < t.length := by
  induction t generalizing k with
  | nil => cases h
  | cons c t ih =>
    rw [behind?] at h
    rw [List.length_cons]
    split at h
    · cases h
      omega
    · have := ih h
      omega

theorem behind?_of_depth {k : Tracker} {c : Char} (h : (k.step c).depth = 1) (t : Text) :
    k.behind? (c :: t) = (k.step c).behind? t := by
  rw [behind?, if_neg]
  simp [closed, h]

/-! ## Double quotes in a row -/

/-- Three double quotes. -/
def tripled : Text := ['\x22', '\x22', '\x22']

/-- Whether no three double quotes follow each other in a text that `doubles` of them stand before,
at most two. -/
def calm : (doubles : Nat) → Text → Bool
  | _, [] => true
  | doubles, c :: t =>
    if c = '\x22' then decide (doubles < 2) && calm (doubles + 1) t else calm 0 t

theorem calm_mono {d d' : Nat} (h : d' ≤ d) {t : Text} (ht : calm d t = true) :
    calm d' t = true := by
  induction t generalizing d d' with
  | nil => rfl
  | cons c t ih =>
    rw [calm] at ht ⊢
    split
    · next hc =>
      rw [if_pos hc, Bool.and_eq_true, decide_eq_true_eq] at ht
      rw [Bool.and_eq_true, decide_eq_true_eq]
      exact ⟨by omega, ih (by omega) ht.2⟩
    · next hc =>
      rw [if_neg hc] at ht
      exact ht

/-- A text without three double quotes in a row is calm. -/
theorem calm_of_untripled {d : Nat} (hd : d ≤ 2) {t : Text}
    (h : ¬ tripled <:+: List.replicate d '\x22' ++ t) : calm d t = true := by
  induction t generalizing d with
  | nil => rfl
  | cons c t ih =>
    rw [calm]
    split
    · next hc =>
      subst hc
      have hlt : d < 2 := by
        apply Nat.lt_of_le_of_ne hd
        rintro rfl
        exact h ⟨[], t, rfl⟩
      have hrow : List.replicate (d + 1) '\x22' ++ t = List.replicate d '\x22' ++ '\x22' :: t := by
        rw [List.replicate_succ', List.append_assoc]
        rfl
      rw [Bool.and_eq_true, decide_eq_true_eq]
      exact ⟨hlt, ih (by omega) (by rwa [hrow])⟩
    · apply ih (Nat.zero_le 2)
      intro hpart
      apply h
      exact hpart.trans ⟨List.replicate d '\x22' ++ [c], [], by simp⟩

theorem calm_of_part {t u : Text} (h : ¬ tripled <:+: t) (hu : u <:+: t) : calm 0 u = true := by
  apply calm_of_untripled (Nat.zero_le 2)
  intro hpart
  exact h (hpart.trans hu)

theorem calm_step {k : Tracker} {c : Char} {t : Text} (h : calm k.doubles (c :: t) = true) :
    calm (k.step c).doubles t = true := by
  rw [calm] at h
  have hnext : calm (if c = '\x22' then k.doubles + 1 else 0) t = true := by
    split at h
    · next hc =>
      rw [if_pos hc]
      exact (Bool.and_eq_true_iff.1 h).2
    · next hc => rwa [if_neg hc]
  unfold step
  split
  · exact calm_mono (Nat.zero_le _) hnext
  · exact hnext

/-! ## Leading from one tracker to another -/

/-- From a tracker with `P`, the characters of `u` before `z` lead to one with `Q`, and the call is
not closed on the way. -/
def Leads (P : Tracker → Prop) (u z : Text) (Q : Tracker → Prop) : Prop :=
  ∀ k, P k → calm k.doubles (u ++ z) = true →
    ∃ k', Q k' ∧ calm k'.doubles z = true ∧ k.behind? (u ++ z) = k'.behind? z

theorem Leads.refl (P : Tracker → Prop) (z : Text) : Leads P [] z P :=
  fun k hk hcalm => ⟨k, hk, hcalm, rfl⟩

theorem Leads.trans {P Q R : Tracker → Prop} {u v z : Text} (h : Leads P u (v ++ z) Q)
    (h' : Leads Q v z R) : Leads P (u ++ v) z R := by
  intro k hk hcalm
  rw [List.append_assoc] at hcalm ⊢
  obtain ⟨k₁, hk₁, hcalm₁, heq₁⟩ := h k hk hcalm
  obtain ⟨k₂, hk₂, hcalm₂, heq₂⟩ := h' k₁ hk₁ hcalm₁
  exact ⟨k₂, hk₂, hcalm₂, heq₁.trans heq₂⟩

theorem Leads.cons {P Q R : Tracker → Prop} {c : Char} {u z : Text} (h : Leads P [c] (u ++ z) Q)
    (h' : Leads Q u z R) : Leads P (c :: u) z R :=
  h.trans h'

theorem Leads.step {P Q : Tracker → Prop} {c : Char}
    (h : ∀ k, P k → (c = '\x22' → k.doubles < 2) → (k.step c).depth = 1 ∧ Q (k.step c))
    (z : Text) : Leads P [c] z Q := by
  intro k hk hcalm
  have hdoubles : c = '\x22' → k.doubles < 2 := by
    rintro rfl
    rw [List.cons_append, calm, if_pos rfl, Bool.and_eq_true, decide_eq_true_eq] at hcalm
    exact hcalm.1
  obtain ⟨hdepth, hq⟩ := h k hk hdoubles
  exact ⟨k.step c, hq, calm_step hcalm, behind?_of_depth hdepth z⟩

/-- Where a tracker stands while no parenthesis is open but the call's own: in a quote of the given
kind, behind a run of backticks. -/
structure At (quote : Quote) (run : Nat) (k : Tracker) : Prop where
  quote : k.quote = quote
  ticks : k.ticks = run
  depth : k.depth = 1
  escaped : k.escaped = false

/-- The characters of `u` before `z` lead from between two tokens to between two tokens. -/
def Crossable (u z : Text) : Prop := Leads (At .none 0) u z (At .none 0)

/-! ## Outside of quotes -/

/-- A character that a tracker between two tokens does not care about. -/
def isPlain (c : Char) : Bool :=
  c != tick && c != '\x22' && c != '\x27' && c != '(' && c != ')'

theorem crossable_plain_char {c : Char} (h : isPlain c = true) (z : Text) : Crossable [c] z := by
  simp only [isPlain, Bool.and_eq_true, bne_iff_ne] at h
  obtain ⟨⟨⟨⟨htick, hdouble⟩, hsingle⟩, hopen⟩, hclose⟩ := h
  refine Leads.step (fun k hk _ => ?_) z
  have hstep : k.step c = { k with doubles := 0 } := by
    simp [step, plainStep, outside, hk.quote, hk.ticks, hk.escaped, htick, hdouble, hsingle, hopen,
      hclose]
  rw [hstep]
  exact ⟨hk.depth, hk.quote, hk.ticks, hk.depth, hk.escaped⟩

theorem crossable_plain {u : Text} (h : AllOf isPlain u) (z : Text) : Crossable u z := by
  induction u with
  | nil => exact Leads.refl _ z
  | cons c u ih =>
    rw [Text.allOf_cons] at h
    exact Leads.cons (crossable_plain_char h.1 _) (ih h.2)

theorem isPlain_of_isBlank {c : Char} (h : isBlank c = true) : isPlain c = true := by
  rcases Text.isBlank_iff.1 h with rfl | rfl | rfl | rfl <;> rfl

theorem isPlain_of_isNameChar {c : Char} (h : isNameChar c = true) : isPlain c = true := by
  have hne (d : Char) (hd : isNameChar d = false) : c ≠ d := by
    rintro rfl
    rw [hd] at h
    cases h
  have htick : isNameChar tick = false := by decide
  have hdouble : isNameChar '\x22' = false := by decide
  have hsingle : isNameChar '\x27' = false := by decide
  have hopen : isNameChar '(' = false := by decide
  have hclose : isNameChar ')' = false := by decide
  simp [isPlain, hne tick htick, hne _ hdouble, hne _ hsingle, hne _ hopen, hne _ hclose]

theorem isPlain_of_isDigit {c : Char} (h : c.isDigit = true) : isPlain c = true := by
  apply isPlain_of_isNameChar
  simp [isNameChar, h]

theorem crossable_blanks {b : Text} (hb : AllOf isBlank b) (z : Text) : Crossable b z :=
  crossable_plain (hb.mono fun _ => isPlain_of_isBlank) z

/-- The parenthesis between two tokens closes the call. -/
theorem behind?_paren {k : Tracker} (hk : At .none 0 k) (t : Text) :
    k.behind? (')' :: t) = some t := by
  rw [behind?, if_pos]
  simp [step, plainStep, outside, closed, hk.quote, hk.ticks, hk.depth, hk.escaped, tick]

/-- A tracker finds the closing parenthesis behind what leads from between two tokens to between two
tokens. -/
theorem behind?_of_crossable {u : Text} (h : Crossable u [')'])
    (hcalm : calm 0 (u ++ [')']) = true) (z : Text) :
    ({} : Tracker).behind? (u ++ ')' :: z) = some z := by
  -- a call at its beginning is between two tokens
  obtain ⟨k, hk, -, heq⟩ := h {} ⟨rfl, rfl, rfl, rfl⟩ hcalm
  rw [behind?_paren hk] at heq
  have happend := behind?_append heq z
  rwa [List.append_assoc] at happend

/-! ## Strings -/

/-- What a tracker takes a quote for. -/
def quoteOf (q : Char) : Quote := if q = '\x22' then .double else .single

/-- Behind a backslash in a string. -/
structure Escaped (quote : Quote) (k : Tracker) : Prop where
  quote : k.quote = quote
  ticks : k.ticks = 0
  depth : k.depth = 1
  escaped : k.escaped = true

section Steps

variable {k : Tracker} {q c : Char}

theorem step_opening_quote (hq : isQuote q = true) (hdoubles : q = '\x22' → k.doubles ≠ 2)
    (hk : k.quote = .none) (ht : k.ticks = 0) (he : k.escaped = false) :
    k.step q = { k with
      quote := quoteOf q, closing := if q = '\x22' then 0 else k.closing
      doubles := if q = '\x22' then k.doubles + 1 else 0 } := by
  rcases isQuote_iff.1 hq with rfl | rfl
  · simp [step, plainStep, outside, quoteOf, hk, ht, he, hdoubles rfl, tick]
  · simp [step, plainStep, outside, quoteOf, hk, ht, he, tick]

theorem step_closing_quote (hq : isQuote q = true) (hk : k.quote = quoteOf q)
    (he : k.escaped = false) :
    k.step q = { k with
      quote := .none, doubles := if q = '\x22' then k.doubles + 1 else 0 } := by
  rcases isQuote_iff.1 hq with rfl | rfl
  · have hquote : k.quote = .double := hk
    simp [step, plainStep, inString, hquote, he]
  · have hquote : k.quote = .single := hk
    simp [step, plainStep, inString, hquote, he]

theorem step_in_string (hq : isQuote q = true) (hc : c ≠ '\\') (hne : c ≠ q)
    (hk : k.quote = quoteOf q) (he : k.escaped = false) :
    k.step c = { k with doubles := if c = '\x22' then k.doubles + 1 else 0 } := by
  rcases isQuote_iff.1 hq with rfl | rfl
  · have hquote : k.quote = .double := hk
    simp [step, plainStep, inString, hquote, he, hc, hne]
  · have hquote : k.quote = .single := hk
    simp [step, plainStep, inString, hquote, he, hc, hne]

theorem step_backslash (hq : isQuote q = true) (hk : k.quote = quoteOf q)
    (he : k.escaped = false) : k.step '\\' = { k with escaped := true, doubles := 0 } := by
  rcases isQuote_iff.1 hq with rfl | rfl
  · have hquote : k.quote = .double := hk
    simp [step, plainStep, inString, hquote, he]
  · have hquote : k.quote = .single := hk
    simp [step, plainStep, inString, hquote, he]

theorem step_escaped (he : k.escaped = true) (c : Char) :
    k.step c = { k with escaped := false, doubles := 0, closing := 0 } := by
  simp [step, he]

end Steps

theorem leads_opening_quote {q : Char} (hq : isQuote q = true) (z : Text) :
    Leads (At .none 0) [q] z (At (quoteOf q) 0) := by
  refine Leads.step (fun k hk hdoubles => ?_) z
  have hne (hdouble : q = '\x22') : k.doubles ≠ 2 := Nat.ne_of_lt (hdoubles hdouble)
  rw [step_opening_quote hq hne hk.quote hk.ticks hk.escaped]
  exact ⟨hk.depth, rfl, hk.ticks, hk.depth, hk.escaped⟩

theorem leads_closing_quote {q : Char} (hq : isQuote q = true) (z : Text) :
    Leads (At (quoteOf q) 0) [q] z (At .none 0) := by
  refine Leads.step (fun k hk _ => ?_) z
  rw [step_closing_quote hq hk.quote hk.escaped]
  exact ⟨hk.depth, rfl, hk.ticks, hk.depth, hk.escaped⟩

theorem leads_in_string {q c : Char} (hq : isQuote q = true) (hc : c ≠ '\\') (hne : c ≠ q)
    (z : Text) : Leads (At (quoteOf q) 0) [c] z (At (quoteOf q) 0) := by
  refine Leads.step (fun k hk _ => ?_) z
  rw [step_in_string hq hc hne hk.quote hk.escaped]
  exact ⟨hk.depth, hk.quote, hk.ticks, hk.depth, hk.escaped⟩

theorem leads_backslash {q : Char} (hq : isQuote q = true) (z : Text) :
    Leads (At (quoteOf q) 0) ['\\'] z (Escaped (quoteOf q)) := by
  refine Leads.step (fun k hk _ => ?_) z
  rw [step_backslash hq hk.quote hk.escaped]
  exact ⟨hk.depth, hk.quote, hk.ticks, hk.depth, rfl⟩

theorem leads_escaped (quote : Quote) (c : Char) (z : Text) :
    Leads (Escaped quote) [c] z (At quote 0) := by
  refine Leads.step (fun k hk _ => ?_) z
  rw [step_escaped hk.escaped]
  exact ⟨hk.depth, hk.quote, hk.ticks, hk.depth, rfl⟩

/-- A tracker leaves a string where the grammar has its end. -/
theorem leads_quoted {q : Char} (hq : isQuote q = true) {s body : Text} (h : Quoted q s body)
    (z : Text) : Leads (At (quoteOf q) 0) body z (At (quoteOf q) 0) := by
  induction h with
  | nil => exact Leads.refl _ z
  | @escape e s u body he h ih =>
    exact Leads.cons (leads_backslash hq _) (Leads.cons (leads_escaped _ e _) ih)
  | plain hc hne h ih => exact Leads.cons (leads_in_string hq hc hne _) ih

theorem crossable_string {s raw : Text} (h : StringForm s raw) (z : Text) : Crossable raw z := by
  obtain @⟨q, s, body, hq, h⟩ := h
  apply Leads.cons (leads_opening_quote hq _)
  exact (leads_quoted hq h _).trans (leads_closing_quote hq z)

/-! ## Fenced blocks -/

/-- In a block that was opened by `width` backticks, behind a run of backticks. -/
structure Fenced (width run : Nat) (k : Tracker) : Prop extends At .fence run k where
  fence : k.fence = width

section Steps

variable {k : Tracker} {c : Char}

theorem step_tick (hk : k.quote = .none) (he : k.escaped = false) :
    k.step tick = { k with ticks := k.ticks + 1, doubles := 0 } := by
  by_cases hrun : k.ticks = 0
  · simp [step, plainStep, outside, hk, he, hrun, tick]
  · simp [step, plainStep, afterTicks, hk, he, hrun, tick]

theorem step_opening_run (hc : c ≠ tick) (hk : k.quote = .none) (hw : minTicks ≤ k.ticks)
    (he : k.escaped = false) :
    k.step c = { k with
      quote := .fence, fence := k.ticks, ticks := 0
      doubles := if c = '\x22' then k.doubles + 1 else 0 } := by
  have hne : k.ticks ≠ 0 := by
    have : 3 ≤ k.ticks := hw
    omega
  simp [step, plainStep, afterTicks, hk, he, hne, hc, hw]

theorem step_tick_in_fence (hk : k.quote = .fence) (he : k.escaped = false) :
    k.step tick = { k with ticks := k.ticks + 1, doubles := 0 } := by
  simp [step, plainStep, inFence, hk, he, tick]

theorem step_char_in_fence (hc : c ≠ tick) (hk : k.quote = .fence) (hrun : k.ticks ≠ k.fence)
    (he : k.escaped = false) :
    k.step c = { k with ticks := 0, doubles := if c = '\x22' then k.doubles + 1 else 0 } := by
  simp [step, plainStep, inFence, hk, he, hc, hrun]

/-- The character behind a block is tracked as if the block had been left before. -/
theorem step_behind_fence (hc : c ≠ tick) (hk : k.quote = .fence) (hrun : k.ticks = k.fence)
    (he : k.escaped = false) :
    k.step c = ({ k with quote := .none, ticks := 0 } : Tracker).step c := by
  simp [step, plainStep, inFence, hk, he, hc, hrun]

end Steps

theorem leads_tick (run : Nat) (z : Text) :
    Leads (At .none run) [tick] z (At .none (run + 1)) := by
  refine Leads.step (fun k hk _ => ?_) z
  rw [step_tick hk.quote hk.escaped]
  exact ⟨hk.depth, hk.quote, congrArg (· + 1) hk.ticks, hk.depth, hk.escaped⟩

theorem leads_ticks (n run : Nat) (z : Text) :
    Leads (At .none run) (ToolCalls.ticks n) z (At .none (run + n)) := by
  induction n generalizing run with
  | zero => exact Leads.refl _ z
  | succ n ih =>
    rw [ticks_succ, show run + (n + 1) = run + 1 + n by omega]
    exact Leads.cons (leads_tick run _) (ih (run + 1))

theorem leads_opening_run {width : Nat} (hw : minTicks ≤ width) {c : Char} (hc : c ≠ tick)
    (z : Text) : Leads (At .none width) [c] z (Fenced width 0) := by
  refine Leads.step (fun k hk _ => ?_) z
  rw [step_opening_run hc hk.quote (hk.ticks.symm ▸ hw) hk.escaped]
  exact ⟨hk.depth, ⟨rfl, rfl, hk.depth, hk.escaped⟩, hk.ticks⟩

theorem leads_tick_in_fence (width run : Nat) (z : Text) :
    Leads (Fenced width run) [tick] z (Fenced width (run + 1)) := by
  refine Leads.step (fun k hk _ => ?_) z
  rw [step_tick_in_fence hk.quote hk.escaped]
  exact ⟨hk.depth, ⟨hk.quote, congrArg (· + 1) hk.ticks, hk.depth, hk.escaped⟩, hk.fence⟩

theorem leads_ticks_in_fence (width n run : Nat) (z : Text) :
    Leads (Fenced width run) (ToolCalls.ticks n) z (Fenced width (run + n)) := by
  induction n generalizing run with
  | zero => exact Leads.refl _ z
  | succ n ih =>
    rw [ticks_succ, show run + (n + 1) = run + 1 + n by omega]
    exact Leads.cons (leads_tick_in_fence width run _) (ih (run + 1))

theorem leads_char_in_fence {width run : Nat} (hrun : run ≠ width) {c : Char} (hc : c ≠ tick)
    (z : Text) : Leads (Fenced width run) [c] z (Fenced width 0) := by
  refine Leads.step (fun k hk _ => ?_) z
  rw [step_char_in_fence hc hk.quote (by rwa [hk.ticks, hk.fence]) hk.escaped]
  exact ⟨hk.depth, ⟨hk.quote, rfl, hk.depth, hk.escaped⟩, hk.fence⟩

/-- No run in the body of a block is taken for its end. -/
theorem leads_body {width run : Nat} {t : Text} (h : Fence.avoids width run t = true) (z : Text) :
    Leads (Fenced width run) t z (Fenced width 0) := by
  induction t generalizing run with
  | nil =>
    obtain rfl : run = 0 := by simpa [Fence.avoids] using h
    exact Leads.refl _ z
  | cons c t ih =>
    by_cases hc : c = tick
    · subst hc
      rw [Fence.avoids_tick] at h
      exact Leads.cons (leads_tick_in_fence width run _) (ih h)
    · obtain ⟨hrun, h⟩ := (Fence.avoids_cons hc _ _ _).1 h
      exact Leads.cons (leads_char_in_fence hrun hc _) (ih h)

/-- A block is left together with the character behind it. -/
theorem leads_closing_run (width : Nat) {z : Text} (hne : z ≠ [])
    (hz : startsWith (· == tick) z = false) :
    Leads (Fenced width width) [] z (At .none 0) := by
  intro k hk hcalm
  refine ⟨{ k with quote := .none, ticks := 0 }, ⟨rfl, rfl, hk.depth, hk.escaped⟩, hcalm, ?_⟩
  cases z with
  | nil => exact absurd rfl hne
  | cons c z =>
    have hc : c ≠ tick := by simpa using hz
    have hstep := step_behind_fence hc hk.quote (hk.ticks.trans hk.fence.symm) hk.escaped
    rw [List.nil_append, behind?, behind?, hstep]

theorem crossable_fence {f : Fence} (h : f.WellFormed) {z : Text} (hne : z ≠ [])
    (hz : startsWith (· == tick) z = false) : Crossable f.raw z := by
  have hw := h.width
  have hstart := h.start
  have havoids := h.avoids
  obtain ⟨width, body⟩ := f
  cases body with
  | nil => exact absurd rfl h.nonempty
  | cons c body =>
    have hc : c ≠ tick := by simpa using hstart
    have hbody := ((Fence.avoids_cons hc _ _ _).1 havoids).2
    have hopen : Leads (At .none 0) (ToolCalls.ticks width)
        (c :: (body ++ (ToolCalls.ticks width ++ z))) (At .none width) := by
      simpa using leads_ticks width 0 (c :: (body ++ (ToolCalls.ticks width ++ z)))
    have hclose : Leads (Fenced width 0) (ToolCalls.ticks width) z (Fenced width width) := by
      simpa using leads_ticks_in_fence width width 0 z
    have hcross : Crossable (ToolCalls.ticks width ++ c :: (body ++ ToolCalls.ticks width)) z := by
      refine Leads.trans (by simpa using hopen) (Leads.cons (leads_opening_run hw hc _) ?_)
      refine (leads_body hbody _).trans ?_
      simpa using hclose.trans (v := []) (leads_closing_run width hne hz)
    simpa [Fence.raw] using hcross

/-! ## Literals -/

theorem crossable_name {name : Text} (h : IsName name) (z : Text) : Crossable name z :=
  crossable_plain (h.chars.mono fun _ => isPlain_of_isNameChar) z

theorem crossable_digits {ds : Text} (h : Digits ds) (z : Text) : Crossable ds z :=
  crossable_plain (h.digits.mono fun _ => isPlain_of_isDigit) z

theorem crossable_sign (negative : Bool) (z : Text) : Crossable (Literal.sign negative) z := by
  cases negative with
  | false => exact Leads.refl _ z
  | true => exact crossable_plain_char rfl z

theorem crossable_key {key raw : Text} (h : Key key raw) (z : Text) : Crossable raw z := by
  cases h with
  | name h => exact crossable_name h z
  | string h => exact crossable_string h z

section Rows

variable {α : Type} {Part : α → Text → Prop}

theorem crossable_listed
    (hp : ∀ a u, Part a u → ∀ z, startsWith isDelimiter z = true → Crossable u z)
    {as : List α} {u : Text} (h : Listed Part as u) {z : Text}
    (hz : startsWith isDelimiter z = true) : Crossable u z := by
  induction h with
  | @last a u b h hb =>
    refine Leads.trans (hp a u h _ ?_) (crossable_blanks hb z)
    cases b with
    | nil => exact hz
    | cons c b =>
      have hc := (Text.allOf_cons.1 hb).1
      simp [isDelimiter, hc]
  | @more a u b b' as w h hb hb' hw ih =>
    refine Leads.trans (hp a u h _ ?_) ((crossable_blanks hb _).trans ?_)
    · rw [List.append_assoc]
      exact startsWith_delimiter hb rfl _
    · exact Leads.cons (crossable_plain_char rfl _) ((crossable_blanks hb' _).trans ih)

theorem crossable_bracketed {opening closing : Char} (ho : isPlain opening = true)
    (hc : isPlain closing = true) (hd : isDelimiter closing = true)
    (hp : ∀ a u, Part a u → ∀ z, startsWith isDelimiter z = true → Crossable u z)
    {as : List α} {raw : Text} (h : Bracketed opening closing Part as raw) (z : Text) :
    Crossable raw z := by
  cases h with
  | empty hb =>
    refine Leads.cons (crossable_plain_char ho _) ?_
    exact (crossable_blanks hb _).trans (crossable_plain_char hc z)
  | row hb h =>
    have hz : startsWith isDelimiter ([closing] ++ z) = true := hd
    refine Leads.cons (crossable_plain_char ho _) ((crossable_blanks hb _).trans ?_)
    exact (crossable_listed hp h hz).trans (crossable_plain_char hc z)

end Rows

/-- What is asked of the values inside a literal to lead over the literal. -/
def CrossesItems (Item : Value → Prop) : Prop :=
  ∀ v z, Item v → Stops v z → z ≠ [] → Crossable v.raw z

theorem CrossesItems.of_delimiter {Item : Value → Prop} (hi : CrossesItems Item) {v : Value}
    (hv : Item v) {z : Text} (hz : startsWith isDelimiter z = true) : Crossable v.raw z := by
  apply hi v z hv (stops_of_delimiter v hz)
  rintro rfl
  cases hz

theorem CrossesItems.element {Item : Value → Prop} (hi : CrossesItems Item) (v : Value) (u : Text)
    (h : Element Item v u) (z : Text) (hz : startsWith isDelimiter z = true) : Crossable u z := by
  obtain ⟨hv, rfl⟩ := h
  exact hi.of_delimiter hv hz

theorem CrossesItems.member {Item : Value → Prop} (hi : CrossesItems Item) (m : Text × Value)
    (u : Text) (h : Member Item m u) (z : Text) (hz : startsWith isDelimiter z = true) :
    Crossable u z := by
  obtain ⟨hk, hb, hb', hv⟩ := h
  refine (crossable_key hk _).trans ((crossable_blanks hb _).trans ?_)
  refine Leads.cons (crossable_plain_char rfl _) ?_
  exact (crossable_blanks hb' _).trans (hi.of_delimiter hv hz)

theorem CrossesItems.form {dropsTag : Bool} {Item : Value → Prop} (hi : CrossesItems Item) :
    CrossesItems (Literal.Form dropsTag Item) := by
  intro v z hv hstop hne
  cases hv with
  | string h => exact crossable_string h z
  | integer negative h hl => exact (crossable_sign negative _).trans (crossable_digits h z)
  | float negative hw hp =>
    refine (crossable_sign negative _).trans ((crossable_digits hw _).trans ?_)
    exact Leads.cons (crossable_plain_char rfl _) (crossable_digits hp z)
  | yes => exact crossable_plain (by decide) z
  | no => exact crossable_plain (by decide) z
  | null => exact crossable_plain (by decide) z
  | block h => exact crossable_fence h hne (hstop (Fence.startsWith_raw h))
  | array h => exact crossable_bracketed rfl rfl rfl hi.element h z
  | object h hf => exact crossable_bracketed rfl rfl rfl hi.member h z

theorem crossesItems_spelled (dropsTag : Bool) (levels : Nat) :
    CrossesItems (Spelled dropsTag levels) := by
  induction levels with
  | zero => exact fun v z hv => absurd hv id
  | succ levels ih => exact ih.form

/-! ## Arguments -/

theorem crossable_argument {dropsTag : Bool} {a : Argument} {u z : Text}
    (h : ArgumentForm (Spelled dropsTag maxNesting) a u) (hs : a.Stops u z) (hne : z ≠ []) :
    Crossable u z := by
  cases h with
  | named hn hb hb' hv =>
    refine (crossable_name hn _).trans ((crossable_blanks hb _).trans ?_)
    refine Leads.cons (crossable_plain_char rfl _) ((crossable_blanks hb' _).trans ?_)
    exact crossesItems_spelled dropsTag _ _ z hv hs.value hne
  | bare hv => exact crossesItems_spelled dropsTag _ _ z hv hs.value hne

theorem crossable_separator {sep : Text} (h : Call.Separator sep) (z : Text) :
    Crossable sep z := by
  cases h with
  | blanks hb => exact crossable_blanks hb z
  | comma hb hb' =>
    refine (crossable_blanks hb _).trans (Leads.cons (crossable_plain_char rfl _) ?_)
    exact crossable_blanks hb' z

theorem crossable_arguments {dropsTag : Bool} {as : List Argument} {u : Text}
    (h : Arguments (Spelled dropsTag maxNesting) as u) (z : Text) : Crossable u (')' :: z) := by
  induction h with
  | last h hb hs =>
    exact (crossable_argument h (hs.paren z) (by simp)).trans (crossable_blanks hb _)
  | @more a u sep w as h hsep hs hw ih =>
    rw [← List.append_assoc] at hs
    have hstop := hs.paren z
    exact (crossable_argument h hstop (by simp)).trans ((crossable_separator hsep _).trans ih)

/-- A tracker finds the closing parenthesis where the grammar of calls has it, if no three double
quotes follow each other before it. -/
theorem behind?_argumentList {dropsTag : Bool} {as : List Argument} {u : Text}
    (h : ArgumentList (Spelled dropsTag maxNesting) as u) (hcalm : calm 0 (u ++ [')']) = true)
    (z : Text) : ({} : Tracker).behind? (u ++ ')' :: z) = some z := by
  refine behind?_of_crossable ?_ hcalm z
  cases h with
  | empty hb => exact crossable_blanks hb _
  | row hb h => exact (crossable_blanks hb _).trans (crossable_arguments h [])

end Tracker

end ToolCalls.Scanner

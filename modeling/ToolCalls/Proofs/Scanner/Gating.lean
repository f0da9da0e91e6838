import Mathlib.Data.List.DropRight
import ToolCalls.Proofs.Call.Locality
import ToolCalls.Proofs.Scanner.Registers
import ToolCalls.Proofs.Scanner.Soundness

/-!
# Where calls may begin

A call is looked for only where a line begins, spaces and tabs apart, and only if its tool is known.
`Gated` is the invariant that says so of a state and of what was reported before it.  In plain text
the flag of the mode shows whether only spaces and tabs have been fed of the line so far.  A text
that is held back stands where the flag was set, nothing else is unreported, and from its opening
parenthesis on it begins with a known name, whose report is the last one.

What is plain text again has something else than spaces and tabs before it on its line: the name,
the closing parenthesis or the last backtick of the text that was held back.  For the parenthesis
this is a fact about trackers (`Tracker.getLast?_of_behind?`).
-/

namespace ToolCalls.Scanner

open Literal (IsName)
open Text (AllOf isInline)

/-! ## The line so far -/

/-- What has been fed of the line that the stream stands in. -/
def lineSoFar (t : Text) : Text := t.rtakeWhile (· != '\n')

theorem lineSoFar_concat (t : Text) (c : Char) :
    lineSoFar (t ++ [c]) = if c = '\n' then [] else lineSoFar t ++ [c] := by
  rw [lineSoFar, List.rtakeWhile_concat]
  by_cases hc : c = '\n'
  · simp [hc]
  · simp [hc, lineSoFar]

/-- A text without a line end belongs to the line so far. -/
theorem lineSoFar_append {v : Text} (hv : '\n' ∉ v) (t : Text) :
    lineSoFar (t ++ v) = lineSoFar t ++ v := by
  induction v using List.reverseRecOn with
  | nil => simp
  | append_singleton v c ih =>
    rw [List.mem_append, not_or, List.mem_singleton] at hv
    rw [← List.append_assoc, lineSoFar_concat, if_neg (Ne.symm hv.2), ih hv.1, List.append_assoc]

/-- Something else than spaces and tabs stands in the line so far. -/
theorem not_inline_of_mem {u v : Text} {x : Char} (hv : '\n' ∉ v) (hx : x ∈ v)
    (hinline : isInline x = false) : ¬ AllOf isInline (lineSoFar (u ++ v)) := by
  intro hall
  rw [lineSoFar_append hv] at hall
  have hmem := hall x (List.mem_append_right _ hx)
  rw [hinline] at hmem
  cases hmem

theorem isInline_eq_false_of_isNameChar {x : Char} (h : Literal.isNameChar x = true) :
    isInline x = false := by
  by_contra hinline
  have hx : x = ' ' ∨ x = '\t' := by simpa [isInline, or_iff_not_imp_left] using hinline
  rcases hx with rfl | rfl
  · exact absurd h (by decide)
  · exact absurd h (by decide)

/-- A line begins behind a line end, and goes on with its indentation. -/
theorem inline_concat_iff (t : Text) (c : Char) :
    AllOf isInline (lineSoFar (t ++ [c])) ↔
      c = '\n' ∨ AllOf isInline (lineSoFar t) ∧ isInline c = true := by
  rw [lineSoFar_concat]
  by_cases hc : c = '\n'
  · simp [hc]
  · simp [hc]

/-! ## The closing parenthesis -/

namespace Tracker

variable {k : Tracker} {c : Char}

theorem depth_outside (hk : k.depth ≠ 0) (h : (k.outside c).depth = 0) :
    c = ')' ∧ (k.outside c).quote = k.quote := by
  unfold outside at h ⊢
  by_cases hc : c = ')'
  · subst hc
    exact ⟨rfl, rfl⟩
  · -- no other character takes a parenthesis away
    rw [if_neg hc] at h
    split_ifs at h
    all_goals exact absurd h hk

theorem depth_inString (k : Tracker) (c : Char) : (k.inString c).depth = k.depth := by
  unfold inString
  dsimp only
  repeat' split
  all_goals rfl

theorem depth_plainStep (hk : k.depth ≠ 0) (h : (k.plainStep c).depth = 0) :
    c = ')' ∧ (k.plainStep c).quote = .none := by
  unfold plainStep at h ⊢
  cases hq : k.quote with
  | none =>
    rw [hq] at h
    dsimp only at h ⊢
    by_cases hticks : k.ticks = 0
    · rw [if_pos hticks] at h ⊢
      obtain ⟨hc, hquote⟩ := depth_outside hk h
      exact ⟨hc, hquote.trans hq⟩
    · rw [if_neg hticks] at h ⊢
      unfold afterTicks at h ⊢
      split_ifs at h ⊢
      · exact absurd h hk
      · exact absurd h hk
      · obtain ⟨hc, hquote⟩ := depth_outside (k := { k with ticks := 0 }) hk h
        exact ⟨hc, hquote.trans hq⟩
  | fence =>
    rw [hq] at h
    dsimp only at h ⊢
    unfold inFence at h ⊢
    split_ifs at h ⊢
    · exact absurd h hk
    · exact depth_outside (k := { k with quote := .none, ticks := 0 }) hk h
    · exact absurd h hk
  | single =>
    rw [hq] at h
    exact absurd ((depth_inString k c).symm.trans h) hk
  | double =>
    rw [hq] at h
    exact absurd ((depth_inString k c).symm.trans h) hk
  | triple =>
    rw [hq] at h
    exact absurd ((depth_inString k c).symm.trans h) hk

/-- Only a closing parenthesis outside of strings and blocks closes the call. -/
theorem closed_of_depth (hk : k.depth ≠ 0) (h : (k.step c).depth = 0) :
    c = ')' ∧ k.escaped = false ∧ (k.step c).closed = true := by
  unfold step closed at *
  by_cases he : k.escaped = true
  · rw [if_pos he] at h
    exact absurd h hk
  · rw [if_neg he] at h ⊢
    obtain ⟨hc, hquote⟩ := depth_plainStep hk h
    exact ⟨hc, by simpa using he, by simp [hquote, show (k.plainStep c).depth = 0 from h]⟩

/-- The closing parenthesis is the last character before what stands behind it. -/
theorem getLast?_of_behind? (hk : k.depth ≠ 0) {p : Text} (h : k.behind? p = some []) :
    p.getLast? = some ')' := by
  induction p generalizing k with
  | nil => cases h
  | cons c p ih =>
    rw [behind?] at h
    by_cases hclosed : (!k.escaped && (k.step c).closed) = true
    · rw [if_pos hclosed, Option.some.injEq] at h
      subst h
      rw [Bool.and_eq_true, closed, Bool.and_eq_true, beq_iff_eq] at hclosed
      rw [(closed_of_depth hk hclosed.2.1).1]
      rfl
    · rw [if_neg hclosed] at h
      have hdepth : (k.step c).depth ≠ 0 := by
        intro hzero
        obtain ⟨-, he, hc⟩ := closed_of_depth hk hzero
        exact hclosed (by rw [he, hc]; rfl)
      rw [List.getLast?_cons, ih hdepth h]
      rfl

end Tracker

/-! ## The invariant -/

/-- A call of a known tool has begun with the text that is held back, and its beginning is the last
report if beginnings are reported. -/
def Opened (sc : Scanner) (events : List Event) (held : Text) : Prop :=
  ∃ name p, held = name ++ '(' :: p ∧ IsName name ∧ name ∈ sc.tools ∧
    (sc.status = true → events.getLast? = some (.status name))

theorem Opened.concat {sc : Scanner} {events : List Event} {held : Text}
    (h : Opened sc events held) (c : Char) : Opened sc events (held ++ [c]) := by
  obtain ⟨name, p, rfl, hrest⟩ := h
  exact ⟨name, p ++ [c], by simp, hrest⟩

/-- What a state and the reports before it have to do with the lines that were fed. -/
def Gated (sc : Scanner) (fed : Text) (events : List Event) (s : State) : Prop :=
  match s.mode with
  | .text lineStart => lineStart = true ↔ AllOf isInline (lineSoFar fed)
  | .name _ => s.buffer = [] ∧ AllOf isInline (lineSoFar (spelling events))
  | .call held _ | .afterCall held _ | .content held _ _ _ =>
    s.buffer = [] ∧ AllOf isInline (lineSoFar (spelling events)) ∧ Opened sc events held

section Step

variable {sc : Scanner} {s : State} {fed : Text} {events : List Event} {c : Char}

theorem gated_textStep {lineStart : Bool} (hfed : spelling events ++ s.buffer = fed)
    (h : lineStart = true ↔ AllOf isInline (lineSoFar fed)) :
    Gated sc (fed ++ [c]) (events ++ (sc.textStep s lineStart c).events)
      (sc.textStep s lineStart c).state := by
  unfold textStep
  by_cases hname : (lineStart && Literal.isNameStart c) = true
  · -- all that was fed before the name has been reported
    rw [if_pos hname]
    refine ⟨rfl, ?_⟩
    rw [State.flush, spelling_append, spelling_textEvents, hfed]
    exact h.1 (Bool.and_eq_true_iff.1 hname).1
  · rw [if_neg hname]
    have hflag : (if (lineStart && isInline c) = true then true else c == '\n') = true ↔
        AllOf isInline (lineSoFar (fed ++ [c])) := by
      rw [inline_concat_iff, ← h]
      by_cases hinline : (lineStart && isInline c) = true
      · rw [if_pos hinline]
        exact ⟨fun _ => Or.inr (Bool.and_eq_true_iff.1 hinline), fun _ => rfl⟩
      · rw [if_neg hinline, beq_iff_eq, or_iff_left]
        exact fun hand => hinline (Bool.and_eq_true_iff.2 hand)
    dsimp only
    split
    · exact hflag
    · exact hflag

/-- Plain text behind something else than spaces and tabs on its line. -/
theorem gated_leave (h : ¬ AllOf isInline (lineSoFar fed)) (s : State) (events : List Event) :
    Gated sc (fed ++ [c]) events (sc.textStep s false c).state := by
  have hflag : (c == '\n') = true ↔ AllOf isInline (lineSoFar (fed ++ [c])) := by
    rw [inline_concat_iff, or_iff_left fun hand => h hand.1, beq_iff_eq]
  unfold textStep
  rw [Bool.false_and, if_neg Bool.false_ne_true]
  dsimp only
  split
  · exact hflag
  · exact hflag

theorem gated_complete {held : Text} (h : ¬ AllOf isInline (lineSoFar fed))
    (hf : (sc.complete s held c).fault? = none) (events : List Event) :
    Gated sc (fed ++ [c]) events (sc.complete s held c).state := by
  rw [complete] at hf ⊢
  rw [Outcome.state_andThen (Outcome.fault?_andThen_eq_none_iff.1 hf).1]
  exact gated_leave h _ events

/-- In the modes in which a call has begun the invariant is the same. -/
theorem gated_begun_iff {m : Mode} (hm : m.begun = true) :
    Gated sc fed events { s with mode := m } ↔
      s.buffer = [] ∧ AllOf isInline (lineSoFar (spelling events)) ∧ Opened sc events m.held := by
  cases m with
  | text lineStart => cases hm
  | name held => cases hm
  | call held k => exact Iff.rfl
  | afterCall held run => exact Iff.rfl
  | content held width run opened => exact Iff.rfl

theorem gated_opening {held : Text} (hn : IsName held) (hknown : held ∈ sc.tools)
    (hb : s.buffer = []) (h : AllOf isInline (lineSoFar (spelling events))) :
    Gated sc fed (events ++ (sc.perform s '(' (.opening held)).events)
      (sc.perform s '(' (.opening held)).state := by
  have hspelling : spelling (events ++ sc.statusEvents held) = spelling events := by
    unfold statusEvents
    split <;> simp [Event.spelling]
  refine ⟨hb, ?_, held, [], rfl, hn, hknown, fun hstatus => ?_⟩
  · show AllOf isInline (lineSoFar (spelling (events ++ sc.statusEvents held)))
    rwa [hspelling]
  · rw [perform, if_pos hstatus, List.getLast?_concat]

/-- Behind a name the line holds that name. -/
theorem not_inline_of_name {u name : Text} (hn : IsName name) :
    ¬ AllOf isInline (lineSoFar (u ++ name)) := by
  obtain ⟨x, n, rfl, hx⟩ := Text.exists_cons_of_startsWith hn.start
  refine not_inline_of_mem (fun hmem => ?_) List.mem_cons_self ?_
  · exact absurd (hn.chars _ hmem) (by decide)
  · exact isInline_eq_false_of_isNameChar (Literal.isNameChar_of_isNameStart hx)

/-- Behind the closing parenthesis the line holds that parenthesis. -/
theorem not_inline_of_afterCall {u held : Text} {run : Nat} (hm : Held (.afterCall held run)) :
    ¬ AllOf isInline (lineSoFar (u ++ held)) := by
  cases hm with
  | @afterCall name p w run hn hp hw hr =>
    obtain ⟨q, rfl⟩ := List.getLast?_eq_some_iff.1 (Tracker.getLast?_of_behind? Nat.one_ne_zero hp)
    have hsplit : u ++ (name ++ '(' :: (q ++ [')'] ++ (w ++ ticks run))) =
        u ++ (name ++ '(' :: q) ++ ')' :: (w ++ ticks run) := by simp
    rw [hsplit]
    refine not_inline_of_mem (fun hmem => ?_) List.mem_cons_self rfl
    rcases List.mem_cons.1 hmem with heq | hmem
    · exact absurd heq (by decide)
    · rcases List.mem_append.1 hmem with hmem | hmem
      · exact absurd (hw _ hmem) (by decide)
      · exact absurd (List.eq_of_mem_replicate hmem) (by decide)

/-- Behind the closing run of a block the line holds that run. -/
theorem not_inline_of_closed {u held : Text} {width : Nat} {opened : Bool}
    (hm : Held (.content held width width opened)) : ¬ AllOf isInline (lineSoFar (u ++ held)) := by
  obtain ⟨v, rfl⟩ := List.getLast?_eq_some_iff.1 hm.getLast?_of_closed
  rw [← List.append_assoc]
  exact not_inline_of_mem (by decide) List.mem_cons_self rfl

theorem gated_step (hfed : spelling events ++ s.unreported = fed) (hm : Held s.mode)
    (h : Gated sc fed events s) (hf : (sc.step s c).fault? = none) :
    Gated sc (fed ++ [c]) (events ++ (sc.step s c).events) (sc.step s c).state := by
  obtain ⟨a, ha, hstep⟩ := step_cases sc s c
  rw [hstep] at hf ⊢
  obtain ⟨buffer, size, m⟩ := s
  change Held m at hm
  change m.Acts sc.tools c a at ha
  change spelling events ++ (buffer ++ m.held) = fed at hfed
  -- what was held back is all that has not been reported
  have hleave (hb : buffer = []) (hline : ∀ u, ¬ AllOf isInline (lineSoFar (u ++ m.held))) :
      ¬ AllOf isInline (lineSoFar fed) := by
    rw [← hfed, hb, List.nil_append]
    exact hline _
  cases ha with
  | text lineStart =>
    rw [Mode.held, List.append_nil] at hfed
    exact gated_textStep hfed h
  | name hc => exact ⟨h.1, by simpa [perform] using h.2⟩
  | opening hc hknown =>
    subst hc
    cases hm with
    | name hn => exact gated_opening hn hknown h.1 h.2
  | leaveName notes =>
    cases hm with
    | name hn => exact gated_leave (hleave h.1 fun u => not_inline_of_name hn) _ _
  | @hold _ next hbegun hnext hheld hline =>
    obtain ⟨hb, hinline, hopen⟩ := (gated_begun_iff (s := ⟨buffer, size, m⟩) hbegun).1 h
    refine (gated_begun_iff (s := ⟨buffer, size, m⟩) hnext).2 ⟨hb, ?_, ?_⟩
    · rwa [perform, List.append_nil]
    · rw [hheld, perform, List.append_nil]
      exact hopen.concat c
  | leaveCall hc => exact gated_leave (hleave h.1 fun u => not_inline_of_afterCall hm) _ _
  | line hc => exact gated_complete (hleave h.1 fun u => not_inline_of_afterCall hm) hf _
  | block hc => exact gated_complete (hleave h.1 fun u => not_inline_of_closed hm) hf _

end Step

/-- The invariant holds after every run without a fault. -/
theorem gated_feed {sc : Scanner} {t : Text} (h : (sc.feed {} t).fault? = none) :
    Gated sc t (sc.feed {} t).events (sc.feed {} t).state := by
  induction t using List.reverseRecOn with
  | nil => exact ⟨fun _ => Text.allOf_nil, fun _ => rfl⟩
  | append_singleton t c ih =>
    rw [feed_concat] at h ⊢
    obtain ⟨ht, hc⟩ := Outcome.fault?_andThen_eq_none_iff.1 h
    rw [Outcome.events_andThen ht, Outcome.state_andThen ht]
    exact gated_step (accountsFor_feed ht).spelling (held_feed ht) (ih ht) hc

/-- The register of the flag shows whether a call may start with the next character. -/
theorem Registers.Follows.lineStart_eq {r : Registers} {s : State} (h : r.Follows s) :
    r.lineStart = s.atLineStart := by
  cases h <;> rfl

/-! ## Reported calls -/

/-- Where a call is reported behind the events `pre`, and what it is. -/
structure Anchored (sc : Scanner) (stream : Text) (pre : List Event) (c : Call) : Prop where
  known : c.name ∈ sc.tools
  opening : c.name ++ ['('] <+: c.raw
  place : spelling pre ++ c.raw <+: stream
  indented : AllOf isInline (lineSoFar (spelling pre))
  reads : Call.parse? false sc.read c.raw = .ok (some c)
  status : sc.status = true → pre.getLast? = some (.status c.name)

section Reports

variable {sc : Scanner} {s : State} {c : Call} {rest : Text}

/-- What is held back and reads as a call has been opened. -/
theorem opened_of_read {fed : Text} {events : List Event} {dropsTag : Bool} (hm : Held s.mode)
    (h : Gated sc fed events s) (hread : Call.read false dropsTag s.pending = .found c rest) :
    s.buffer = [] ∧ AllOf isInline (lineSoFar (spelling events)) ∧ Opened sc events s.pending := by
  unfold Gated at h
  unfold State.pending at hread ⊢
  cases hmode : s.mode with
  | text lineStart =>
    rw [hmode] at hread
    cases hread
  | name held =>
    rw [hmode] at hread hm
    cases hm with
    | name hn =>
      rw [Mode.held, Call.read_name _ _ hn] at hread
      cases hread
  | call held k =>
    rw [hmode] at h
    exact h
  | afterCall held run =>
    rw [hmode] at h
    exact h
  | content held width run opened =>
    rw [hmode] at h
    exact h

theorem anchored_of_reported {u left : Text} {pre : List Event}
    (h : Reported sc {} u left pre c rest) : Anchored sc (u ++ left) pre c := by
  obtain ⟨hb, hindent, name, p, hpending, hn, hknown, hstatus⟩ :=
    opened_of_read (held_feed h.fault) (gated_feed h.fault) h.read
  have hpre : pre = (sc.feed {} u).events := by
    rw [h.events, hb]
    exact List.append_nil _
  obtain ⟨hform, hraw⟩ := Call.read_eq_found_iff.1 h.read
  obtain ⟨hname, q, hq⟩ : c.name = name ∧ ∃ q, c.raw = c.name ++ '(' :: q := by
    rw [hpending] at hraw
    cases hform with
    | @plain name' raw rest as hhead hr =>
      obtain ⟨hname, v, -, hv⟩ := hhead.eq_of_append rest hn hraw.symm
      exact ⟨hname, _, hv⟩
    | @block name' raw gap rest as f hhead hg hf hr =>
      rw [List.append_assoc] at hraw
      obtain ⟨hname, v, -, hv⟩ := hhead.eq_of_append _ hn hraw.symm
      refine ⟨hname, v ++ [')'] ++ (gap ++ f.raw), ?_⟩
      simp [hv]
  rw [hpre]
  refine ⟨hname ▸ hknown, ⟨q, by simp [hq]⟩, ⟨rest ++ left, ?_⟩, hindent,
    Call.parse?_raw hform false, hname ▸ hstatus⟩
  have hspelling := (accountsFor_feed h.fault).spelling
  rw [State.unreported, hb, List.nil_append, hraw] at hspelling
  calc spelling (sc.feed {} u).events ++ c.raw ++ (rest ++ left)
      = spelling (sc.feed {} u).events ++ (c.raw ++ rest) ++ left := by simp
    _ = u ++ left := by rw [hspelling]; rfl

end Reports

/-- After every part of a stream, a call may start with the next character just if the scanner is in
plain text and only spaces and tabs have been fed since the last line end; the register of the flag
shows the same.  Every call that is reported, also at the end of the stream, is one of a known tool
and begins with its name and the opening parenthesis, stands where its line begins, spaces and tabs
apart, is what its own source text reads as, and follows the report of its beginning. -/
theorem feedAll_gated (sc : Scanner) (chunks : List Text) :
    (∀ fed, fed <+: chunks.flatten → (sc.feedChunks {} chunks).fault? = none →
      ((sc.feed {} fed).state.atLineStart = true ↔
        (∃ lineStart, (sc.feed {} fed).state.mode = .text lineStart) ∧
          AllOf isInline (lineSoFar fed)) ∧
      (Registers.run sc fed).lineStart = (sc.feed {} fed).state.atLineStart) ∧
    ∀ o, o = sc.feedChunks {} chunks ∨ o = sc.feedAll {} chunks → o.fault? = none →
      ∀ pre c post, o.events = pre ++ .tool c :: post → Anchored sc chunks.flatten pre c := by
  refine ⟨fun fed hfed h => ⟨?_, ?_⟩, ?_⟩
  · obtain ⟨rest, hrest⟩ := hfed
    rw [feedChunks_eq_feed, ← hrest] at h
    have hgated := gated_feed (fault?_feed_append h).1
    unfold Gated at hgated
    unfold State.atLineStart
    cases hmode : (sc.feed {} fed).state.mode with
    | text lineStart =>
      rw [hmode] at hgated
      simpa using hgated
    | name held => simp
    | call held k => simp
    | afterCall held run => simp
    | content held width run opened => simp
  · obtain ⟨rest, hrest⟩ := hfed
    rw [feedChunks_eq_feed, ← hrest] at h
    exact (Registers.follows_run (fault?_feed_append h).1).lineStart_eq
  · rintro o (rfl | rfl) hf pre c post he
    · rw [feedChunks_eq_feed] at hf he
      obtain ⟨u, left, rest, hsplit, hreported⟩ := reported_of_feed hf he
      rw [hsplit]
      exact anchored_of_reported hreported
    · obtain ⟨u, left, rest, hsplit, hreported⟩ := reported_of_feedAll hf he
      rw [hsplit]
      exact anchored_of_reported hreported

/-- An indented call with a line end between its parentheses, which starts no line for a call. -/
theorem feedAll_gated_lines :
    let sc : Scanner := { tools := ["f".toList], status := true }
    let chunks := ["\tf(".toList, "\n)".toList]
    let c : Call := { name := "f".toList, raw := "f(\n)".toList }
    (sc.feedChunks {} chunks).fault? = none ∧ (sc.feedAll {} chunks).fault? = none ∧
      (sc.feed {} "\t".toList).state.atLineStart = true ∧
      (sc.feed {} "\tf(\n".toList).state.atLineStart = false ∧
      Anchored sc "\tf(\n)".toList [.text "\t".toList, .status "f".toList] c := by
  intro sc chunks c
  have hfeed : (sc.feedChunks {} chunks).fault? = none := by decide +kernel
  have hall : (sc.feedAll {} chunks).fault? = none := by decide +kernel
  obtain ⟨hflag, hcalls⟩ := feedAll_gated sc chunks
  refine ⟨hfeed, hall, ?_, ?_, ?_⟩
  · have hiff := (hflag "\t".toList ⟨"f(\n)".toList, rfl⟩ hfeed).1
    exact hiff.2 ⟨⟨true, rfl⟩, by decide⟩
  · have hiff := (hflag "\tf(\n".toList ⟨")".toList, rfl⟩ hfeed).1
    have hmode : (sc.feed {} "\tf(\n".toList).state.mode = .call "f(\n".toList {} := by
      decide +kernel
    rw [Bool.eq_false_iff, ne_eq, hiff, hmode]
    rintro ⟨⟨lineStart, hne⟩, -⟩
    cases hne
  · exact hcalls _ (Or.inr rfl) hall _ c [] rfl

end ToolCalls.Scanner

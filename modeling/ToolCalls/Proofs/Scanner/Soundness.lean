import ToolCalls.Proofs.Scanner.Losslessness
import ToolCalls.Proofs.Scanner.Recognition

/-!
# Every reported call is a call

A scanner reads what it held back without the rest of the stream and without the rule about the end
of the line.  The call it reports is still the one that is read from the whole rest of the stream
without that rule.  With the rule it is the same call again, except in two cases that
`feedAll_tool_sound` gives exactly: the stream ends with one or two backticks behind the call, or
three double quotes in a row in the call made the tracker lose its closing parenthesis.

`Held` is the invariant: it says what a text that is held back looks like.  `Ending` lists the
moments at which such a text is read, with what is left of the stream.
-/

namespace ToolCalls.Scanner

open Literal (startsWith isNameStart isNameChar IsName Spelled maxNesting)
open Text (AllOf isInline skipInline)
open Call (endsLine)

variable {sc : Scanner} {s : State}

/-! ## What is held back -/

/-- What a text that is held back in a mode looks like. -/
inductive Held : Mode → Prop where
  | text (lineStart : Bool) : Held (.text lineStart)
  | name {held : Text} (hn : IsName held) : Held (.name held)
  | call {name p : Text} {k : Tracker} (hn : IsName name)
      (hp : ∀ z, ({} : Tracker).behind? (p ++ z) = k.behind? z) :
      Held (.call (name ++ '(' :: p) k)
  | afterCall {name p w : Text} {run : Nat} (hn : IsName name)
      (hp : ({} : Tracker).behind? p = some []) (hw : AllOf isGap w) (hr : run < minTicks) :
      Held (.afterCall (name ++ '(' :: (p ++ (w ++ ticks run))) run)
  | content {name p w t : Text} {width run : Nat} {opened : Bool} (hn : IsName name)
      (hp : ({} : Tracker).behind? p = some []) (hw : AllOf isGap w) (hwidth : minTicks ≤ width)
      (hlast : run ≠ 0 → t.getLast? = some tick) (hopen : opened = false → run = 0) :
      Held (.content (name ++ '(' :: (p ++ (w ++ (ticks minTicks ++ t)))) width run opened)

theorem held_textStep (sc : Scanner) (s : State) (lineStart : Bool) (c : Char) :
    Held (sc.textStep s lineStart c).state.mode := by
  unfold textStep
  split
  · next h =>
    have hc := (Bool.and_eq_true_iff.1 h).2
    exact .name ⟨hc, by simp [Literal.isNameChar_of_isNameStart hc]⟩
  · dsimp only
    split <;> exact .text _

theorem held_complete {held : Text} {c : Char} (h : (sc.complete s held c).fault? = none) :
    Held (sc.complete s held c).state.mode := by
  rw [complete] at h ⊢
  rw [Outcome.state_andThen (Outcome.fault?_andThen_eq_none_iff.1 h).1]
  exact held_textStep sc _ false c

theorem held_nameStep {held : Text} (hn : IsName held) (c : Char) :
    Held (sc.nameStep s held c).state.mode := by
  unfold nameStep
  split
  · next hc =>
    refine .name ⟨Text.startsWith_append_of_startsWith hn.start, ?_⟩
    rw [Text.allOf_append, Text.allOf_cons]
    exact ⟨hn.chars, hc, Text.allOf_nil⟩
  · split
    · next hc =>
      subst hc
      split
      · exact .call hn fun z => rfl
      · exact held_textStep sc _ false '('
    · exact held_textStep sc _ false c

theorem held_callStep {name p : Text} {k : Tracker} (hn : IsName name)
    (hp : ∀ z, ({} : Tracker).behind? (p ++ z) = k.behind? z) (c : Char) :
    Held (callStep s (name ++ '(' :: p) k c).state.mode := by
  have hnext := hp [c]
  have hsplit : name ++ '(' :: p ++ [c] = name ++ '(' :: (p ++ [c]) := by simp
  unfold callStep
  dsimp only
  split
  · next hclosed =>
    rw [Tracker.behind?, if_pos hclosed] at hnext
    have hheld : Held (.afterCall (name ++ '(' :: (p ++ [c] ++ ([] ++ ticks 0))) 0) :=
      .afterCall hn hnext Text.allOf_nil (by decide)
    simpa using hheld
  · next hopen =>
    have hheld : Held (.call (name ++ '(' :: (p ++ [c])) (k.step c)) := by
      refine .call hn fun z => ?_
      have hz := hp (c :: z)
      rw [Tracker.behind?, if_neg hopen] at hz
      rw [← hz]
      simp
    simpa using hheld

theorem held_afterCallStep {name p w : Text} {run : Nat} (hn : IsName name)
    (hp : ({} : Tracker).behind? p = some []) (hw : AllOf isGap w) (hr : run < minTicks) {c : Char}
    (h : (sc.afterCallStep s (name ++ '(' :: (p ++ (w ++ ticks run))) run c).fault? = none) :
    Held (sc.afterCallStep s (name ++ '(' :: (p ++ (w ++ ticks run))) run c).state.mode := by
  unfold afterCallStep at h ⊢
  split
  · next hc =>
    subst hc
    have hrow : ticks run ++ [tick] = ticks (run + 1) := List.replicate_succ'.symm
    dsimp only
    split
    · next hle =>
      have hthree : minTicks = run + 1 := by omega
      have hheld : Held (.content
          (name ++ '(' :: (p ++ (w ++ (ticks minTicks ++ [])))) (run + 1) 0 false) :=
        .content hn hp hw hle (fun hne => absurd rfl hne) fun _ => rfl
      rw [hthree, ← hrow] at hheld
      simpa using hheld
    · next hlt =>
      have hheld : Held (.afterCall (name ++ '(' :: (p ++ (w ++ ticks (run + 1)))) (run + 1)) :=
        .afterCall hn hp hw (by omega)
      simpa [← hrow] using hheld
  · next hc =>
    rw [if_neg hc] at h
    split
    · exact held_textStep sc _ false c
    · next hrun =>
      rw [if_neg hrun] at h
      split
      · next hgap =>
        obtain rfl : run = 0 := by simpa using hrun
        have hheld : Held (.afterCall (name ++ '(' :: (p ++ (w ++ [c] ++ ticks 0))) 0) := by
          refine .afterCall hn hp ?_ hr
          rw [Text.allOf_append, Text.allOf_cons]
          exact ⟨hw, hgap, Text.allOf_nil⟩
        simpa using hheld
      · next hgap =>
        rw [if_neg hgap] at h
        split
        · next hline =>
          rw [if_pos hline] at h
          exact held_complete h
        · exact held_textStep sc _ false c

theorem held_contentStep {name p w t : Text} {width run : Nat} {opened : Bool} (hn : IsName name)
    (hp : ({} : Tracker).behind? p = some []) (hw : AllOf isGap w) (hwidth : minTicks ≤ width)
    (hlast : run ≠ 0 → t.getLast? = some tick) (hopen : opened = false → run = 0) {c : Char}
    (h : (sc.contentStep s (name ++ '(' :: (p ++ (w ++ (ticks minTicks ++ t)))) width run opened
      c).fault? = none) :
    Held (sc.contentStep s (name ++ '(' :: (p ++ (w ++ (ticks minTicks ++ t)))) width run opened
      c).state.mode := by
  have hheld (width' run' : Nat) (opened' : Bool) (hwidth' : minTicks ≤ width')
      (hlast' : run' ≠ 0 → c = tick) (hopen' : opened' = false → run' = 0) :
      Held (.content (name ++ '(' :: (p ++ (w ++ (ticks minTicks ++ t))) ++ [c]) width' run'
        opened') := by
    have hnext : Held (.content (name ++ '(' :: (p ++ (w ++ (ticks minTicks ++ (t ++ [c])))))
        width' run' opened') := by
      refine .content hn hp hw hwidth' (fun hne => ?_) hopen'
      rw [List.getLast?_concat, hlast' hne]
    simpa using hnext
  unfold contentStep at h ⊢
  cases opened with
  | false =>
    have hrun : run = 0 := hopen rfl
    subst hrun
    simp only [Bool.not_false, if_true]
    split
    · exact hheld (width + 1) 0 false (by omega) (fun hne => absurd rfl hne) fun _ => rfl
    · exact hheld width 0 true hwidth (fun hne => absurd rfl hne) fun _ => rfl
  | true =>
    simp only [Bool.not_true, Bool.false_eq_true, if_false] at h ⊢
    split
    · next hc => exact hheld width (run + 1) true hwidth (fun _ => hc) nofun
    · next hc =>
      rw [if_neg hc] at h
      split
      · next hrun =>
        rw [if_pos hrun] at h
        exact held_complete h
      · exact hheld width 0 true hwidth (fun hne => absurd rfl hne) nofun

theorem held_step (hs : Held s.mode) {c : Char} (h : (sc.step s c).fault? = none) :
    Held (sc.step s c).state.mode := by
  unfold step at h ⊢
  generalize s.mode = m at hs h
  cases hs with
  | text lineStart => exact held_textStep sc s lineStart c
  | name hn => exact held_nameStep hn c
  | call hn hp => exact held_callStep hn hp c
  | afterCall hn hp hw hr => exact held_afterCallStep hn hp hw hr h
  | content hn hp hw hwidth hlast hopen => exact held_contentStep hn hp hw hwidth hlast hopen h

/-- What is held back in a run that meets no fault looks as it should. -/
theorem held_feed {t : Text} (h : (sc.feed {} t).fault? = none) :
    Held (sc.feed {} t).state.mode :=
  feed_invariant (fun s => Held s.mode) (fun _ _ hs hc => held_step hs hc) (.text true) h

/-! ## When a call is reported -/

/-- The moments at which what is held back is read, with what is left of the stream: at a line end,
at the first character behind a block, or at the end of the stream. -/
inductive Ending : Mode → (left : Text) → Prop where
  | line (held left : Text) : Ending (.afterCall held 0) ('\n' :: left)
  | block (held : Text) (width : Nat) {c : Char} (hc : c ≠ tick) (left : Text) :
      Ending (.content held width width true) (c :: left)
  | stream (m : Mode) : Ending m []

/-- Where what is held back ends before the stream does, the next step completes it. -/
theorem step_of_ending {c : Char} {left : Text} (h : Ending s.mode (c :: left)) :
    sc.step s c = sc.complete s s.pending c := by
  unfold step State.pending
  generalize s.mode = m at h
  cases h with
  | line held left => rfl
  | block held width hc left =>
    show sc.contentStep s held width width true c = _
    rw [contentStep, if_neg (by simp), if_neg hc, if_pos rfl]
    rfl

theorem tool_notMem_textEvents (c : Call) (t : Text) : Event.tool c ∉ textEvents t := by
  cases t <;> simp [textEvents]

theorem tool_notMem_textStep (sc : Scanner) (s : State) (lineStart : Bool) (ch : Char) (c : Call) :
    Event.tool c ∉ (sc.textStep s lineStart ch).events := by
  unfold textStep
  split
  · exact tool_notMem_textEvents c _
  · dsimp only
    split
    · exact tool_notMem_textEvents c _
    · exact List.not_mem_nil

/-- A call is not looked for among events that hold none. -/
theorem exists_of_append_eq {a b pre post : List Event} {c : Call} (ha : ∀ c, Event.tool c ∉ a)
    (h : a ++ b = pre ++ .tool c :: post) : ∃ u, pre = a ++ u ∧ b = u ++ .tool c :: post := by
  rcases List.append_eq_append_iff.1 h with ⟨u, hpre, hu⟩ | ⟨u, haeq, hu⟩
  · exact ⟨u, hpre, hu⟩
  · cases u with
    | nil => exact ⟨[], by simpa using haeq.symm, hu.symm⟩
    | cons e u =>
      rw [List.cons_append, List.cons.injEq] at hu
      have hmem : Event.tool c ∈ a := by simp [haeq, hu.1]
      exact absurd hmem (ha c)

/-- A call that is reported where a text is read is what the text reads as. -/
theorem tool_resolve {raw fallback : Text} (h : (sc.resolve s raw fallback).fault? = none)
    {tail pre post : List Event} {c : Call} (ht : ∀ c, Event.tool c ∉ tail)
    (he : (sc.resolve s raw fallback).events ++ tail = pre ++ .tool c :: post) :
    pre = textEvents s.buffer ∧ ∃ rest, Call.read false sc.read.dropTag raw = .found c rest := by
  obtain ⟨c', rest, hread, -, heq⟩ | ⟨rest, -, heq⟩ := resolve_cases h
  · rw [heq, List.append_assoc] at he
    obtain ⟨u, rfl, hu⟩ := exists_of_append_eq (fun c => tool_notMem_textEvents c _) he
    cases u with
    | nil =>
      simp only [List.cons_append, List.nil_append, List.cons.injEq, Event.tool.injEq] at hu
      exact ⟨List.append_nil _, rest, hu.1 ▸ hread⟩
    | cons e u =>
      simp only [List.cons_append, List.nil_append, List.cons.injEq] at hu
      have hmem : Event.tool c ∈ tail := by simp [hu.2]
      exact absurd hmem (ht c)
  · have hmem : Event.tool c ∈ pre ++ .tool c :: post := by simp
    rw [heq] at he
    simp [← he, ht c, tool_notMem_textEvents] at hmem

theorem tool_complete {held : Text} {ch : Char} (h : (sc.complete s held ch).fault? = none)
    {pre post : List Event} {c : Call}
    (he : (sc.complete s held ch).events = pre ++ .tool c :: post) :
    pre = textEvents s.buffer ∧ ∃ rest, Call.read false sc.read.dropTag held = .found c rest := by
  rw [complete] at h he
  have hresolve := (Outcome.fault?_andThen_eq_none_iff.1 h).1
  rw [Outcome.events_andThen hresolve] at he
  exact tool_resolve hresolve (fun c => tool_notMem_textStep sc _ false ch c) he

/-- Where a step reports a call, what was held back is read as that call. -/
theorem tool_step {ch : Char} (h : (sc.step s ch).fault? = none) {pre post : List Event} {c : Call}
    (he : (sc.step s ch).events = pre ++ .tool c :: post) (left : Text) :
    Ending s.mode (ch :: left) ∧ pre = textEvents s.buffer ∧
      ∃ rest, Call.read false sc.read.dropTag s.pending = .found c rest := by
  obtain ⟨a, ha, hstep⟩ := step_cases sc s ch
  rw [hstep] at h he
  have hmem : Event.tool c ∈ (sc.perform s ch a).events := by simp [he]
  unfold State.pending
  generalize s.mode = m at ha
  cases ha with
  | text lineStart => exact absurd hmem (tool_notMem_textStep sc s lineStart ch c)
  | name hc => cases hmem
  | @opening held hc hknown =>
    have hno : Event.tool c ∉ (if sc.status then [Event.status held] else []) := by
      split <;> simp
    exact absurd hmem hno
  | leaveName notes => exact absurd hmem (tool_notMem_textStep sc _ false ch c)
  | hold hm hnext hheld hline => cases hmem
  | leaveCall hc => exact absurd hmem (tool_notMem_textStep sc _ false ch c)
  | line hc =>
    subst hc
    exact ⟨.line _ left, tool_complete h he⟩
  | block hc => exact ⟨.block _ _ hc left, tool_complete h he⟩

theorem tool_settle (h : (sc.settle s).fault? = none) {tail pre post : List Event} {c : Call}
    (ht : ∀ c, Event.tool c ∉ tail)
    (he : (sc.settle s).events ++ tail = pre ++ .tool c :: post) :
    pre = textEvents s.buffer ∧
      ∃ rest, Call.read false sc.read.dropTag s.pending = .found c rest := by
  unfold settle at h he
  unfold State.pending
  cases hm : s.mode with
  | text lineStart =>
    rw [hm] at he
    have hmem : Event.tool c ∈ tail := by simp [show tail = _ from he]
    exact absurd hmem (ht c)
  | name held =>
    rw [hm] at he
    obtain ⟨u, -, hu⟩ := exists_of_append_eq (fun c => tool_notMem_textEvents c held) he
    have hmem : Event.tool c ∈ tail := by simp [hu]
    exact absurd hmem (ht c)
  | call held k =>
    rw [hm] at h he
    exact tool_resolve h ht he
  | afterCall held run =>
    rw [hm] at h he
    exact tool_resolve h ht he
  | content held width run opened =>
    rw [hm] at h he
    exact tool_resolve h ht he

theorem tool_finalize (h : (sc.finalize s).fault? = none) {pre post : List Event} {c : Call}
    (he : (sc.finalize s).events = pre ++ .tool c :: post) :
    pre = textEvents s.buffer ∧
      ∃ rest, Call.read false sc.read.dropTag s.pending = .found c rest := by
  obtain ⟨hsettle, -, hevents⟩ := finalize_of_no_fault h
  rw [hevents] at he
  obtain ⟨u, rfl, hu⟩ := exists_of_append_eq (fun c => tool_notMem_textEvents c _) he
  obtain ⟨rfl, hread⟩ := tool_settle hsettle (fun c => tool_notMem_textEvents c _) hu
  exact ⟨List.append_nil _, hread⟩

/-- The call `c` is reported behind the events `pre` when `u` has been fed and `left` is left of the
stream: what was held back then is read as the call and the text `rest` behind it. -/
structure Reported (sc : Scanner) (s : State) (u left : Text) (pre : List Event) (c : Call)
    (rest : Text) : Prop where
  fault : (sc.feed s u).fault? = none
  ending : Ending (sc.feed s u).state.mode left
  events : pre = (sc.feed s u).events ++ textEvents (sc.feed s u).state.buffer
  read : Call.read false sc.read.dropTag (sc.feed s u).state.pending = .found c rest

theorem Reported.cons {ch : Char} (hc : (sc.step s ch).fault? = none) {u left : Text}
    {pre : List Event} {c : Call} {rest : Text}
    (h : Reported sc (sc.step s ch).state u left pre c rest) :
    Reported sc s (ch :: u) left ((sc.step s ch).events ++ pre) c rest := by
  constructor
  · rw [feed_cons, Outcome.fault?_andThen_eq_none_iff]
    exact ⟨hc, h.fault⟩
  · rw [feed_cons, Outcome.state_andThen hc]
    exact h.ending
  · rw [feed_cons, Outcome.events_andThen hc, Outcome.state_andThen hc, h.events,
      List.append_assoc]
  · rw [feed_cons, Outcome.state_andThen hc]
    exact h.read

/-- Every call that a run reports is read from what was held back at some moment of the run. -/
theorem reported_of_feed {t : Text} (h : (sc.feed s t).fault? = none) {pre post : List Event}
    {c : Call} (he : (sc.feed s t).events = pre ++ .tool c :: post) :
    ∃ u left rest, t = u ++ left ∧ Reported sc s u left pre c rest := by
  induction t generalizing s pre with
  | nil => simp at he
  | cons ch t ih =>
    rw [feed_cons] at h he
    obtain ⟨hc, ht⟩ := Outcome.fault?_andThen_eq_none_iff.1 h
    rw [Outcome.events_andThen hc] at he
    -- the call is reported later on
    have later (pre' : List Event) (hpre : pre = (sc.step s ch).events ++ pre')
        (he' : (sc.feed (sc.step s ch).state t).events = pre' ++ .tool c :: post) :
        ∃ u left rest, ch :: t = u ++ left ∧ Reported sc s u left pre c rest := by
      obtain ⟨u, left, rest, rfl, hreported⟩ := ih ht he'
      rw [hpre]
      exact ⟨ch :: u, left, rest, rfl, hreported.cons hc⟩
    rcases List.append_eq_append_iff.1 he with ⟨pre', hpre, he'⟩ | ⟨v, hstep, hv⟩
    · exact later pre' hpre he'
    · cases v with
      | nil => exact later [] (by simpa using hstep.symm) hv.symm
      | cons e v =>
        rw [List.cons_append, List.cons.injEq] at hv
        rw [← hv.1] at hstep
        obtain ⟨hend, rfl, rest, hread⟩ := tool_step hc hstep t
        exact ⟨[], ch :: t, rest, rfl, rfl, hend, rfl, hread⟩

theorem reported_of_feedAll {chunks : List Text} (h : (sc.feedAll {} chunks).fault? = none)
    {pre post : List Event} {c : Call}
    (he : (sc.feedAll {} chunks).events = pre ++ .tool c :: post) :
    ∃ u left rest, chunks.flatten = u ++ left ∧ Reported sc {} u left pre c rest := by
  rw [feedAll_eq_andThen] at h he
  obtain ⟨hfeed, hend⟩ := Outcome.fault?_andThen_eq_none_iff.1 h
  rw [Outcome.events_andThen hfeed] at he
  -- the call is reported when the stream has ended
  have last (pre' : List Event) (hpre : pre = (sc.feed {} chunks.flatten).events ++ pre')
      (he' : (sc.finalize (sc.feed {} chunks.flatten).state).events = pre' ++ .tool c :: post) :
      ∃ u left rest, chunks.flatten = u ++ left ∧ Reported sc {} u left pre c rest := by
    obtain ⟨rfl, rest, hread⟩ := tool_finalize hend he'
    exact ⟨_, [], rest, (List.append_nil _).symm, hfeed, .stream _, hpre, hread⟩
  rcases List.append_eq_append_iff.1 he with ⟨pre', hpre, he'⟩ | ⟨v, hfeedEvents, hv⟩
  · exact last pre' hpre he'
  · cases v with
    | nil => exact last [] (by simpa using hfeedEvents.symm) hv.symm
    | cons e v =>
      rw [List.cons_append, List.cons.injEq] at hv
      rw [← hv.1] at hfeedEvents
      exact reported_of_feed hfeed hfeedEvents

/-! ## What stands behind a reported call -/

/-- A block that is left ends with a backtick. -/
theorem Held.getLast?_of_closed {held : Text} {width : Nat} {opened : Bool}
    (h : Held (.content held width width opened)) : held.getLast? = some tick := by
  cases h with
  | @content name p w t _ _ _ hn hp hw hwidth hlast hopen =>
    have hne : width ≠ 0 := by
      have : 3 ≤ width := hwidth
      omega
    obtain ⟨t', rfl⟩ := List.getLast?_eq_some_iff.1 (hlast hne)
    have hsplit : name ++ '(' :: (p ++ (w ++ (ticks minTicks ++ (t' ++ [tick])))) =
        (name ++ '(' :: (p ++ (w ++ (ticks minTicks ++ t')))) ++ [tick] := by simp
    rw [hsplit, List.getLast?_concat]

theorem Ending.startsWith_tick {m : Mode} {left : Text} (h : Ending m left) :
    startsWith (· == tick) left = false := by
  cases h with
  | line held left => rfl
  | block held width hc left => simpa using hc
  | stream m => rfl

/-- A call reads the same with the rest of the stream behind it. -/
theorem form_append {dropsTag : Bool} {m : Mode} {left : Text} (hm : Held m)
    (hend : Ending m left) {c : Call} {rest : Text} (hform : Call.Form dropsTag c rest)
    (hheld : m.held = c.raw ++ rest) : Call.Form dropsTag c (rest ++ left) := by
  have htick := hend.startsWith_tick
  cases hform with
  | @plain name raw rest as h hr =>
    refine .plain h ?_
    -- spaces and tabs behind the call do not go on into the rest of the stream
    have hskip : skipInline (rest ++ left) = skipInline rest ++ left := by
      cases hend with
      | line held left => exact Text.dropWhile_append_cons rfl rest left
      | stream m => rw [List.append_nil, List.append_nil]
      | @block held width ch hc left =>
        have hlast : (raw ++ rest).getLast? = some tick := by
          rw [← show held = raw ++ rest from hheld]
          exact hm.getLast?_of_closed
        have hrest : rest.getLast? = some tick := by
          rw [List.getLast?_append] at hlast
          cases hl : rest.getLast? with
          | none =>
            rw [hl, Option.none_or, h.getLast?] at hlast
            exact absurd hlast (by decide)
          | some d =>
            rw [hl, Option.some_or] at hlast
            exact hlast
        obtain ⟨v, rfl⟩ := List.getLast?_eq_some_iff.1 hrest
        have hinline : isInline tick = false := rfl
        have hleft := Text.dropWhile_append_cons hinline v (ch :: left)
        have hright := Text.dropWhile_append_cons hinline v []
        rw [List.append_assoc, skipInline, skipInline, hright, List.append_assoc]
        exact hleft
    rw [hskip, tickRun_append htick]
    exact hr
  | block h hg hf hr =>
    refine .block h hg hf ?_
    cases rest with
    | nil => exact htick
    | cons d t => exact hr

/-- Spaces and tabs do not matter for the end of a line. -/
theorem endsLine_inline {w : Text} (hw : AllOf isInline w) (t : Text) :
    endsLine (w ++ t) = endsLine t := by
  have hskip : skipInline (w ++ t) = skipInline t := List.dropWhile_append_of_pos hw
  rw [endsLine, endsLine, hskip]

/-- A gap is made of spaces and tabs, or the line ends in it. -/
theorem inline_or_endsLine {w : Text} (hw : AllOf isGap w) :
    AllOf isInline w ∨ ∀ t, endsLine (w ++ t) = true := by
  induction w with
  | nil => exact Or.inl Text.allOf_nil
  | cons c w ih =>
    obtain ⟨hc, hw⟩ := Text.allOf_cons.1 hw
    by_cases hinline : isInline c = true
    · rcases ih hw with hall | hends
      · exact Or.inl (Text.allOf_cons.2 ⟨hinline, hall⟩)
      · right
        intro t
        have hone : AllOf isInline [c] := Text.allOf_cons.2 ⟨hinline, Text.allOf_nil⟩
        rw [← hends t]
        exact endsLine_inline hone (w ++ t)
    · right
      intro t
      obtain rfl : c = '\r' := by simpa [isGap, hinline] using hc
      rfl

theorem endsLine_ticks (run : Nat) :
    endsLine (ticks run) = (run == 0 || decide (minTicks ≤ run)) := by
  cases run with
  | zero => rfl
  | succ run =>
    have hrun : tickRun (ticks (run + 1) ++ []) = run + 1 := tickRun_ticks_append rfl
    have hskip : skipInline (ticks (run + 1)) = tick :: ticks run := Text.dropWhile_eq_self rfl
    rw [List.append_nil, ticks_succ] at hrun
    rw [endsLine, hskip]
    show (_ || _ || decide (minTicks ≤ tickRun (tick :: ticks run))) = _
    rw [hrun]
    rfl

/-- The tracker finds the closing parenthesis of a call in a longer text that was held back. -/
theorem behind?_of_head {dropsTag : Bool} {name raw : Text} {as : List Call.Argument}
    (h : Call.Head (Spelled dropsTag maxNesting) name as raw) (hquotes : ¬ Tracker.tripled <:+: raw)
    {name' q rest : Text} (hn : IsName name') (heq : raw ++ rest = name' ++ '(' :: q) :
    ({} : Tracker).behind? q = some rest := by
  obtain ⟨rfl, u, hu, hraw⟩ := h.eq_of_append rest hn heq
  have hcalm : Tracker.calm 0 (u ++ [')']) = true :=
    Tracker.calm_of_part hquotes ⟨name ++ ['('], [], by simp [hraw]⟩
  have hq : q = u ++ ')' :: rest := by
    rw [hraw] at heq
    simpa using heq.symm
  rw [hq]
  exact Tracker.behind?_argumentList hu hcalm rest

/-- What was held back behind a call without a block is the gap and what stands behind the gap. -/
theorem exists_gap {dropsTag : Bool} {name raw : Text} {as : List Call.Argument}
    (h : Call.Head (Spelled dropsTag maxNesting) name as raw)
    (hquotes : ¬ Tracker.tripled <:+: raw) {m : Mode} (hm : Held m) {rest : Text}
    (hheld : m.held = raw ++ rest) :
    ∃ w, AllOf isGap w ∧
      ((∃ held run, m = .afterCall held run ∧ run < minTicks ∧ rest = w ++ ticks run) ∨
        ∃ t, rest = w ++ (ticks minTicks ++ t)) := by
  have hparen : ')' ∈ m.held := by
    rw [hheld]
    exact List.mem_append_left _ (List.mem_of_getLast? h.getLast?)
  cases hm with
  | text lineStart => cases hparen
  | name hn => exact absurd (hn.chars _ hparen) (by decide)
  | @call name' p k hn hp =>
    -- the call has not been closed
    have hbehind := behind?_of_head h hquotes hn hheld.symm
    have hnone := hp []
    rw [List.append_nil, hbehind] at hnone
    cases hnone
  | @afterCall name' p w run hn hp hw hrun =>
    have hbehind := behind?_of_head h hquotes hn hheld.symm
    rw [Tracker.behind?_append hp, Option.some.injEq, List.nil_append] at hbehind
    exact ⟨w, hw, Or.inl ⟨_, run, rfl, hrun, hbehind.symm⟩⟩
  | @content name' p w t width run opened hn hp hw hwidth hlast hopen =>
    have hbehind := behind?_of_head h hquotes hn hheld.symm
    rw [Tracker.behind?_append hp, Option.some.injEq, List.nil_append] at hbehind
    exact ⟨w, hw, Or.inr ⟨t, hbehind.symm⟩⟩

/-- If no three double quotes in a row stand in a call that ends with its closing parenthesis, its
line ends behind it, unless the stream ends there with one or two backticks. -/
theorem endsLine_eq_false_iff {dropsTag : Bool} {m : Mode} {left : Text} (hm : Held m)
    (hend : Ending m left) {c : Call} {rest : Text} (hform : Call.Form dropsTag c rest)
    (hheld : m.held = c.raw ++ rest) (hlast : c.raw.getLast? = some ')')
    (hquotes : ¬ Tracker.tripled <:+: c.raw) :
    endsLine (rest ++ left) = false ↔
      ∃ b n, AllOf isInline b ∧ (n = 1 ∨ n = 2) ∧ rest ++ left = b ++ ticks n := by
  constructor
  · intro hends
    cases hform with
    | block h hg hf hr =>
      rw [Call.getLast?_block hf] at hlast
      exact absurd hlast (by decide)
    | @plain name raw rest as h hr =>
      obtain ⟨w, hw, hrest⟩ := exists_gap h hquotes hm hheld
      rcases inline_or_endsLine hw with hinline | hall
      · rcases hrest with ⟨held, run, rfl, hrun, rfl⟩ | ⟨t, rfl⟩
        · cases hend with
          | line held left =>
            rw [ticks_zero, List.append_nil, endsLine_inline hinline] at hends
            cases hends
          | stream m =>
            rw [List.append_nil] at hends ⊢
            rw [endsLine_inline hinline, endsLine_ticks] at hends
            have hthree : run < 3 := hrun
            have hne : run ≠ 0 := by
              rintro rfl
              cases hends
            exact ⟨w, run, hinline, by omega, rfl⟩
        · -- the call would have a block
          have hskip : skipInline (w ++ (ticks minTicks ++ t)) = ticks minTicks ++ t :=
            Text.skipInline_run hinline rfl
          rw [hskip] at hr
          simp [tickRun, ticks, minTicks, List.replicate] at hr
          omega
      · rcases hrest with ⟨held, run, -, -, rfl⟩ | ⟨t, rfl⟩ <;>
        · rw [List.append_assoc, hall] at hends
          cases hends
  · rintro ⟨b, n, hb, hn, heq⟩
    rw [heq, endsLine_inline hb, endsLine_ticks]
    rcases hn with rfl | rfl <;> rfl

/-! ## Reported calls and the rest of the stream -/

/-- A call that is reported stands in the stream where the reports before it end, and is what the
whole rest of the stream reads as.  With the rule about the end of the line this fails just if
something else follows on the line behind the closing parenthesis.  Where no three double quotes in
a row stand in the call, that is just if the stream ends there with one or two backticks. -/
theorem feedAll_tool_sound (sc : Scanner) {chunks : List Text} {pre post : List Event} {c : Call}
    (hf : (sc.feedAll {} chunks).fault? = none)
    (he : (sc.feedAll {} chunks).events = pre ++ .tool c :: post) :
    ∃ behind, chunks.flatten = spelling pre ++ (c.raw ++ behind) ∧
      Call.parse? false sc.read (c.raw ++ behind) = .ok (some c) ∧
      Call.parse? true sc.read (c.raw ++ behind) =
        .ok (if c.raw.getLast? = some ')' ∧ endsLine behind = false then none else some c) ∧
      (¬ Tracker.tripled <:+: c.raw →
        (Call.parse? true sc.read (c.raw ++ behind) = .ok (some c) ↔
          ¬ (c.raw.getLast? = some ')' ∧
            ∃ b n, AllOf isInline b ∧ (n = 1 ∨ n = 2) ∧ behind = b ++ ticks n))) := by
  obtain ⟨u, left, rest, hchunks, hreported⟩ := reported_of_feedAll hf he
  obtain ⟨hform, hpending⟩ := Call.read_eq_found_iff.1 hreported.read
  have hheld := held_feed hreported.fault
  have hwhole := form_append hheld hreported.ending hform hpending
  have htrue : Call.parse? true sc.read (c.raw ++ (rest ++ left)) =
      .ok (if c.raw.getLast? = some ')' ∧ endsLine (rest ++ left) = false then none
        else some c) := by
    rw [Call.parse?, Call.read_true_of_form hwhole]
    split <;> rfl
  refine ⟨rest ++ left, ?_, ?_, htrue, fun hquotes => ?_⟩
  · have hspelling := (accountsFor_feed hreported.fault).spelling
    rw [State.unreported, hpending] at hspelling
    rw [hchunks, hreported.events]
    simp only [spelling_append, spelling_textEvents, List.append_assoc]
    rw [← List.append_assoc c.raw, ← List.append_assoc _ (c.raw ++ rest),
      ← List.append_assoc (spelling _), hspelling]
    rfl
  · rw [Call.parse?, Call.read_eq_found_iff.2 ⟨hwhole, rfl⟩]
    rfl
  · rw [htrue]
    by_cases hlast : c.raw.getLast? = some ')'
    · rw [← endsLine_eq_false_iff hheld hreported.ending hform hpending hlast hquotes]
      by_cases hends : endsLine (rest ++ left) = false
      · simp [hlast, hends]
      · simp [hlast, hends]
    · simp [hlast]

/-- A call behind a line of text and before a line end with blanks in front of it. -/
theorem feedAll_tool_sound_line :
    let sc : Scanner := { tools := ["f".toList] }
    let chunks := ["a\nf(".toList, ") \r\nb".toList]
    let c : Call := { name := "f".toList, raw := "f()".toList }
    (sc.feedAll {} chunks).fault? = none ∧
      (sc.feedAll {} chunks).events =
        [.text "a\n".toList] ++ .tool c :: [.text " \r\n".toList, .text "b".toList] ∧
      Call.parse? true sc.read "f() \r\nb".toList = .ok (some c) := by
  intro sc chunks c
  have hf : (sc.feedAll {} chunks).fault? = none := rfl
  have he : (sc.feedAll {} chunks).events =
      [.text "a\n".toList] ++ .tool c :: [.text " \r\n".toList, .text "b".toList] := rfl
  obtain ⟨behind, hsplit, -, htrue, -⟩ := feedAll_tool_sound sc hf he
  have hsplit' : "a\nf()".toList ++ " \r\nb".toList = "a\nf()".toList ++ behind := hsplit
  rw [← List.append_cancel_left hsplit'] at htrue
  exact ⟨hf, he, htrue⟩

/-- Whether the first event is a call. -/
def startsWithTool : List Event → Bool
  | .tool _ :: _ => true
  | _ => false

/-- One backtick behind the call at the end of the stream, and a closing parenthesis that is missed
behind three double quotes: in both streams a call is reported that does not end its line. -/
theorem feedAll_tool_without_line_end :
    let sc : Scanner := { tools := ["f".toList] }
    let stray := "f()\x60".toList
    let quotes := "f(\x22\x22\x22b\x22) x".toList
    (∃ c post, (sc.feedAll {} [stray]).fault? = none ∧
      (sc.feedAll {} [stray]).events = .tool c :: post ∧
      Call.parse? true sc.read stray = .ok none) ∧
    ∃ c post, (sc.feedAll {} [quotes]).fault? = none ∧
      (sc.feedAll {} [quotes]).events = .tool c :: post ∧
      Call.parse? true sc.read quotes = .ok none := by
  intro sc stray quotes
  have reported (x : Text)
      (h : (sc.feedAll {} [x]).fault? = none ∧ startsWithTool (sc.feedAll {} [x]).events = true ∧
        (Call.parse? true sc.read x).toOption.map Option.isSome = some false) :
      ∃ c post, (sc.feedAll {} [x]).fault? = none ∧
        (sc.feedAll {} [x]).events = .tool c :: post ∧ Call.parse? true sc.read x = .ok none := by
    obtain ⟨hf, he, hparse⟩ := h
    have hnone : Call.parse? true sc.read x = .ok none := by
      match hp : Call.parse? true sc.read x with
      | .error e => simp [hp, Except.toOption] at hparse
      | .ok (some c) => simp [hp, Except.toOption] at hparse
      | .ok none => rfl
    unfold startsWithTool at he
    split at he
    · next c post heq => exact ⟨c, post, hf, heq, hnone⟩
    · cases he
  exact ⟨reported stray (by decide +kernel), reported quotes (by decide +kernel)⟩

end ToolCalls.Scanner

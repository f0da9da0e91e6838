import ToolCalls.Proofs.Call.Grammar
import ToolCalls.Proofs.Scanner.Actions

/-!
# Nothing is lost in scanning

Every character of the stream is reported once and in order: in a text, in the source text of a
call, or not yet, in the plain text and the held-back text of the state.  `AccountsFor` says so of
what became of a state; each step accounts for one more character (`accountsFor_step`), hence each
run for all of its characters (`accountsFor_feed`).  Only a call that the stream breaks off in may
be replaced at the end, by the text that the options give for it (`exists_pieces` says which).
-/

namespace ToolCalls.Scanner

/-- The part of the stream that an event stands for. -/
def Event.spelling : Event → Text
  | .text t => t
  | .tool call => call.raw
  | .status _ => []

/-- The part of the stream that several events stand for. -/
def spelling (events : List Event) : Text := events.flatMap Event.spelling

@[simp] theorem spelling_nil : spelling [] = [] := rfl

@[simp] theorem spelling_append (events events' : List Event) :
    spelling (events ++ events') = spelling events ++ spelling events' := by
  simp [spelling]

@[simp] theorem spelling_cons (e : Event) (events : List Event) :
    spelling (e :: events) = e.spelling ++ spelling events := rfl

@[simp] theorem spelling_textEvents (t : Text) : spelling (textEvents t) = t := by
  cases t with
  | nil => rfl
  | cons c t => simp [textEvents, Event.spelling]

@[simp] theorem text_nil_notMem_textEvents (t : Text) : Event.text [] ∉ textEvents t := by
  cases t with
  | nil => simp [textEvents]
  | cons c t => simp [textEvents]

/-- The part of the stream that has not been reported. -/
def State.unreported (s : State) : Text := s.buffer ++ s.pending

/-- What was reported and what was not make up the text, and no empty text was reported. -/
structure Outcome.AccountsFor (o : Outcome) (t : Text) : Prop where
  spelling : spelling o.events ++ o.state.unreported = t
  nonempty : Event.text [] ∉ o.events

theorem Outcome.AccountsFor.andThen {o : Outcome} {next : State → Outcome} {t u : Text}
    (h : o.AccountsFor t) (hn : o.fault? = none)
    (h' : (next o.state).AccountsFor (o.state.unreported ++ u)) :
    (o.andThen next).AccountsFor (t ++ u) := by
  constructor
  · rw [Outcome.events_andThen hn, Outcome.state_andThen hn, spelling_append, List.append_assoc,
      h'.spelling, ← List.append_assoc, h.spelling]
  · rw [Outcome.events_andThen hn, List.mem_append, not_or]
    exact ⟨h.nonempty, h'.nonempty⟩

/-! ## One step -/

section Step

variable {sc : Scanner} {s : State}

theorem accountsFor_stay (s : State) : Outcome.AccountsFor { state := s } s.unreported :=
  ⟨rfl, by simp⟩

theorem accountsFor_flush (s : State) : s.flush.AccountsFor s.unreported := by
  constructor
  · rw [State.flush, spelling_textEvents]
    rfl
  · exact text_nil_notMem_textEvents _

theorem accountsFor_textStep (sc : Scanner) (s : State) (lineStart : Bool) (c : Char) :
    (sc.textStep s lineStart c).AccountsFor (s.buffer ++ [c]) := by
  unfold textStep
  split
  · exact accountsFor_flush { s with mode := .name [c] }
  · -- whether a call may begin here does not matter for what is unreported
    have hs (b : Bool) : ({ s.append [c] with mode := .text b } : State).unreported =
        s.buffer ++ [c] := List.append_nil _
    dsimp only
    split
    · rw [← hs]
      exact accountsFor_flush _
    · rw [← hs]
      exact accountsFor_stay _

theorem accountsFor_backToText (sc : Scanner) (s : State) (held : Text) (c : Char) :
    (sc.backToText s held c).AccountsFor (s.buffer ++ held ++ [c]) :=
  accountsFor_textStep sc (s.append held) false c

/-- What was held back and turns out to be no call is accounted for if it is passed on itself. -/
theorem accountsFor_resolve {held : Text} (h : (sc.resolve s held held).fault? = none) :
    (sc.resolve s held held).AccountsFor (s.buffer ++ held) := by
  obtain ⟨c, rest, hread, -, heq⟩ | ⟨rest, -, heq⟩ := resolve_cases h
  · have hraw := Call.raw_append_of_read hread
    rw [heq]
    constructor
    · simp [Event.spelling, State.unreported, State.pending, Mode.held, hraw]
    · simp
  · rw [heq]
    constructor
    · simp [State.unreported, State.pending, Mode.held]
    · simp

theorem accountsFor_complete {held : Text} {c : Char}
    (h : (sc.complete s held c).fault? = none) :
    (sc.complete s held c).AccountsFor (s.buffer ++ held ++ [c]) := by
  rw [complete] at h ⊢
  obtain ⟨hresolve, -⟩ := Outcome.fault?_andThen_eq_none_iff.1 h
  refine (accountsFor_resolve hresolve).andThen hresolve ?_
  have hheld : (sc.resolve s held held).state.pending = [] := by
    obtain ⟨c, rest, -, -, heq⟩ | ⟨rest, -, heq⟩ := resolve_cases hresolve <;> rw [heq] <;> rfl
  rw [State.unreported, hheld, List.append_nil]
  exact accountsFor_textStep sc _ false c

theorem accountsFor_hold (s : State) (mode : Mode) (held : Text) (c : Char)
    (hm : mode.held = held ++ [c]) :
    Outcome.AccountsFor { state := { s with mode := mode } } (s.buffer ++ held ++ [c]) := by
  have hs : ({ s with mode := mode } : State).unreported = s.buffer ++ held ++ [c] := by
    rw [State.unreported, State.pending, hm, List.append_assoc]
  rw [← hs]
  exact accountsFor_stay _

/-- Every step accounts for one more character. -/
theorem accountsFor_step {c : Char} (h : (sc.step s c).fault? = none) :
    (sc.step s c).AccountsFor (s.unreported ++ [c]) := by
  obtain ⟨a, ha, hstep⟩ := step_cases sc s c
  rw [hstep] at h ⊢
  unfold State.unreported State.pending
  generalize s.mode = m at ha
  -- the notes of a step account for nothing
  have hleave (held : Text) (notes : List Log.Entry) :
      (sc.perform s c (.leave held notes)).AccountsFor (s.buffer ++ held ++ [c]) := by
    have hback := accountsFor_backToText sc s held c
    exact ⟨hback.spelling, hback.nonempty⟩
  cases ha with
  | text lineStart =>
    rw [Mode.held, List.append_nil]
    exact accountsFor_textStep sc s lineStart c
  | name hc => exact accountsFor_hold s _ _ c rfl
  | @opening held hc hknown =>
    have hhold := accountsFor_hold s (.call (held ++ [c]) {}) held c rfl
    constructor
    · rw [Mode.held, ← hhold.spelling]
      cases hs : sc.status <;> simp [perform, hs, Event.spelling]
    · cases hs : sc.status <;> simp [perform, hs]
  | leaveName notes => exact hleave _ notes
  | hold hm hnext hheld hline => exact accountsFor_hold s _ _ c hheld
  | leaveCall hc => exact hleave _ []
  | line hc => exact accountsFor_complete h
  | block hc => exact accountsFor_complete h

end Step

/-! ## Runs -/

theorem accountsFor_feed {sc : Scanner} {s : State} {t : Text}
    (h : (sc.feed s t).fault? = none) : (sc.feed s t).AccountsFor (s.unreported ++ t) := by
  induction t generalizing s with
  | nil =>
    rw [List.append_nil]
    exact accountsFor_stay s
  | cons c t ih =>
    rw [feed_cons] at h ⊢
    obtain ⟨hc, ht⟩ := Outcome.fault?_andThen_eq_none_iff.1 h
    have hsplit : s.unreported ++ c :: t = s.unreported ++ [c] ++ t := by simp
    rw [hsplit]
    exact (accountsFor_step hc).andThen hc (ih ht)

/-! ## The end of the stream -/

/-- Whether a call has begun that neither its line nor its block has ended. -/
def Mode.insideCall : Mode → Bool
  | .call .. | .content .. => true
  | _ => false

/-- The stream would break off in a call here: what is held back is the beginning of one, and reads
as none. -/
def BreaksOff (sc : Scanner) (s : State) : Prop :=
  s.mode.insideCall = true ∧ Call.parse? false sc.read s.pending = .ok none

theorem spelling_resolve {sc : Scanner} {s : State} {raw fallback : Text}
    (h : (sc.resolve s raw fallback).fault? = none) (hb : s.buffer = [])
    (hp : Call.parse? false sc.read raw ≠ .ok none) :
    spelling (sc.resolve s raw fallback).events ++ (sc.resolve s raw fallback).state.buffer = raw ∧
      Event.text [] ∉ (sc.resolve s raw fallback).events := by
  obtain ⟨c, rest, hread, -, heq⟩ | ⟨rest, hread, -⟩ := resolve_cases h
  · have hraw := Call.raw_append_of_read hread
    rw [heq, hb]
    constructor
    · simp [textEvents, Event.spelling, hraw]
    · simp [textEvents]
  · rw [Call.parse?, hread] at hp
    exact absurd rfl hp

theorem events_resolve_of_none {sc : Scanner} {s : State} {raw fallback : Text}
    (hb : s.buffer = []) (hp : Call.parse? false sc.read raw = .ok none) :
    (sc.resolve s raw fallback).events = textEvents fallback ∧
      (sc.resolve s raw fallback).state.buffer = [] := by
  rw [Call.parse?] at hp
  cases hread : Call.read false sc.read.dropTag raw with
  | found c rest => simp [hread, Reading.result] at hp
  | fault e => simp [hread, Reading.result] at hp
  | absent rest =>
    rw [resolve, Outcome.events_andThen rfl, Outcome.state_andThen rfl, hread]
    simp [State.flush, textEvents, hb]

/-- What is held back when the stream ends is passed on as it is, or as a call and the text behind
it, unless the stream breaks off in a call. -/
theorem spelling_settle {sc : Scanner} {s : State} (h : (sc.settle s).fault? = none)
    (hb : s.buffer = []) (hbreak : ¬ BreaksOff sc s) :
    spelling (sc.settle s).events ++ (sc.settle s).state.buffer = s.pending ∧
      Event.text [] ∉ (sc.settle s).events := by
  unfold BreaksOff State.pending at hbreak
  unfold settle at h ⊢
  unfold State.pending
  cases hm : s.mode with
  | text lineStart => simp [hb, Mode.held]
  | name held => simp [hb, Mode.held]
  | call held k =>
    rw [hm] at h hbreak
    exact spelling_resolve h hb fun hp => hbreak ⟨rfl, hp⟩
  | content held width run opened =>
    rw [hm] at h hbreak
    exact spelling_resolve h hb fun hp => hbreak ⟨rfl, hp⟩
  | afterCall held run =>
    rw [hm] at h
    have hresolve := accountsFor_resolve h
    have hpending : (sc.resolve s held held).state.pending = [] := by
      obtain ⟨c, rest, -, -, heq⟩ | ⟨rest, -, heq⟩ := resolve_cases h <;> rw [heq] <;> rfl
    have hspelling := hresolve.spelling
    rw [State.unreported, hpending, List.append_nil, hb, List.nil_append] at hspelling
    exact ⟨hspelling, hresolve.nonempty⟩

/-- A call that the stream breaks off in is replaced by the text for it. -/
theorem events_settle_of_breaksOff {sc : Scanner} {s : State} (hb : s.buffer = [])
    (hbreak : BreaksOff sc s) :
    (sc.settle s).events = textEvents (sc.scan.incomplete s.pending) ∧
      (sc.settle s).state.buffer = [] := by
  obtain ⟨hmode, hp⟩ := hbreak
  unfold State.pending at hp ⊢
  unfold settle
  cases hm : s.mode with
  | text lineStart => simp [hm, Mode.insideCall] at hmode
  | name held => simp [hm, Mode.insideCall] at hmode
  | afterCall held run => simp [hm, Mode.insideCall] at hmode
  | call held k =>
    rw [hm] at hp
    exact events_resolve_of_none hb hp
  | content held width run opened =>
    rw [hm] at hp
    exact events_resolve_of_none hb hp

theorem spelling_finalize {sc : Scanner} {s : State} (h : (sc.finalize s).fault? = none)
    (hbreak : ¬ BreaksOff sc s) :
    spelling (sc.finalize s).events = s.unreported ∧ Event.text [] ∉ (sc.finalize s).events := by
  obtain ⟨hsettle, -, hevents⟩ := finalize_of_no_fault h
  obtain ⟨hspelling, hnonempty⟩ := spelling_settle hsettle rfl hbreak
  rw [hevents]
  constructor
  · simp only [spelling_append, spelling_textEvents, hspelling]
    rfl
  · simp [hnonempty]

theorem events_finalize_of_breaksOff {sc : Scanner} {s : State}
    (h : (sc.finalize s).fault? = none) (hbreak : BreaksOff sc s) :
    (sc.finalize s).events =
      textEvents s.buffer ++ textEvents (sc.scan.incomplete s.pending) := by
  obtain ⟨-, -, hevents⟩ := finalize_of_no_fault h
  obtain ⟨hsettle, hbuffer⟩ := events_settle_of_breaksOff (s := s.flush.state) rfl hbreak
  rw [hevents, hsettle, hbuffer]
  simp [textEvents, State.flush, State.pending]

/-! ## The text for a call that breaks off -/

/-- What is replaced by the call in the text for a call that breaks off. -/
def slot : Text := "\x7braw\x7d".toList

theorem fill_slot_append (raw t : Text) :
    ScanOptions.fill raw (slot ++ t) = raw ++ ScanOptions.fill raw t := rfl

/-- A text is cut at every slot in it, and filling puts the same text in at each cut. -/
theorem exists_pieces (marker : Text) :
    ∃ piece pieces, (∀ p ∈ piece :: pieces, ¬ slot <:+: p) ∧
      marker = slot.intercalate (piece :: pieces) ∧
      ∀ raw, ScanOptions.fill raw marker = raw.intercalate (piece :: pieces) := by
  induction marker using ScanOptions.fill.induct with
  | case1 t ih =>
    obtain ⟨piece, pieces, hp, ht, hfill⟩ := ih
    refine ⟨[], piece :: pieces, ?_, ?_, fun raw => ?_⟩
    · rintro p (_ | ⟨_, hmem⟩)
      · decide
      · exact hp p hmem
    · rw [List.intercalate_cons_cons, ← ht]
      rfl
    · rw [List.intercalate_cons_cons, ← hfill]
      exact fill_slot_append raw t
  | case2 c t hne ih =>
    obtain ⟨piece, pieces, hp, ht, hfill⟩ := ih
    refine ⟨c :: piece, pieces, ?_, ?_, fun raw => ?_⟩
    · rintro p (_ | ⟨_, hmem⟩)
      · intro hslot
        rcases List.infix_cons_iff.1 hslot with hfront | hpart
        · -- a slot at the front would have been cut off
          have hpre : piece <+: t := by
            rw [ht]
            cases pieces <;> simp [List.intercalate]
          obtain ⟨u, hu⟩ := hfront.trans (List.cons_prefix_cons.2 ⟨rfl, hpre⟩)
          cases hu
          exact hne u rfl rfl
        · exact hp piece List.mem_cons_self hpart
      · exact hp p (List.mem_cons_of_mem _ hmem)
    · rw [List.intercalate_cons_cons_left, ← ht]
    · rw [List.intercalate_cons_cons_left, ← hfill, ScanOptions.fill]
      exact hne
  | case3 => exact ⟨[], [], by decide, rfl, fun raw => rfl⟩

/-! ## The whole stream -/

/-- After every character of a stream, the texts and calls that were reported, the plain text and
the held-back text make up what has been fed, and when the stream has ended the reports alone do,
unless it broke off in a call: then the text for that call stands in its place. -/
theorem feedAll_lossless (sc : Scanner) (chunks : List Text) :
    (∀ fed, fed <+: chunks.flatten → (sc.feedChunks {} chunks).fault? = none →
      (sc.feed {} fed).fault? = none ∧
      spelling (sc.feed {} fed).events ++ (sc.feed {} fed).state.buffer ++
        (sc.feed {} fed).state.pending = fed ∧
      Event.text [] ∉ (sc.feed {} fed).events) ∧
    ((sc.feedAll {} chunks).fault? = none →
      (sc.feedAll {} chunks).state = {} ∧ Event.text [] ∉ (sc.feedAll {} chunks).events ∧
      (¬ BreaksOff sc (sc.feedChunks {} chunks).state →
        spelling (sc.feedAll {} chunks).events = chunks.flatten) ∧
      (BreaksOff sc (sc.feedChunks {} chunks).state →
        ∃ reported, (sc.feedAll {} chunks).events = reported ++
            textEvents (sc.scan.incomplete (sc.feedChunks {} chunks).state.pending) ∧
          spelling reported ++ (sc.feedChunks {} chunks).state.pending = chunks.flatten)) ∧
    ∃ piece pieces, (∀ p ∈ piece :: pieces, ¬ slot <:+: p) ∧
      sc.scan.marker = slot.intercalate (piece :: pieces) ∧
      ∀ raw, sc.scan.incomplete raw = raw.intercalate (piece :: pieces) := by
  rw [feedChunks_eq_feed]
  refine ⟨fun fed hfed h => ?_, fun h => ?_, exists_pieces sc.scan.marker⟩
  · obtain ⟨rest, hrest⟩ := hfed
    rw [← hrest] at h
    have hfault := (fault?_feed_append h).1
    have hfeed := accountsFor_feed hfault
    refine ⟨hfault, ?_, hfeed.nonempty⟩
    rw [List.append_assoc]
    exact hfeed.spelling
  · rw [feedAll_eq_andThen] at h ⊢
    obtain ⟨hfault, hend⟩ := Outcome.fault?_andThen_eq_none_iff.1 h
    have hfeed := accountsFor_feed hfault
    rw [Outcome.state_andThen hfault, Outcome.events_andThen hfault]
    refine ⟨(finalize_of_no_fault hend).2.1, ?_, fun hbreak => ?_, fun hbreak => ?_⟩
    · rw [List.mem_append, not_or]
      refine ⟨hfeed.nonempty, ?_⟩
      by_cases hbreak : BreaksOff sc (sc.feed {} chunks.flatten).state
      · rw [events_finalize_of_breaksOff hend hbreak]
        simp
      · exact (spelling_finalize hend hbreak).2
    · rw [spelling_append, (spelling_finalize hend hbreak).1]
      exact hfeed.spelling
    · rw [events_finalize_of_breaksOff hend hbreak, ← List.append_assoc]
      refine ⟨_, rfl, ?_⟩
      rw [spelling_append, spelling_textEvents, List.append_assoc]
      exact hfeed.spelling

/-- A stream that breaks off in its second call. -/
theorem feedAll_lossless_broken_off :
    let sc : Scanner := { tools := ["f".toList] }
    let chunks := ["a\nf(1".toList, ")\nf(".toList]
    (sc.feedChunks {} chunks).fault? = none ∧ (sc.feedAll {} chunks).fault? = none ∧
      BreaksOff sc (sc.feedChunks {} chunks).state ∧
      ∃ reported, (sc.feedAll {} chunks).events = reported ++
          textEvents (sc.scan.incomplete "f(".toList) ∧
        spelling reported ++ "f(".toList = chunks.flatten := by
  intro sc chunks
  have hfeed : (sc.feedChunks {} chunks).fault? = none := rfl
  have hall : (sc.feedAll {} chunks).fault? = none := rfl
  have hbreak : BreaksOff sc (sc.feedChunks {} chunks).state := ⟨rfl, rfl⟩
  obtain ⟨-, -, -, hend⟩ := (feedAll_lossless sc chunks).2.1 hall
  exact ⟨hfeed, hall, hbreak, hend hbreak⟩

end ToolCalls.Scanner

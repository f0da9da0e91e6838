import ToolCalls.Extract
import ToolCalls.Proofs.Scanner.Faults
import ToolCalls.Proofs.Scanner.Gating

/-!
# Scanners that find the same calls

When plain text is passed on, in which pieces, and whether beginnings of calls are reported makes no
difference to what a scanner finds.  Two scanners that look for the same calls (`Alike`) go through
the same modes, and their reports are the same once pieces of text that follow each other are put
together (`joined`).

The two hold back different parts of the plain text all along.  `Outcome.Passes` says what a step
does apart from that: what it adds to the plain text that was there before it, reported or not.
Each step adds the same for both scanners (`agrees_step`), hence so does every run and its end.
-/

namespace ToolCalls.Scanner

/-! ## Texts put together -/

/-- The events behind a text, which goes together with the first of them if that is a text too. -/
def joinText (t : Text) : List Event → List Event
  | .text u :: es => .text (t ++ u) :: es
  | es => .text t :: es

/-- The texts and calls among the events, texts that follow each other put together. -/
def joined : List Event → List Event
  | [] => []
  | .text t :: es => joinText t (joined es)
  | .tool c :: es => .tool c :: joined es
  | .status _ :: es => joined es

theorem joinText_joinText (t u : Text) (es : List Event) :
    joinText t (joinText u es) = joinText (t ++ u) es := by
  cases es with
  | nil => rfl
  | cons e es =>
    cases e with
    | text v => simp [joinText]
    | tool c => rfl
    | status name => rfl

theorem joined_joinText_append (t : Text) (ds es : List Event) :
    joined (joinText t ds ++ es) = joinText t (joined (ds ++ es)) := by
  cases ds with
  | nil => rfl
  | cons d ds =>
    cases d with
    | text u => exact (joinText_joinText t u _).symm
    | tool c => rfl
    | status name => rfl

theorem joined_joined_append (ds es : List Event) :
    joined (joined ds ++ es) = joined (ds ++ es) := by
  induction ds with
  | nil => rfl
  | cons d ds ih =>
    cases d with
    | text t =>
      rw [joined, joined_joinText_append, ih]
      rfl
    | tool c => exact congrArg (Event.tool c :: ·) ih
    | status name => exact ih

theorem joined_append_joined (ds es : List Event) :
    joined (ds ++ joined es) = joined (ds ++ es) := by
  induction ds with
  | nil =>
    have hidem := joined_joined_append es []
    rwa [List.append_nil, List.append_nil] at hidem
  | cons d ds ih =>
    cases d with
    | text t => exact congrArg (joinText t) ih
    | tool c => exact congrArg (Event.tool c :: ·) ih
    | status name => exact ih

theorem joined_append_congr {ds ds' es es' : List Event} (hd : joined ds = joined ds')
    (he : joined es = joined es') : joined (ds ++ es) = joined (ds' ++ es') := by
  rw [← joined_joined_append ds, ← joined_joined_append ds', hd, ← joined_append_joined _ es,
    ← joined_append_joined _ es', he]

theorem joined_textEvents_append (t u : Text) (es : List Event) :
    joined (textEvents (t ++ u) ++ es) = joined (textEvents t ++ (textEvents u ++ es)) := by
  cases t with
  | nil => rfl
  | cons c t =>
    cases u with
    | nil => rw [List.append_nil]; rfl
    | cons d u => exact (joinText_joinText (c :: t) (d :: u) _).symm

theorem callsOf_joined (es : List Event) :
    Extraction.callsOf (joined es) = Extraction.callsOf es := by
  have hjoin (t : Text) (ds : List Event) :
      Extraction.callsOf (joinText t ds) = Extraction.callsOf ds := by
    unfold joinText
    split <;> rfl
  induction es with
  | nil => rfl
  | cons e es ih =>
    cases e with
    | text t => exact (hjoin t _).trans ih
    | tool c => exact congrArg (c :: ·) ih
    | status name => exact ih

/-! ## What a step adds -/

/-- There is no fault, the mode is `m`, and the reports and the plain text that is left to report
are those of `t` and of `events` behind it. -/
structure Outcome.Passes (o : Outcome) (t : Text) (events : List Event) (m : Mode) : Prop where
  fault : o.fault? = none
  mode : o.state.mode = m
  reports : joined (o.events ++ textEvents o.state.buffer) = joined (textEvents t ++ events)

/-- The same is added to two plain texts. -/
def Outcome.Agrees (o o' : Outcome) (t t' : Text) : Prop :=
  ∃ events m, o.Passes t events m ∧ o'.Passes t' events m

namespace Outcome

variable {o o' : Outcome} {next next' : State → Outcome} {t t' : Text} {events events' : List Event}
  {m m' : Mode}

theorem Passes.andThen (h : o.Passes t events m)
    (h' : (next o.state).Passes o.state.buffer events' m') :
    (o.andThen next).Passes t (events ++ events') m' := by
  refine ⟨fault?_andThen_eq_none_iff.2 ⟨h.fault, h'.fault⟩, ?_, ?_⟩
  · rw [state_andThen h.fault, h'.mode]
  · rw [state_andThen h.fault, events_andThen h.fault]
    calc joined (o.events ++ (next o.state).events ++ textEvents (next o.state).state.buffer)
        = joined (o.events ++
            ((next o.state).events ++ textEvents (next o.state).state.buffer)) := by
          rw [List.append_assoc]
      _ = joined (o.events ++ (textEvents o.state.buffer ++ events')) :=
          joined_append_congr rfl h'.reports
      _ = joined (o.events ++ textEvents o.state.buffer ++ events') := by rw [List.append_assoc]
      _ = joined (textEvents t ++ events ++ events') := joined_append_congr h.reports rfl
      _ = joined (textEvents t ++ (events ++ events')) := by rw [List.append_assoc]

theorem Agrees.mode_eq (h : o.Agrees o' t t') : o.state.mode = o'.state.mode := by
  obtain ⟨events, m, ho, ho'⟩ := h
  rw [ho.mode, ho'.mode]

theorem Agrees.andThen (h : o.Agrees o' t t')
    (h' : (next o.state).Agrees (next' o'.state) o.state.buffer o'.state.buffer) :
    (o.andThen next).Agrees (o'.andThen next') t t' := by
  obtain ⟨events, m, ho, ho'⟩ := h
  obtain ⟨events', m', hn, hn'⟩ := h'
  exact ⟨events ++ events', m', ho.andThen hn, ho'.andThen hn'⟩

end Outcome

section Single

theorem passes_hold (s : State) (m : Mode) :
    Outcome.Passes { state := { s with mode := m } } s.buffer [] m :=
  ⟨rfl, rfl, by simp⟩

theorem passes_flush (s : State) (m : Mode) : ({ s with mode := m }.flush).Passes s.buffer [] m :=
  ⟨rfl, rfl, rfl⟩

/-- The end of the stream passes the plain text on. -/
theorem passes_end (s : State) :
    (s.flush.andThen fun _ => { state := {} }).Passes s.buffer [] (.text true) := by
  refine ⟨rfl, rfl, ?_⟩
  rw [Outcome.events_andThen rfl, Outcome.state_andThen rfl]
  exact congrArg joined (List.append_nil _)

/-- What a character of plain text adds depends on nothing but the beginning of the line. -/
theorem passes_textStep (lineStart : Bool) (c : Char) :
    ∃ events m, ∀ (sc : Scanner) (s : State),
      (sc.textStep s lineStart c).Passes s.buffer events m := by
  by_cases hname : (lineStart && Literal.isNameStart c) = true
  · refine ⟨[], .name [c], fun sc s => ?_⟩
    rw [textStep, if_pos hname]
    exact passes_flush s _
  · refine ⟨[.text [c]], .text (if lineStart && Text.isInline c then true else c == '\n'),
      fun sc s => ?_⟩
    have hadd : joined (textEvents (s.buffer ++ [c])) =
        joined (textEvents s.buffer ++ [.text [c]]) := by
      have happend := joined_textEvents_append s.buffer [c] []
      rwa [List.append_nil] at happend
    rw [textStep, if_neg hname]
    dsimp only
    split
    · refine ⟨rfl, rfl, ?_⟩
      rw [← hadd]
      exact congrArg joined (List.append_nil _)
    · exact ⟨rfl, rfl, hadd⟩

/-- A text that was held back is plain text again, and so is the character behind it. -/
theorem passes_backToText (held : Text) (c : Char) :
    ∃ events m, ∀ (sc : Scanner) (s : State),
      (sc.backToText s held c).Passes s.buffer events m := by
  obtain ⟨events, m, htext⟩ := passes_textStep false c
  refine ⟨textEvents held ++ events, m, fun sc s => ?_⟩
  obtain ⟨hfault, hmode, hreports⟩ := htext sc (s.append held)
  exact ⟨hfault, hmode, hreports.trans (joined_textEvents_append s.buffer held events)⟩

end Single

/-! ## Scanners that look for the same calls -/

/-- Two scanners look for calls of the same tools, read them in the same way and say the same of a
call that breaks off.  They may differ in when plain text is passed on, in whether beginnings of
calls are reported and in who receives the calls. -/
structure Alike (a b : Scanner) : Prop where
  tools : ∀ name, name ∈ a.tools ↔ name ∈ b.tools
  read : a.read = b.read
  marker : a.scan.marker = b.scan.marker

section Agreement

variable {a b : Scanner} {s s' : State}

theorem agrees_textStep (a b : Scanner) (s s' : State) (lineStart : Bool) (c : Char) :
    (a.textStep s lineStart c).Agrees (b.textStep s' lineStart c) s.buffer s'.buffer := by
  obtain ⟨events, m, h⟩ := passes_textStep lineStart c
  exact ⟨events, m, h a s, h b s'⟩

theorem agrees_flush (hm : s.mode = s'.mode) : s.flush.Agrees s'.flush s.buffer s'.buffer :=
  ⟨[], s'.mode, ⟨rfl, hm, rfl⟩, ⟨rfl, rfl, rfl⟩⟩

section Receiver

-- the second scanner's receiver takes every call, the first one's those that it gets
variable (h : a.Alike b) (hb : ∀ c, b.receive c = .ok ())

include h hb

theorem agrees_resolve {raw fallback : Text} (hf : (a.resolve s raw fallback).fault? = none) :
    (a.resolve s raw fallback).Agrees (b.resolve s' raw fallback) s.buffer s'.buffer := by
  obtain ⟨c, rest, hread, -, heq⟩ | ⟨rest, hread, heq⟩ := resolve_cases hf
  · rw [heq, resolve_of_found (h.read ▸ hread) (hb c)]
    exact ⟨.tool c :: textEvents rest, .text false, ⟨rfl, rfl, by simp⟩, ⟨rfl, rfl, by simp⟩⟩
  · rw [heq, resolve_of_absent (h.read ▸ hread)]
    exact ⟨textEvents fallback, .text false, ⟨rfl, rfl, congrArg joined (List.append_nil _)⟩,
      ⟨rfl, rfl, congrArg joined (List.append_nil _)⟩⟩

theorem agrees_complete {held : Text} {c : Char} (hf : (a.complete s held c).fault? = none) :
    (a.complete s held c).Agrees (b.complete s' held c) s.buffer s'.buffer := by
  rw [complete] at hf ⊢
  rw [complete]
  have hresolve := (Outcome.fault?_andThen_eq_none_iff.1 hf).1
  exact (agrees_resolve h hb hresolve).andThen (agrees_textStep a b _ _ false c)

/-- The same is done for both scanners. -/
theorem agrees_perform (c : Char) (action : Action)
    (hf : (a.perform s c action).fault? = none) :
    (a.perform s c action).Agrees (b.perform s' c action) s.buffer s'.buffer := by
  cases action with
  | text lineStart => exact agrees_textStep a b s s' lineStart c
  | hold next => exact ⟨[], next, passes_hold s next, passes_hold s' next⟩
  | opening name =>
    -- the report of a beginning is no text and no call
    have hbegin (sc : Scanner) (s : State) : (sc.perform s c (.opening name)).Passes s.buffer []
        (.call (name ++ [c]) {}) := by
      refine ⟨rfl, rfl, ?_⟩
      rw [List.append_nil, perform]
      cases sc.status <;> rfl
    exact ⟨[], _, hbegin a s, hbegin b s'⟩
  | leave held notes =>
    obtain ⟨events, m, hback⟩ := passes_backToText held c
    have hleave (sc : Scanner) (s : State) :
        (sc.perform s c (.leave held notes)).Passes s.buffer events m :=
      ⟨(hback sc s).fault, (hback sc s).mode, (hback sc s).reports⟩
    exact ⟨events, m, hleave a s, hleave b s'⟩
  | complete held => exact agrees_complete h hb hf

/-- A step from the same mode adds the same for both scanners. -/
theorem agrees_step (hm : s.mode = s'.mode) {c : Char} (hf : (a.step s c).fault? = none) :
    (a.step s c).Agrees (b.step s' c) s.buffer s'.buffer := by
  obtain ⟨action, -, hstep⟩ := exists_action b.tools c s.mode
  rw [hstep a s rfl h.tools] at hf ⊢
  rw [hstep b s' hm.symm fun _ => Iff.rfl]
  exact agrees_perform h hb c action hf

theorem agrees_feed (hm : s.mode = s'.mode) {t : Text} (hf : (a.feed s t).fault? = none) :
    (a.feed s t).Agrees (b.feed s' t) s.buffer s'.buffer := by
  induction t generalizing s s' with
  | nil => exact ⟨[], s'.mode, ⟨rfl, hm, by simp⟩, ⟨rfl, rfl, by simp⟩⟩
  | cons c t ih =>
    rw [feed_cons] at hf ⊢
    rw [feed_cons]
    obtain ⟨hc, ht⟩ := Outcome.fault?_andThen_eq_none_iff.1 hf
    have hstep := agrees_step h hb hm hc
    exact hstep.andThen (ih hstep.mode_eq ht)

theorem agrees_settle (hm : s.mode = s'.mode) (hs : s.buffer = []) (hs' : s'.buffer = [])
    (hf : (a.settle s).fault? = none) :
    (a.settle s).Agrees (b.settle s') s.buffer s'.buffer := by
  -- a call that breaks off is resolved with a note
  have hbroken (held : Text) (notes notes' : Log.Entry)
      (hresolve : (a.resolve s held (a.scan.incomplete held)).fault? = none) :
      Outcome.Agrees
        { a.resolve s held (a.scan.incomplete held) with
          notes := notes :: (a.resolve s held (a.scan.incomplete held)).notes }
        { b.resolve s' held (b.scan.incomplete held) with
          notes := notes' :: (b.resolve s' held (b.scan.incomplete held)).notes }
        s.buffer s'.buffer := by
    have hmarker : b.scan.incomplete held = a.scan.incomplete held := by
      rw [ScanOptions.incomplete, ScanOptions.incomplete, h.marker]
    rw [hmarker]
    have hagrees : (a.resolve s held (a.scan.incomplete held)).Agrees
        (b.resolve s' held (a.scan.incomplete held)) s.buffer s'.buffer :=
      agrees_resolve h hb hresolve
    obtain ⟨events, m, ho, ho'⟩ := hagrees
    exact ⟨events, m, ⟨ho.fault, ho.mode, ho.reports⟩, ⟨ho'.fault, ho'.mode, ho'.reports⟩⟩
  unfold settle at hf ⊢
  rw [← hm]
  cases hmode : s.mode with
  | text lineStart => exact ⟨[], s'.mode, ⟨rfl, hm, by simp⟩, ⟨rfl, rfl, by simp⟩⟩
  | name held =>
    refine ⟨textEvents held, s'.mode, ⟨rfl, hm, ?_⟩, ⟨rfl, rfl, ?_⟩⟩
    · rw [hs]
      exact congrArg joined (List.append_nil _)
    · rw [hs']
      exact congrArg joined (List.append_nil _)
  | afterCall held run =>
    rw [hmode] at hf
    exact agrees_resolve h hb hf
  | call held k =>
    rw [hmode] at hf
    exact hbroken held _ _ hf
  | content held width run opened =>
    rw [hmode] at hf
    exact hbroken held _ _ hf

theorem agrees_finalize (hm : s.mode = s'.mode) (hf : (a.finalize s).fault? = none) :
    (a.finalize s).Agrees (b.finalize s') s.buffer s'.buffer := by
  rw [finalize] at hf ⊢
  rw [finalize]
  have hflush := agrees_flush hm
  obtain ⟨hboth, -⟩ := Outcome.fault?_andThen_eq_none_iff.1 hf
  obtain ⟨-, hsettle⟩ := Outcome.fault?_andThen_eq_none_iff.1 hboth
  refine (hflush.andThen (agrees_settle h hb hflush.mode_eq rfl rfl hsettle)).andThen ?_
  exact ⟨[], .text true, passes_end _, passes_end _⟩

/-- Two scanners that look for the same calls find the same in a stream, however it is cut. -/
theorem agrees_feedAll {chunks chunks' : List Text} (hx : chunks.flatten = chunks'.flatten)
    (hf : (a.feedAll {} chunks).fault? = none) :
    (b.feedAll {} chunks').fault? = none ∧
      joined (a.feedAll {} chunks).events = joined (b.feedAll {} chunks').events := by
  rw [feedAll_eq_andThen] at hf ⊢
  rw [feedAll_eq_andThen, ← hx]
  obtain ⟨hfeed, hend⟩ := Outcome.fault?_andThen_eq_none_iff.1 hf
  have hagrees : (a.feed {} chunks.flatten).Agrees (b.feed {} chunks.flatten) [] [] :=
    agrees_feed h hb rfl hfeed
  obtain ⟨events, m, ho, ho'⟩ := hagrees.andThen (agrees_finalize h hb hagrees.mode_eq hend)
  -- at the end nothing is left to report
  have hreports (sc : Scanner)
      (ho : ((sc.feed {} chunks.flatten).andThen sc.finalize).Passes [] events m) :
      joined ((sc.feed {} chunks.flatten).andThen sc.finalize).events = joined events := by
    obtain ⟨hfeed, hend⟩ := Outcome.fault?_andThen_eq_none_iff.1 ho.fault
    have hreports := ho.reports
    rw [Outcome.state_andThen hfeed, (finalize_of_no_fault hend).2.1] at hreports
    exact (congrArg joined (List.append_nil _)).symm.trans hreports
  exact ⟨ho'.fault, (hreports a ho).trans (hreports b ho').symm⟩

end Receiver

/-! ## Messages -/

/-- A scanner that knows no tools reports no calls. -/
theorem callsOf_feedAll_of_no_tools {sc : Scanner} (ht : sc.tools = []) {chunks : List Text}
    (hf : (sc.feedAll {} chunks).fault? = none) :
    Extraction.callsOf (sc.feedAll {} chunks).events = [] := by
  rw [Extraction.callsOf, List.filterMap_eq_nil_iff]
  intro e he
  cases e with
  | text t => rfl
  | status name => rfl
  | tool c =>
    obtain ⟨pre, post, hsplit⟩ := List.append_of_mem he
    obtain ⟨u, left, rest, -, hreported⟩ := reported_of_feedAll hf hsplit
    have hknown := (anchored_of_reported hreported).known
    rw [ht] at hknown
    cases hknown

/-- The calls in a message are those that a scanner for the same calls reports. -/
theorem calls_extract (h : a.Alike b) {chunks : List Text}
    (hf : (a.feedAll {} chunks).fault? = none) :
    (extract b.tools b.scan b.read (.string chunks.flatten)).calls =
      .ok (Extraction.callsOf (a.feedAll {} chunks).events) := by
  by_cases hempty : b.tools.isEmpty = true
  · have ht : a.tools = [] := by
      rw [List.eq_nil_iff_forall_not_mem]
      intro name hname
      rw [h.tools, List.isEmpty_iff.1 hempty] at hname
      cases hname
    rw [callsOf_feedAll_of_no_tools ht hf, extract, if_pos hempty]
  · let p : Scanner := { tools := b.tools, scan := b.scan, read := b.read }
    have hp : a.Alike p := ⟨h.tools, h.read, h.marker⟩
    have hx : chunks.flatten = [chunks.flatten].flatten := (List.flatten_singleton).symm
    obtain ⟨hfault, hjoined⟩ := agrees_feedAll hp (fun _ => rfl) hx hf
    have hcalls := congrArg Extraction.callsOf hjoined
    rw [callsOf_joined, callsOf_joined] at hcalls
    rw [extract, if_neg hempty]
    dsimp only
    rw [hfault, hcalls]

end Agreement

/-- What two scanners for the same calls report of a stream is the same, texts that follow each
other put together and beginnings of calls left out, however the stream is cut and whenever plain
text is passed on.  Their modes, and with them what they hold back, are the same after every part of
the stream.  The calls they report are those that are found in the stream as a message, whatever
messages came before it. -/
theorem feedAll_independent {a b : Scanner} (h : a.Alike b) {chunks chunks' : List Text}
    (hx : chunks.flatten = chunks'.flatten) (ha : (a.feedAll {} chunks).fault? = none)
    (hb : (b.feedAll {} chunks').fault? = none) :
    joined (a.feedAll {} chunks).events = joined (b.feedAll {} chunks').events ∧
    (∀ cut cut' : List Text, cut.flatten = cut'.flatten → cut.flatten <+: chunks.flatten →
      (a.feedChunks {} cut).state.mode = (b.feedChunks {} cut').state.mode ∧
        (a.feedChunks {} cut).state.pending = (b.feedChunks {} cut').state.pending) ∧
    ∀ earlier : List Datum,
      ((earlier ++ [Datum.string chunks.flatten]).map (extract b.tools b.scan b.read)).getLast?.map
        Extraction.calls = some (.ok (Extraction.callsOf (a.feedAll {} chunks).events)) := by
  -- both agree with the scanner of messages, which takes every call
  let p : Scanner := { tools := b.tools, scan := b.scan, read := b.read }
  have hap : a.Alike p := ⟨h.tools, h.read, h.marker⟩
  have hbp : b.Alike p := ⟨fun _ => Iff.rfl, rfl, rfl⟩
  have hp (c : Call) : p.receive c = .ok () := rfl
  refine ⟨?_, fun cut cut' hcut hpart => ?_, fun earlier => ?_⟩
  · rw [(agrees_feedAll hap hp hx ha).2, (agrees_feedAll hbp hp rfl hb).2]
  · have hmode {sc : Scanner} (hsc : sc.Alike p) {cs : List Text}
        (hf : (sc.feedAll {} cs).fault? = none) {u : Text} (hu : u <+: cs.flatten) :
        (sc.feed {} u).state.mode = (p.feed {} u).state.mode := by
      obtain ⟨rest, hrest⟩ := hu
      rw [feedAll_eq_andThen, ← hrest] at hf
      have hfeed := (fault?_feed_append (Outcome.fault?_andThen_eq_none_iff.1 hf).1).1
      have hagrees : (sc.feed {} u).Agrees (p.feed {} u) [] [] := agrees_feed hsc hp rfl hfeed
      exact hagrees.mode_eq
    have hmodes : (a.feedChunks {} cut).state.mode = (b.feedChunks {} cut').state.mode := by
      rw [feedChunks_eq_feed, feedChunks_eq_feed, ← hcut, hmode hap ha hpart,
        hmode hbp hb (hx ▸ hpart)]
    exact ⟨hmodes, congrArg Mode.held hmodes⟩
  · rw [List.map_append, List.map_singleton, List.getLast?_concat, Option.map_some,
      calls_extract h ha]

/-- A rejected call and a call with a tail, cut in two ways, with a small and a large buffer, and
with and without reports of beginnings. -/
theorem feedAll_independent_pieces :
    let a : Scanner := { tools := ["f".toList], scan := { flushThreshold := 1 }, status := true }
    let b : Scanner := { tools := ["f".toList] }
    let chunks := ["to f(\n".toList, [], "f(,)\nf() ".toList, "\n".toList]
    let chunks' := ["to".toList, " f(\nf(,)\nf() \n".toList]
    a.Alike b ∧ chunks.flatten = chunks'.flatten ∧ (a.feedAll {} chunks).fault? = none ∧
      (b.feedAll {} chunks').fault? = none ∧
      joined (a.feedAll {} chunks).events = joined (b.feedAll {} chunks').events ∧
      (Extraction.callsOf (a.feedAll {} chunks).events).length = 1 ∧
      (extract b.tools b.scan b.read (.string chunks.flatten)).calls =
        .ok (Extraction.callsOf (a.feedAll {} chunks).events) := by
  intro a b chunks chunks'
  have h : a.Alike b := ⟨fun _ => Iff.rfl, rfl, rfl⟩
  have ha : (a.feedAll {} chunks).fault? = none := by decide +kernel
  have hb : (b.feedAll {} chunks').fault? = none := by decide +kernel
  have hx : chunks.flatten = chunks'.flatten := rfl
  have hcalls := (feedAll_independent h hx ha hb).2.2 []
  exact ⟨h, hx, ha, hb, (feedAll_independent h hx ha hb).1, by decide +kernel,
    Option.some.inj hcalls⟩

end ToolCalls.Scanner

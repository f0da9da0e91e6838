import ToolCalls.Extract
import ToolCalls.Proofs.Call.LineEnds
import ToolCalls.Proofs.Scanner.Gating

/-!
# The end of the stream and the end of a line

What is held back when the stream ends is read as it is.  If a line end comes first, what is held
back is read at the line end or with it, and a line end behind a text changes nothing about the call
in it.  So a stream reports the same calls with a line end behind it and without one.

There is one exception: one or two backticks behind a call, where the stream ends.  The end of the
stream overlooks them and the call is reported.  A line end shows that no block begins there, and
the call is passed on as text.  `strayCall?` is the call that is reported for this reason alone.
-/

namespace ToolCalls.Scanner

open Extraction (callsOf)

variable {sc : Scanner} {s : State} {calls : List Call}

/-! ## Reported calls -/

/-- There is no fault, and the given calls are reported. -/
structure Outcome.ReportsCalls (o : Outcome) (calls : List Call) : Prop where
  fault : o.fault? = none
  calls : callsOf o.events = calls

theorem callsOf_append (ds es : List Event) : callsOf (ds ++ es) = callsOf ds ++ callsOf es :=
  List.filterMap_append

theorem callsOf_textEvents (t : Text) : callsOf (textEvents t) = [] := by
  cases t <;> rfl

theorem Outcome.ReportsCalls.andThen {o : Outcome} {next : State → Outcome} {calls' : List Call}
    (h : o.ReportsCalls calls) (h' : (next o.state).ReportsCalls calls') :
    (o.andThen next).ReportsCalls (calls ++ calls') := by
  refine ⟨Outcome.fault?_andThen_eq_none_iff.2 ⟨h.fault, h'.fault⟩, ?_⟩
  rw [Outcome.events_andThen h.fault, callsOf_append, h.calls, h'.calls]

/-- The call in a text that was held back, if the text can be read and the call is received. -/
def Takes (sc : Scanner) (raw : Text) (call? : Option Call) : Prop :=
  Call.parse? false sc.read raw = .ok call? ∧ ∀ c ∈ call?, sc.receive c = .ok ()

theorem takes_append_newline {raw : Text} {call? : Option Call} :
    sc.Takes (raw ++ ['\n']) call? ↔ sc.Takes raw call? := by
  rw [Takes, Takes, Call.parse?_append_newline]

/-- Reading what was held back reports the call in it. -/
theorem resolve_reportsCalls_iff {raw fallback : Text} :
    (sc.resolve s raw fallback).ReportsCalls calls ↔
      ∃ call?, sc.Takes raw call? ∧ call?.toList = calls := by
  constructor
  · rintro ⟨hf, rfl⟩
    obtain ⟨c, rest, hread, hc, heq⟩ | ⟨rest, hread, heq⟩ := resolve_cases hf
    · refine ⟨some c, ⟨by rw [Call.parse?, hread]; rfl, by simpa using hc⟩, ?_⟩
      rw [heq, callsOf_append, callsOf_textEvents]
      rfl
    · refine ⟨none, ⟨by rw [Call.parse?, hread]; rfl, by simp⟩, ?_⟩
      rw [heq, callsOf_append, callsOf_textEvents, callsOf_textEvents]
      rfl
  · rintro ⟨call?, ⟨hparse, hc⟩, rfl⟩
    rw [Call.parse?] at hparse
    cases hread : Call.read false sc.read.dropTag raw with
    | found c rest =>
      rw [hread] at hparse
      obtain rfl : some c = call? := Except.ok.inj hparse
      rw [resolve_of_found hread (hc c rfl)]
      exact ⟨rfl, by rw [callsOf_append, callsOf_textEvents]; rfl⟩
    | absent rest =>
      rw [hread] at hparse
      obtain rfl : none = call? := Except.ok.inj hparse
      rw [resolve_of_absent hread]
      exact ⟨rfl, by rw [callsOf_append, callsOf_textEvents, callsOf_textEvents]; rfl⟩
    | fault o =>
      rw [hread] at hparse
      cases hparse

theorem settle_reportsCalls_iff (hm : Held s.mode) :
    (sc.settle s).ReportsCalls calls ↔
      ∃ call?, sc.Takes s.pending call? ∧ call?.toList = calls := by
  -- plain text and a name alone are no calls
  have none_iff {raw : Text} (hraw : Call.parse? false sc.read raw = .ok none) {o : Outcome}
      (ho : o.ReportsCalls []) :
      o.ReportsCalls calls ↔ ∃ call?, sc.Takes raw call? ∧ call?.toList = calls := by
    constructor
    · rintro ⟨-, rfl⟩
      exact ⟨none, ⟨hraw, by simp⟩, ho.calls.symm⟩
    · rintro ⟨call?, ⟨hparse, -⟩, rfl⟩
      obtain rfl : none = call? := Except.ok.inj (hraw.symm.trans hparse)
      exact ho
  unfold settle State.pending
  cases hmode : s.mode with
  | text lineStart => exact none_iff rfl ⟨rfl, rfl⟩
  | name held =>
    rw [hmode] at hm
    cases hm with
    | name hn =>
      exact none_iff (Call.parse?_name false sc.read hn) ⟨rfl, callsOf_textEvents held⟩
  | afterCall held run => exact resolve_reportsCalls_iff
  | call held k =>
    rw [Mode.held, ← resolve_reportsCalls_iff]
    exact ⟨fun h => ⟨h.fault, h.calls⟩, fun h => ⟨h.fault, h.calls⟩⟩
  | content held width run opened =>
    rw [Mode.held, ← resolve_reportsCalls_iff]
    exact ⟨fun h => ⟨h.fault, h.calls⟩, fun h => ⟨h.fault, h.calls⟩⟩

/-- The end of the stream reports the call in what is held back. -/
theorem finalize_reportsCalls_iff (hm : Held s.mode) :
    (sc.finalize s).ReportsCalls calls ↔
      ∃ call?, sc.Takes s.pending call? ∧ call?.toList = calls := by
  have hcalls (hf : (sc.finalize s).fault? = none) :
      callsOf (sc.finalize s).events = callsOf (sc.settle s.flush.state).events := by
    rw [(finalize_of_no_fault hf).2.2, callsOf_append, callsOf_append, callsOf_textEvents,
      callsOf_textEvents, List.nil_append, List.append_nil]
  have hsettle : (sc.settle s.flush.state).ReportsCalls calls ↔
      ∃ call?, sc.Takes s.pending call? ∧ call?.toList = calls :=
    settle_reportsCalls_iff (s := s.flush.state) hm
  rw [← hsettle]
  constructor
  · rintro ⟨hf, hc⟩
    exact ⟨(finalize_of_no_fault hf).1, (hcalls hf).symm.trans hc⟩
  · rintro ⟨hf, hc⟩
    have hfinal : (sc.finalize s).fault? = none := by
      rw [finalize, Outcome.fault?_andThen_eq_none_iff, Outcome.fault?_andThen_eq_none_iff]
      exact ⟨⟨rfl, hf⟩, rfl⟩
    exact ⟨hfinal, (hcalls hfinal).trans hc⟩

/-! ## A line end before the end of the stream -/

theorem textStep_newline_reportsCalls (sc : Scanner) (s : State) (lineStart : Bool) :
    (sc.textStep s lineStart '\n').ReportsCalls [] := by
  rw [textStep_newline]
  exact ⟨rfl, rfl⟩

theorem complete_newline_reportsCalls {held : Text} {call? : Option Call}
    (h : sc.Takes held call?) : (sc.complete s held '\n').ReportsCalls call?.toList := by
  have hresolve : (sc.resolve s held held).ReportsCalls call?.toList :=
    resolve_reportsCalls_iff.2 ⟨call?, h, rfl⟩
  have hcomplete : (sc.complete s held '\n').ReportsCalls (call?.toList ++ []) :=
    hresolve.andThen (textStep_newline_reportsCalls sc _ false)
  rwa [List.append_nil] at hcomplete

/-- Nothing is held back at first. -/
theorem andThen_finalize_reportsCalls {o : Outcome} (h : o.ReportsCalls calls)
    (hstate : o.state = {}) : (o.andThen sc.finalize).ReportsCalls calls := by
  have hnone : (sc.finalize {}).ReportsCalls [] := ⟨rfl, rfl⟩
  have hboth : (o.andThen sc.finalize).ReportsCalls (calls ++ []) := h.andThen (hstate ▸ hnone)
  rwa [List.append_nil] at hboth

/-- The call that is reported although the stream ends with backticks behind it. -/
def strayCall? (sc : Scanner) : Mode → Option Call
  | .afterCall held (_ + 1) =>
    match Call.parse? false sc.read held with
    | .ok call? => call?
    | .error _ => none
  | _ => none

/-- A line end is held back with the rest, or it completes what is held back, or all is plain text
and a call in it is lost. -/
theorem step_newline_cases (sc : Scanner) (hm : Held s.mode) :
    (∃ m, m.held = s.pending ++ ['\n'] ∧ sc.step s '\n' = { state := { s with mode := m } } ∧
      sc.strayCall? s.mode = none) ∨
    (sc.step s '\n' = sc.complete s s.pending '\n' ∧ sc.strayCall? s.mode = none) ∨
    ((sc.step s '\n').ReportsCalls [] ∧ (sc.step s '\n').state = {} ∧
      ∀ call?, sc.Takes s.pending call? → sc.strayCall? s.mode = call?) := by
  obtain ⟨a, ha, hstep⟩ := step_cases sc s '\n'
  rw [hstep]
  unfold State.pending
  generalize s.mode = m at ha hm
  have hleave (held : Text) (notes : List Log.Entry) :
      (sc.perform s '\n' (.leave held notes)).ReportsCalls [] := by
    have hback : (sc.backToText s held '\n').ReportsCalls [] :=
      textStep_newline_reportsCalls sc _ false
    exact ⟨hback.fault, hback.calls⟩
  cases ha with
  | text lineStart =>
    right; right
    refine ⟨textStep_newline_reportsCalls sc s lineStart, ?_, fun call? h => Except.ok.inj h.1⟩
    exact congrArg Outcome.state (textStep_newline sc s lineStart)
  | name hc => exact absurd hc (by decide)
  | opening hc hknown => exact absurd hc (by decide)
  | @leaveName held notes =>
    right; right
    refine ⟨hleave held notes, backToText_newline sc s held, fun call? h => ?_⟩
    cases hm with
    | name hn => exact Except.ok.inj ((Call.parse?_name false sc.read hn).symm.trans h.1)
  | @hold m next hbegun hnext hheld hline =>
    have hstray : sc.strayCall? m = none := by
      unfold strayCall?
      split
      · exact absurd rfl (hline rfl _ _)
      · rfl
    exact Or.inl ⟨next, hheld, rfl, hstray⟩
  | @leaveCall held run hc =>
    right; right
    refine ⟨hleave held [], backToText_newline sc s held, fun call? h => ?_⟩
    obtain ⟨n, rfl⟩ := Nat.exists_eq_succ_of_ne_zero (hc.resolve_right fun hne => hne rfl)
    have hparse : Call.parse? false sc.read held = .ok call? := h.1
    rw [strayCall?, hparse]
  | line hc => exact Or.inr (Or.inl ⟨rfl, rfl⟩)
  | block hc => exact Or.inr (Or.inl ⟨rfl, rfl⟩)

/-- A line end before the end of the stream makes a difference to stray backticks only. -/
theorem newline_finalize_reportsCalls (hm : Held s.mode) (h : (sc.finalize s).ReportsCalls calls) :
    ∃ calls', ((sc.step s '\n').andThen sc.finalize).ReportsCalls calls' ∧
      calls = calls' ++ (sc.strayCall? s.mode).toList := by
  obtain ⟨call?, htakes, rfl⟩ := (finalize_reportsCalls_iff hm).1 h
  obtain ⟨m, hheld, hstep, hstray⟩ | ⟨hstep, hstray⟩ | ⟨hnone, hstate, hstray⟩ :=
    step_newline_cases sc hm
  · have hm' : Held (sc.step s '\n').state.mode := held_step hm (by rw [hstep])
    rw [hstep] at hm'
    refine ⟨call?.toList, ?_, by rw [hstray]; exact (List.append_nil _).symm⟩
    rw [hstep, Outcome.andThen_state, finalize_reportsCalls_iff hm', State.pending, hheld]
    exact ⟨call?, takes_append_newline.2 htakes, rfl⟩
  · have hcomplete := complete_newline_reportsCalls (s := s) htakes
    refine ⟨call?.toList, ?_, by rw [hstray]; exact (List.append_nil _).symm⟩
    rw [hstep]
    exact andThen_finalize_reportsCalls hcomplete (complete_newline hcomplete.fault)
  · refine ⟨[], andThen_finalize_reportsCalls hnone hstate, ?_⟩
    rw [hstray call? htakes]
    rfl

/-- Behind a stray call stand one or two backticks and nothing else. -/
theorem Held.ticks_of_strayCall? {m : Mode} (hm : Held m) {c : Call}
    (h : sc.strayCall? m = some c) :
    ∃ u run, u ≠ [] ∧ m.held = u ++ ticks run ∧ u.getLast? ≠ some tick ∧ 0 < run ∧
      run < minTicks := by
  cases hm with
  | @afterCall name p w run hn hp hw hr =>
    have hpos : 0 < run := by
      rcases Nat.eq_zero_or_pos run with rfl | hpos
      · cases h
      · exact hpos
    refine ⟨name ++ '(' :: (p ++ w), run, by simp, by simp [Mode.held], ?_, hpos, hr⟩
    rcases List.eq_nil_or_concat w with rfl | ⟨w, d, rfl⟩
    · have hlast : p.getLast? = some ')' := Tracker.getLast?_of_behind? Nat.one_ne_zero hp
      obtain ⟨p, rfl⟩ := List.getLast?_eq_some_iff.1 hlast
      have hsplit : name ++ '(' :: (p ++ [')'] ++ []) = (name ++ '(' :: p) ++ [')'] := by simp
      rw [hsplit, List.getLast?_concat]
      decide
    · have hd : d ≠ tick := isGap_ne_tick (hw d (by simp))
      have hsplit : name ++ '(' :: (p ++ w.concat d) = (name ++ '(' :: (p ++ w)) ++ [d] := by simp
      rw [hsplit, List.getLast?_concat]
      exact fun heq => hd (Option.some.inj heq)
  | text lineStart => cases h
  | name hn => cases h
  | call hn hp => cases h
  | content hn hp hw hwidth hlast hopen => cases h

/-! ## The whole stream -/

/-- A stream reports the same calls with a line end behind it, and meets no fault either.  The one
exception is a last call behind which the stream ends with one or two backticks: the end of the
stream reports it, and a line end does not. -/
theorem feedAll_newline_calls (sc : Scanner) {chunks chunks' : List Text}
    (hx : chunks'.flatten = chunks.flatten ++ ['\n']) (hf : (sc.feedAll {} chunks).fault? = none) :
    (sc.feedAll {} chunks').fault? = none ∧
    callsOf (sc.feedAll {} chunks).events = callsOf (sc.feedAll {} chunks').events ++
      (sc.strayCall? (sc.feedChunks {} chunks).state.mode).toList ∧
    ∀ c, sc.strayCall? (sc.feedChunks {} chunks).state.mode = some c →
      ∃ u run, chunks.flatten = u ++ ticks run ∧ u.getLast? ≠ some tick ∧ 0 < run ∧
        run < minTicks := by
  rw [feedAll_eq_andThen] at hf
  obtain ⟨hfeed, hend⟩ := Outcome.fault?_andThen_eq_none_iff.1 hf
  have hm := held_feed hfeed
  obtain ⟨calls, hnewline, hcalls⟩ := newline_finalize_reportsCalls hm ⟨hend, rfl⟩
  have hwhole : ((sc.feed {} chunks.flatten).andThen
      fun s => (sc.step s '\n').andThen sc.finalize).ReportsCalls
        (callsOf (sc.feed {} chunks.flatten).events ++ calls) :=
    Outcome.ReportsCalls.andThen ⟨hfeed, rfl⟩ hnewline
  rw [← Outcome.andThen_assoc, ← feed_concat, ← hx, ← feedAll_eq_andThen] at hwhole
  rw [feedChunks_eq_feed]
  refine ⟨hwhole.fault, ?_, fun c hc => ?_⟩
  · rw [hwhole.calls, feedAll_eq_andThen, Outcome.events_andThen hfeed, callsOf_append, hcalls,
      List.append_assoc]
  · obtain ⟨u, run, hne, hheld, hlast, hpos, hrun⟩ := hm.ticks_of_strayCall? hc
    have hspelling : _ = chunks.flatten := (accountsFor_feed hfeed).spelling
    rw [State.unreported, State.pending, hheld] at hspelling
    refine ⟨spelling (sc.feed {} chunks.flatten).events ++
      ((sc.feed {} chunks.flatten).state.buffer ++ u), run, ?_, ?_, hpos, hrun⟩
    · simpa using hspelling.symm
    · rw [← List.append_assoc, List.getLast?_append_of_ne_nil _ hne]
      exact hlast

/-- A call at the end of a stream, in pieces, and at the end of its last line. -/
theorem feedAll_newline_calls_pieces :
    let sc : Scanner := { tools := ["f".toList] }
    let chunks := ["f(1)\nf(".toList, ") \t".toList]
    let chunks' := ["f(1)\nf() \t\n".toList]
    (sc.feedAll {} chunks).fault? = none ∧ (sc.feedAll {} chunks').fault? = none ∧
      callsOf (sc.feedAll {} chunks).events = callsOf (sc.feedAll {} chunks').events ∧
      (callsOf (sc.feedAll {} chunks).events).length = 2 := by
  intro sc chunks chunks'
  have hf : (sc.feedAll {} chunks).fault? = none := by decide +kernel
  have hx : chunks'.flatten = chunks.flatten ++ ['\n'] := rfl
  obtain ⟨hf', hcalls, -⟩ := feedAll_newline_calls sc hx hf
  have hstray : sc.strayCall? (sc.feedChunks {} chunks).state.mode = none := by
    rw [← Option.isNone_iff_eq_none]
    decide +kernel
  rw [hstray] at hcalls
  exact ⟨hf, hf', hcalls.trans (List.append_nil _), by decide +kernel⟩

/-- A backtick behind a call: the call is reported at the end of the stream, but not at the end of
the line. -/
theorem feedAll_newline_loses_stray_call :
    let sc : Scanner := { tools := ["f".toList] }
    let chunks := ["f()\x60".toList]
    let chunks' := ["f()\x60\n".toList]
    chunks'.flatten = chunks.flatten ++ ['\n'] ∧ (sc.feedAll {} chunks).fault? = none ∧
      (sc.feedAll {} chunks').fault? = none ∧
      (callsOf (sc.feedAll {} chunks).events).map Call.raw = ["f()".toList] ∧
      callsOf (sc.feedAll {} chunks').events = [] ∧
      callsOf (sc.feedAll {} chunks).events ≠ callsOf (sc.feedAll {} chunks').events := by
  intro sc chunks chunks'
  have hraw : (callsOf (sc.feedAll {} chunks).events).map Call.raw = ["f()".toList] := by
    decide +kernel
  have hnone : callsOf (sc.feedAll {} chunks').events = [] := by
    rw [← List.length_eq_zero_iff]
    decide +kernel
  refine ⟨rfl, by decide +kernel, by decide +kernel, hraw, hnone, fun heq => ?_⟩
  rw [heq, hnone] at hraw
  cases hraw

end ToolCalls.Scanner

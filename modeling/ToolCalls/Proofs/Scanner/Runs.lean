import ToolCalls.Scanner

/-!
# Runs of a scanner

A run that meets no fault is made of steps that meet none, reports what they report one after
another, and does not depend on how the stream is cut into chunks.  `feed_invariant` lifts what
every step keeps to runs, and `resolve_cases` says all that can become of a text that was held back.
-/

namespace ToolCalls.Scanner

namespace Outcome

variable {o : Outcome} {next : State → Outcome}

theorem fault?_andThen_eq_none_iff :
    (o.andThen next).fault? = none ↔ o.fault? = none ∧ (next o.state).fault? = none := by
  by_cases h : o.fault? = none
  · rw [andThen_of_no_fault next h]
    simp [h]
  · rw [andThen_of_fault next h]
    simp [h]

theorem fault?_andThen_eq_some_iff {e : Decimal.Oversized} :
    (o.andThen next).fault? = some e ↔
      o.fault? = some e ∨ o.fault? = none ∧ (next o.state).fault? = some e := by
  by_cases h : o.fault? = none
  · rw [andThen_of_no_fault next h]
    simp [h]
  · rw [andThen_of_fault next h]
    simp [h]

theorem events_andThen (h : o.fault? = none) :
    (o.andThen next).events = o.events ++ (next o.state).events := by
  rw [andThen_of_no_fault next h]

theorem state_andThen (h : o.fault? = none) : (o.andThen next).state = (next o.state).state := by
  rw [andThen_of_no_fault next h]

/-- Going on with nothing changes nothing. -/
theorem andThen_stay (o : Outcome) : (o.andThen fun s => { state := s }) = o := by
  by_cases h : o.fault? = none
  · obtain ⟨s, events, notes, fault?⟩ := o
    obtain rfl : fault? = none := h
    simp [andThen]
  · rw [andThen_of_fault _ h]

end Outcome

/-! ## Streams -/

/-- Several chunks of the stream. -/
def feedChunks (sc : Scanner) (s : State) : List Text → Outcome
  | [] => { state := s }
  | chunk :: chunks => (sc.feed s chunk).andThen fun s => sc.feedChunks s chunks

variable {sc : Scanner} {s : State}

theorem feedChunks_eq_feed (sc : Scanner) (s : State) (chunks : List Text) :
    sc.feedChunks s chunks = sc.feed s chunks.flatten := by
  induction chunks generalizing s with
  | nil => rfl
  | cons chunk chunks ih =>
    rw [List.flatten_cons, feed_append, feedChunks]
    congr 1
    funext s'
    exact ih s'

theorem feedAll_eq_andThen (sc : Scanner) (s : State) (chunks : List Text) :
    sc.feedAll s chunks = (sc.feed s chunks.flatten).andThen sc.finalize := by
  induction chunks generalizing s with
  | nil =>
    rw [List.flatten_nil, feed_nil, Outcome.andThen_state]
    rfl
  | cons chunk chunks ih =>
    rw [List.flatten_cons, feed_append, Outcome.andThen_assoc, feedAll]
    congr 1
    funext s'
    exact ih s'

theorem feed_singleton (sc : Scanner) (s : State) (c : Char) : sc.feed s [c] = sc.step s c := by
  rw [feed_cons]
  exact Outcome.andThen_stay _

theorem feed_concat (sc : Scanner) (s : State) (t : Text) (c : Char) :
    sc.feed s (t ++ [c]) = (sc.feed s t).andThen fun s => sc.step s c := by
  rw [feed_append]
  congr 1
  funext s'
  exact feed_singleton sc s' c

theorem fault?_feed_append {t u : Text} (h : (sc.feed s (t ++ u)).fault? = none) :
    (sc.feed s t).fault? = none ∧ (sc.feed (sc.feed s t).state u).fault? = none := by
  rw [feed_append] at h
  exact Outcome.fault?_andThen_eq_none_iff.1 h

/-- What every step keeps, every run keeps. -/
theorem feed_invariant (Inv : State → Prop)
    (hstep : ∀ s c, Inv s → (sc.step s c).fault? = none → Inv (sc.step s c).state) (hs : Inv s)
    {t : Text} (h : (sc.feed s t).fault? = none) : Inv (sc.feed s t).state := by
  induction t generalizing s with
  | nil => exact hs
  | cons c t ih =>
    rw [feed_cons] at h ⊢
    obtain ⟨hc, ht⟩ := Outcome.fault?_andThen_eq_none_iff.1 h
    rw [Outcome.state_andThen hc]
    exact ih (hstep s c hs hc) ht

/-! ## Reading what was held back -/

theorem resolve_of_found {raw : Text} {c : Call} {rest : Text}
    (hread : Call.read false sc.read.dropTag raw = .found c rest) (hc : sc.receive c = .ok ())
    (fallback : Text) :
    sc.resolve s raw fallback =
      { state := { buffer := rest, size := rest.length, mode := .text false }
        events := textEvents s.buffer ++ [.tool c] } := by
  rw [resolve, Outcome.andThen_of_no_fault _ rfl, hread]
  simp [hc, State.append, State.flush]

theorem resolve_of_fault {raw : Text} {o : Decimal.Oversized}
    (hread : Call.read false sc.read.dropTag raw = .fault o) (fallback : Text) :
    sc.resolve s raw fallback =
      { state := { mode := .text false }, events := textEvents s.buffer, fault? := some o } := by
  rw [resolve, Outcome.andThen_of_no_fault _ rfl, hread]
  simp [State.flush]

theorem resolve_of_absent {raw rest : Text}
    (hread : Call.read false sc.read.dropTag raw = .absent rest) (fallback : Text) :
    sc.resolve s raw fallback =
      { state := { mode := .text false }
        events := textEvents s.buffer ++ textEvents fallback
        notes := [rejectedNote raw] } := by
  rw [resolve, Outcome.andThen_of_no_fault _ rfl, hread]
  simp [State.flush]

/-- What was held back is a call that is received, or no call. -/
theorem resolve_cases {raw fallback : Text} (h : (sc.resolve s raw fallback).fault? = none) :
    (∃ c rest, Call.read false sc.read.dropTag raw = .found c rest ∧ sc.receive c = .ok () ∧
      sc.resolve s raw fallback =
        { state := { buffer := rest, size := rest.length, mode := .text false }
          events := textEvents s.buffer ++ [.tool c] }) ∨
    (∃ rest, Call.read false sc.read.dropTag raw = .absent rest ∧
      sc.resolve s raw fallback =
        { state := { mode := .text false }
          events := textEvents s.buffer ++ textEvents fallback
          notes := [rejectedNote raw] }) := by
  cases hread : Call.read false sc.read.dropTag raw with
  | found c rest =>
    cases hc : sc.receive c with
    | ok u => exact Or.inl ⟨c, rest, rfl, hc, resolve_of_found hread hc fallback⟩
    | error e =>
      rw [resolve, Outcome.andThen_of_no_fault _ rfl, hread] at h
      simp [hc] at h
  | absent rest => exact Or.inr ⟨rest, rfl, resolve_of_absent hread fallback⟩
  | fault e =>
    rw [resolve_of_fault hread] at h
    cases h

/-- A line end passes the plain text on, and a call may begin behind it. -/
theorem textStep_newline (sc : Scanner) (s : State) (lineStart : Bool) :
    sc.textStep s lineStart '\n' = { state := {}, events := [.text (s.buffer ++ ['\n'])] } := by
  have hn : Literal.isNameStart '\n' = false := by decide
  have hi : Text.isInline '\n' = false := rfl
  simp [textStep, hn, hi, State.append, State.flush, textEvents]

theorem complete_of_found {held : Text} {c : Call} {rest : Text}
    (hread : Call.read false sc.read.dropTag held = .found c rest) (hc : sc.receive c = .ok ())
    (m : Mode) (ch : Char) :
    sc.complete { mode := m } held ch =
      let o := sc.textStep { buffer := rest, size := rest.length, mode := .text false } false ch
      { o with events := .tool c :: o.events } := by
  rw [complete, resolve_of_found hread hc, Outcome.andThen_of_no_fault _ rfl]
  simp [textEvents]

/-! ## The end of the stream -/

/-- The end of the stream passes the plain text on, then what was held back. -/
theorem finalize_of_no_fault (h : (sc.finalize s).fault? = none) :
    (sc.settle s.flush.state).fault? = none ∧ (sc.finalize s).state = {} ∧
      (sc.finalize s).events = textEvents s.buffer ++
        ((sc.settle s.flush.state).events ++
          textEvents (sc.settle s.flush.state).state.buffer) := by
  rw [finalize, Outcome.fault?_andThen_eq_none_iff] at h
  have hsettle := (Outcome.fault?_andThen_eq_none_iff.1 h.1).2
  rw [finalize, Outcome.state_andThen h.1, Outcome.events_andThen h.1, Outcome.events_andThen rfl,
    Outcome.state_andThen rfl, Outcome.state_andThen rfl, Outcome.events_andThen rfl,
    List.append_assoc]
  exact ⟨hsettle, rfl, by simp [State.flush]⟩

end ToolCalls.Scanner

import ToolCalls.Proofs.Call.Limits
import ToolCalls.Proofs.Scanner.Soundness

/-!
# When a scanner fails

A scanner whose receiver takes every call fails at one thing only: an integer with too many digits
in what it held back.  `feedAll_fault_iff_oversized` says exactly when that is, and that a stream
without too many digits in a row is scanned to its end and leaves the scanner as it was at first.

`feedAll_loses_long_integer` is a stream for which it fails: what was held back is gone then, and
the scanner is not ready for another stream.
-/

namespace ToolCalls.Scanner

open Literal (IsName Digits)

variable {sc : Scanner} {s : State} {o : Decimal.Oversized}

/-! ## One step -/

theorem fault?_textStep (sc : Scanner) (s : State) (lineStart : Bool) (c : Char) :
    (sc.textStep s lineStart c).fault? = none := by
  unfold textStep
  split
  · rfl
  · dsimp only
    split <;> rfl

section Receiver

variable (hreceive : ∀ c, sc.receive c = .ok ())

include hreceive

/-- Reading what was held back fails just if it meets an integer with too many digits. -/
theorem fault?_resolve_eq_some_iff {raw fallback : Text} :
    (sc.resolve s raw fallback).fault? = some o ↔ Call.parse? false sc.read raw = .error o := by
  rw [Call.parse?_eq_error_iff]
  cases hread : Call.read false sc.read.dropTag raw with
  | found c rest =>
    rw [resolve_of_found hread (hreceive c)]
    simp
  | absent rest =>
    rw [resolve_of_absent hread]
    simp
  | fault o' =>
    rw [resolve_of_fault hread]
    simp

theorem fault?_complete_eq_some_iff {held : Text} {c : Char} :
    (sc.complete s held c).fault? = some o ↔ Call.parse? false sc.read held = .error o := by
  rw [complete, Outcome.fault?_andThen_eq_some_iff, fault?_textStep,
    fault?_resolve_eq_some_iff hreceive]
  simp

/-- A step fails just if what is held back ends there and meets an integer with too many digits. -/
theorem fault?_step_eq_some_iff {c : Char} (left : Text) :
    (sc.step s c).fault? = some o ↔
      Ending s.mode (c :: left) ∧ Call.parse? false sc.read s.pending = .error o := by
  constructor
  · intro h
    obtain ⟨a, ha, hstep⟩ := step_cases sc s c
    rw [hstep] at h
    unfold State.pending
    generalize s.mode = m at ha
    -- plain text and what is held back further are not read
    have htext {s' : State} {lineStart : Bool} (h : (sc.textStep s' lineStart c).fault? = some o) :
        False := by
      rw [fault?_textStep] at h
      cases h
    cases ha with
    | text lineStart => exact (htext h).elim
    | name hc => cases h
    | opening hc hknown => cases h
    | leaveName notes => exact (htext h).elim
    | hold hm hnext hheld hline => cases h
    | leaveCall hc => exact (htext h).elim
    | line hc =>
      subst hc
      exact ⟨.line _ left, (fault?_complete_eq_some_iff hreceive).1 h⟩
    | block hc => exact ⟨.block _ _ hc left, (fault?_complete_eq_some_iff hreceive).1 h⟩
  · rintro ⟨hend, hparse⟩
    rw [step_of_ending hend]
    exact (fault?_complete_eq_some_iff hreceive).2 hparse

end Receiver

/-! ## Streams -/

/-- The scanner fails when `u` has been fed and `left` is left of the stream: there ends what was
held back, and an integer with too many digits is met in it. -/
structure FailsAt (sc : Scanner) (s : State) (u left : Text) (o : Decimal.Oversized) : Prop where
  fault : (sc.feed s u).fault? = none
  ending : Ending (sc.feed s u).state.mode left
  oversized : Call.parse? false sc.read (sc.feed s u).state.pending = .error o

theorem failsAt_cons_iff {c : Char} {u left : Text} :
    FailsAt sc s (c :: u) left o ↔
      (sc.step s c).fault? = none ∧ FailsAt sc (sc.step s c).state u left o := by
  constructor
  · rintro ⟨hfault, hend, hlong⟩
    rw [feed_cons, Outcome.fault?_andThen_eq_none_iff] at hfault
    rw [feed_cons, Outcome.state_andThen hfault.1] at hend hlong
    exact ⟨hfault.1, hfault.2, hend, hlong⟩
  · rintro ⟨hc, hfault, hend, hlong⟩
    have hstate : (sc.feed s (c :: u)).state = (sc.feed (sc.step s c).state u).state := by
      rw [feed_cons, Outcome.state_andThen hc]
    refine ⟨?_, hstate ▸ hend, hstate ▸ hlong⟩
    rw [feed_cons, Outcome.fault?_andThen_eq_none_iff]
    exact ⟨hc, hfault⟩

/-- What is held back is a part of the stream, and so is an integer in it. -/
theorem FailsAt.standsIn {u left : Text} (h : FailsAt sc {} u left o) :
    o.StandsIn (u ++ left) := by
  have hspelling := (accountsFor_feed h.fault).spelling
  rw [State.unreported, ← List.append_assoc] at hspelling
  have hpart : (sc.feed {} u).state.pending <:+: u ++ left := by
    refine ⟨spelling (sc.feed {} u).events ++ (sc.feed {} u).state.buffer, left, ?_⟩
    rw [hspelling]
    rfl
  exact (Call.parse?_oversized h.oversized).mono hpart

section Receiver

variable (hreceive : ∀ c, sc.receive c = .ok ())

include hreceive

/-- A run fails just if one of its steps does. -/
theorem fault?_feed_eq_some_iff {t : Text} :
    (sc.feed s t).fault? = some o ↔
      ∃ u c left, t = u ++ c :: left ∧ FailsAt sc s u (c :: left) o := by
  induction t generalizing s with
  | nil => simp
  | cons ch t ih =>
    rw [feed_cons, Outcome.fault?_andThen_eq_some_iff, fault?_step_eq_some_iff hreceive t, ih]
    constructor
    · rintro (⟨hend, hlong⟩ | ⟨hstep, u, c, left, rfl, hfails⟩)
      · exact ⟨[], ch, t, rfl, rfl, hend, hlong⟩
      · exact ⟨ch :: u, c, left, rfl, failsAt_cons_iff.2 ⟨hstep, hfails⟩⟩
    · rintro ⟨u, c, left, heq, hfails⟩
      cases u with
      | nil =>
        obtain ⟨rfl, rfl⟩ := List.cons.inj heq
        exact Or.inl ⟨hfails.ending, hfails.oversized⟩
      | cons d u =>
        obtain ⟨rfl, rfl⟩ := List.cons.inj heq
        obtain ⟨hstep, hfails⟩ := failsAt_cons_iff.1 hfails
        exact Or.inr ⟨hstep, u, c, left, rfl, hfails⟩

theorem fault?_settle_eq_some_iff (hm : Held s.mode) :
    (sc.settle s).fault? = some o ↔ Call.parse? false sc.read s.pending = .error o := by
  unfold settle State.pending
  cases hmode : s.mode with
  | text lineStart =>
    have hnone : Call.parse? false sc.read [] = .ok none := rfl
    simp [Mode.held, hnone]
  | name held =>
    rw [hmode] at hm
    cases hm with
    | name hn => simp [Mode.held, Call.parse?_eq_error_iff, Call.read_name _ _ hn]
  | call held k => exact fault?_resolve_eq_some_iff hreceive
  | afterCall held run => exact fault?_resolve_eq_some_iff hreceive
  | content held width run opened => exact fault?_resolve_eq_some_iff hreceive

theorem fault?_finalize_eq_some_iff (hm : Held s.mode) :
    (sc.finalize s).fault? = some o ↔ Call.parse? false sc.read s.pending = .error o := by
  have hflush (s' : State) : (s'.flush.andThen fun _ => { state := {} }).fault? = none := rfl
  have hsettle : (sc.settle s.flush.state).fault? = some o ↔
      Call.parse? false sc.read s.pending = .error o := fault?_settle_eq_some_iff hreceive hm
  rw [finalize, Outcome.fault?_andThen_eq_some_iff, hflush, Outcome.fault?_andThen_eq_some_iff,
    hsettle]
  simp [State.flush]

theorem fault?_feedAll_eq_some_iff {chunks : List Text} :
    (sc.feedAll {} chunks).fault? = some o ↔
      ∃ u left, chunks.flatten = u ++ left ∧ FailsAt sc {} u left o := by
  rw [feedAll_eq_andThen, Outcome.fault?_andThen_eq_some_iff, fault?_feed_eq_some_iff hreceive]
  constructor
  · rintro (⟨u, c, left, ht, hfails⟩ | ⟨hfeed, hfinal⟩)
    · exact ⟨u, c :: left, ht, hfails⟩
    · rw [fault?_finalize_eq_some_iff hreceive (held_feed hfeed)] at hfinal
      exact ⟨_, [], (List.append_nil _).symm, hfeed, .stream _, hfinal⟩
  · rintro ⟨u, left, ht, hfails⟩
    -- a failing step has a character left, the end of the stream has none
    cases left with
    | nil =>
      rw [List.append_nil] at ht
      rw [ht, fault?_finalize_eq_some_iff hreceive (held_feed hfails.fault)]
      exact Or.inr ⟨hfails.fault, hfails.oversized⟩
    | cons c left => exact Or.inl ⟨u, c, left, ht, hfails⟩

end Receiver

/-! ## A call with an integer that is too long -/

section Long

variable {name ds : Text}

theorem behind?_digits (h : Digits ds) : ({} : Tracker).behind? (ds ++ [')']) = some [] := by
  have hcalm : Tracker.calm 0 (ds ++ [')']) = true := by
    refine Tracker.calm_of_part (fun hpart => ?_) List.infix_rfl
    have hmem : '\x22' ∈ ds ++ [')'] := hpart.subset (by decide)
    rcases List.mem_append.1 hmem with hmem | hmem
    · exact absurd (h.digits _ hmem) (by decide)
    · exact absurd hmem (by decide)
  exact Tracker.behind?_of_crossable (Tracker.crossable_digits h [')']) hcalm []

/-- At the end of its line a call with an integer that is too long makes the scanner fail. -/
theorem fault?_feed_long (hs : s.mode = .text true) (hn : IsName name) (hknown : name ∈ sc.tools)
    (h : Digits ds) (hl : Decimal.maxDigits < ds.length) :
    (sc.feed s (name ++ '(' :: (ds ++ [')']) ++ ['\n'])).fault? = some ⟨ds.length⟩ := by
  have hread : Call.read false sc.read.dropTag (name ++ '(' :: (ds ++ [')'])) =
      .fault ⟨ds.length⟩ := Call.read_long false _ hn h hl rfl rfl
  rw [feed_concat, feed_closed hs hn hknown (behind?_digits h), Outcome.andThen_of_no_fault _ rfl]
  show (sc.complete _ _ '\n').fault? = _
  rw [complete, resolve_of_fault hread]
  rfl

/-- A stream that ends in such a call makes the scanner fail too, and nothing of the call is
reported. -/
theorem feed_long_finalize (hs : s.mode = .text true) (hn : IsName name) (hknown : name ∈ sc.tools)
    (h : Digits ds) (hl : Decimal.maxDigits < ds.length) :
    let o := (sc.feed s (name ++ '(' :: ds)).andThen sc.finalize
    o.fault? = some ⟨ds.length⟩ ∧ o.state = { mode := .text false } ∧
      o.events = textEvents s.buffer ++ sc.statusEvents name := by
  have hread : Call.read false sc.read.dropTag (name ++ '(' :: ds) = .fault ⟨ds.length⟩ := by
    have hlong : Call.read false sc.read.dropTag (name ++ '(' :: (ds ++ [])) =
        .fault ⟨ds.length⟩ := Call.read_long false _ hn h hl rfl rfl
    rwa [List.append_nil] at hlong
  obtain ⟨k, hfeed⟩ := feed_open hs hn hknown (behind?_digits h) Nat.zero_lt_one
  have hresolve (m : Mode) (fallback : Text) := resolve_of_fault (s := { mode := m }) hread fallback
  rw [hfeed, Outcome.andThen_of_no_fault _ rfl]
  simp [finalize, settle, hresolve, Outcome.andThen, State.flush, textEvents]

end Long

/-! ## The whole stream -/

/-- A scanner whose receiver takes every call fails just if it meets an integer with too many digits
where it reads what it held back: at a line end, behind a block or at the end of the stream.  Then
the stream has too many digits in a row; otherwise the scanner is as it was at first when the stream
has ended. -/
theorem feedAll_fault_iff_oversized (sc : Scanner) (hreceive : ∀ c, sc.receive c = .ok ())
    (chunks : List Text) :
    (∀ o, (sc.feedAll {} chunks).fault? = some o ↔
      ∃ u left, chunks.flatten = u ++ left ∧ FailsAt sc {} u left o) ∧
    (∀ o, (sc.feedAll {} chunks).fault? = some o → o.StandsIn chunks.flatten) ∧
    ((sc.feedAll {} chunks).fault? = none →
      (sc.feedChunks {} chunks).fault? = none ∧ (sc.feedAll {} chunks).state = {}) := by
  refine ⟨fun o => fault?_feedAll_eq_some_iff hreceive, fun o h => ?_, fun h => ?_⟩
  · obtain ⟨u, left, ht, hfails⟩ := (fault?_feedAll_eq_some_iff hreceive).1 h
    rw [ht]
    exact hfails.standsIn
  · rw [feedAll_eq_andThen] at h ⊢
    obtain ⟨hfeed, hend⟩ := Outcome.fault?_andThen_eq_none_iff.1 h
    rw [feedChunks_eq_feed, Outcome.state_andThen hfeed]
    exact ⟨hfeed, (finalize_of_no_fault hend).2.1⟩

/-- A call in two chunks, and one that the stream breaks off in. -/
theorem feedAll_no_fault_short :
    let sc : Scanner := { tools := ["f".toList] }
    let chunks := ["f(1".toList, "2)\nf(3".toList]
    (∀ c, sc.receive c = .ok ()) ∧ (sc.feedAll {} chunks).fault? = none ∧
      (sc.feedAll {} chunks).state = {} := by
  intro sc chunks
  obtain ⟨-, hlong, hstate⟩ := feedAll_fault_iff_oversized sc (fun _ => rfl) chunks
  have hnone : (sc.feedAll {} chunks).fault? = none := by
    rw [Option.eq_none_iff_forall_not_mem]
    intro o ho
    obtain ⟨ds, -, hpart, hlen, -⟩ := hlong o ho
    have hle : ds.length ≤ chunks.flatten.length := hpart.length_le
    have hshort : chunks.flatten.length = 9 := by decide
    have hmax : Decimal.maxDigits = 4300 := rfl
    omega
  exact ⟨fun _ => rfl, hnone, (hstate hnone).2⟩

/-- An integer with one digit too many: the scanner fails at the end of the line and at the end of
the stream.  In the end nothing has been reported, and no call may start with the next character. -/
theorem feedAll_loses_long_integer :
    let sc : Scanner := { tools := ["f".toList] }
    let ds := List.replicate 4301 '1'
    (∀ c, sc.receive c = .ok ()) ∧
      (sc.feed {} ("f".toList ++ '(' :: (ds ++ [')']) ++ ['\n'])).fault? = some ⟨4301⟩ ∧
      (sc.feedAll {} ["f".toList ++ '(' :: ds]).fault? = some ⟨4301⟩ ∧
      (sc.feedAll {} ["f".toList ++ '(' :: ds]).events = [] ∧
      (sc.feedAll {} ["f".toList ++ '(' :: ds]).state ≠ {} := by
  intro sc ds
  have hn : IsName "f".toList := ⟨by decide, by decide⟩
  have hknown : "f".toList ∈ sc.tools := List.mem_cons_self
  have hlen : ds.length = 4301 := List.length_replicate
  have hds : Digits ds := by
    refine ⟨List.ne_nil_of_length_pos (by omega), fun c hc => ?_⟩
    rw [List.eq_of_mem_replicate hc]
    rfl
  have hlong : Decimal.maxDigits < ds.length := by
    rw [hlen]
    decide
  have hline := fault?_feed_long (s := {}) rfl hn hknown hds hlong
  obtain ⟨hfault, hstate, hevents⟩ := feed_long_finalize (s := {}) rfl hn hknown hds hlong
  rw [hlen] at hline hfault
  rw [feedAll_eq_andThen, List.flatten_singleton, hstate, hevents]
  exact ⟨fun _ => rfl, hline, hfault, rfl, by decide⟩

end ToolCalls.Scanner

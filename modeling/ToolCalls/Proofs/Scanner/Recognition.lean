import ToolCalls.Proofs.Scanner.Runs
import ToolCalls.Proofs.Scanner.Tracking
import ToolCalls.Proofs.Text.Stages

/-!
# Every call is recognised

A text that reads as a call of a known tool is reported as that call, whatever was scanned before
it, if it stands at the beginning of a line and the line ends behind it.  While it goes by, its
characters are held back one after another (`Keeps`): the name, the text between the parentheses,
for which the tracker has to agree with the grammar, and the block, stage by stage (`feed_stage`).
What was held back is then read as the call it is (`feed_recognises`).
-/

namespace ToolCalls.Scanner

open Literal (startsWith isNameStart isNameChar IsName Spelled maxNesting)
open Text (AllOf isInline skipInline)

variable {sc : Scanner}

/-! ## Characters that are held back -/

/-- The characters of `t` are held back: they lead from one mode to another and nothing is
reported. -/
def Keeps (sc : Scanner) (m : Mode) (t : Text) (m' : Mode) : Prop :=
  sc.feed { mode := m } t = { state := { mode := m' } }

theorem Keeps.refl (m : Mode) : Keeps sc m [] m := rfl

theorem Keeps.trans {m m' m'' : Mode} {t u : Text} (h : Keeps sc m t m') (h' : Keeps sc m' u m'') :
    Keeps sc m (t ++ u) m'' := by
  unfold Keeps at *
  rw [feed_append, h, Outcome.andThen_state]
  exact h'

theorem Keeps.cons {m m' m'' : Mode} {c : Char} {t : Text}
    (h : sc.step { mode := m } c = { state := { mode := m' } }) (h' : Keeps sc m' t m'') :
    Keeps sc m (c :: t) m'' := by
  unfold Keeps at *
  rw [feed_cons, h, Outcome.andThen_state]
  exact h'

/-! ## The name and the arguments -/

/-- The event for the beginning of a call, if it is reported. -/
def statusEvents (sc : Scanner) (name : Text) : List Event :=
  if sc.status then [.status name] else []

theorem keeps_name {n : Text} (h : AllOf isNameChar n) (held : Text) :
    Keeps sc (.name held) n (.name (held ++ n)) := by
  induction n generalizing held with
  | nil =>
    rw [List.append_nil]
    exact Keeps.refl _
  | cons c n ih =>
    obtain ⟨hc, hn⟩ := Text.allOf_cons.1 h
    have hstep : sc.step { mode := .name held } c =
        { state := { mode := .name (held ++ [c]) } } := by
      show sc.nameStep _ held c = _
      rw [nameStep, if_pos hc]
    have hrest := ih hn (held ++ [c])
    rw [List.append_assoc] at hrest
    exact Keeps.cons hstep hrest

/-- A name at the beginning of a line is held back, and the plain text before it passed on. -/
theorem feed_name {s : State} (hs : s.mode = .text true) {name : Text} (h : IsName name) :
    sc.feed s name = { state := { mode := .name name }, events := textEvents s.buffer } := by
  obtain ⟨c, n, rfl, hc⟩ := Text.exists_cons_of_startsWith h.start
  have hstep : sc.step s c = { state := { mode := .name [c] }, events := textEvents s.buffer } := by
    rw [step, hs]
    show sc.textStep s true c = _
    rw [textStep, if_pos (by simp [hc])]
    rfl
  have hrest : sc.feed { mode := .name [c] } n = { state := { mode := .name (c :: n) } } :=
    keeps_name (Text.allOf_cons.1 h.chars).2 [c]
  rw [feed_cons, hstep, Outcome.andThen_of_no_fault _ rfl]
  simp only [hrest, List.append_nil]

/-- The opening parenthesis behind the name of a known tool begins a call. -/
theorem feed_opening {s : State} (hs : s.mode = .text true) {name : Text} (h : IsName name)
    (hknown : name ∈ sc.tools) :
    sc.feed s (name ++ ['(']) =
      { state := { mode := .call (name ++ ['(']) {} }
        events := textEvents s.buffer ++ sc.statusEvents name } := by
  have hstep : sc.step { mode := .name name } '(' =
      { state := { mode := .call (name ++ ['(']) {} }, events := sc.statusEvents name } := by
    have hchar : isNameChar '(' = false := by decide
    have hcontains : sc.tools.contains name = true := by simpa using hknown
    show sc.nameStep _ name '(' = _
    rw [nameStep, hchar, if_neg Bool.false_ne_true, if_pos rfl, if_pos hcontains]
    rfl
  rw [feed_concat, feed_name hs h, Outcome.andThen_of_no_fault _ rfl]
  simp only [hstep, List.append_nil]

theorem keeps_call {p r : Text} {k : Tracker} (h : k.behind? (p ++ r) = some r) (held : Text) :
    Keeps sc (.call held k) p (.afterCall (held ++ p) 0) := by
  induction p generalizing k held with
  | nil =>
    -- no call is closed by nothing
    have := Tracker.length_lt_of_behind? h
    simp at this
  | cons c p ih =>
    rw [List.cons_append, Tracker.behind?] at h
    split at h
    · next hclosed =>
      have hnil : p = [] := by simpa using h
      subst hnil
      apply Keeps.cons _ (Keeps.refl _)
      show callStep _ held k c = _
      simp only [callStep, if_pos hclosed]
    · next hopen =>
      have hrest := ih h (held ++ [c])
      rw [List.append_assoc] at hrest
      apply Keeps.cons _ hrest
      show callStep _ held k c = _
      simp only [callStep, if_neg hopen]

/-- Before its closing parenthesis a call stays open. -/
theorem keeps_call_open {p z r : Text} {k : Tracker} (h : k.behind? (p ++ z) = some r)
    (hr : r.length < z.length) (held : Text) :
    ∃ k', Keeps sc (.call held k) p (.call (held ++ p) k') := by
  induction p generalizing k held with
  | nil => exact ⟨k, by rw [List.append_nil]; exact Keeps.refl _⟩
  | cons c p ih =>
    rw [List.cons_append, Tracker.behind?] at h
    split at h
    · rw [Option.some.injEq] at h
      have := congrArg List.length h
      rw [List.length_append] at this
      omega
    · next hopen =>
      obtain ⟨k', hrest⟩ := ih h (held ++ [c])
      rw [List.append_assoc] at hrest
      refine ⟨k', Keeps.cons ?_ hrest⟩
      show callStep _ held k c = _
      simp only [callStep, if_neg hopen]

/-! ## Behind the closing parenthesis -/

/-- A character that may stand between a call and the end of its line. -/
def isGap (c : Char) : Bool := isInline c || c == '\r'

theorem isGap_ne_tick {c : Char} (h : isGap c = true) : c ≠ tick := by
  rintro rfl
  cases h

theorem keeps_gap {w : Text} (h : AllOf isGap w) (held : Text) :
    Keeps sc (.afterCall held 0) w (.afterCall (held ++ w) 0) := by
  induction w generalizing held with
  | nil =>
    rw [List.append_nil]
    exact Keeps.refl _
  | cons c w ih =>
    obtain ⟨hc, hw⟩ := Text.allOf_cons.1 h
    have hrest := ih hw (held ++ [c])
    rw [List.append_assoc] at hrest
    apply Keeps.cons _ hrest
    show sc.afterCallStep _ held 0 c = _
    rw [afterCallStep, if_neg (isGap_ne_tick hc), if_neg (by simp)]
    exact if_pos hc

/-- The mode of a scanner at a stage of the block behind a call. -/
def stageMode (held : Text) : Fence.Stage → Mode
  | .opening run => if run < minTicks then .afterCall held run else .content held run 0 false
  | .body width run => .content held width run true

theorem step_stage {s : State} {held : Text} {g g' : Fence.Stage} {c : Char}
    (hm : s.mode = stageMode held g) (h : g.next? c = some g') :
    sc.step s c = { state := { s with mode := stageMode (held ++ [c]) g' } } := by
  rw [step, hm]
  cases g with
  | opening run =>
    rw [Fence.Stage.next?] at h
    by_cases hc : c = tick
    · rw [if_pos hc] at h
      cases h
      by_cases hrun : run < minTicks
      · simp only [stageMode, if_pos hrun, afterCallStep, if_pos hc]
        by_cases hopen : minTicks ≤ run + 1
        · rw [if_pos hopen, if_neg (Nat.not_lt.2 hopen)]
        · rw [if_neg hopen, if_pos (Nat.lt_of_not_le hopen)]
      · have hopen : ¬ run + 1 < minTicks := by omega
        simp only [stageMode, if_neg hrun, if_neg hopen, contentStep, Bool.not_false, if_true,
          if_pos hc]
    · rw [if_neg hc, Option.ite_none_right_eq_some, Option.some.injEq] at h
      obtain ⟨hw, rfl⟩ := h
      simp only [stageMode, if_neg (Nat.not_lt.2 hw), contentStep, Bool.not_false, if_true,
        if_neg hc]
  | body width run =>
    rw [Fence.Stage.next?] at h
    simp only [stageMode, contentStep, Bool.not_true, Bool.false_eq_true, if_false]
    by_cases hc : c = tick
    · rw [if_pos hc] at h
      cases h
      rw [if_pos hc]
    · rw [if_neg hc, Option.ite_none_left_eq_some, Option.some.injEq] at h
      obtain ⟨hrun, rfl⟩ := h
      rw [if_neg hc, if_neg hrun]

/-- Behind a call a scanner comes from stage to stage of a block. -/
theorem feed_stage {s : State} {held t : Text} {g g' : Fence.Stage}
    (hm : s.mode = stageMode held g) (h : t.foldlM Fence.Stage.next? g = some g') :
    sc.feed s t = { state := { s with mode := stageMode (held ++ t) g' } } := by
  induction t generalizing s held g with
  | nil =>
    rw [List.foldlM_nil, Option.pure_def, Option.some.injEq] at h
    rw [feed_nil, List.append_nil, ← h, ← hm]
  | cons c t ih =>
    rw [List.foldlM_cons, Option.bind_eq_bind, Option.bind_eq_some_iff] at h
    obtain ⟨g₁, hnext, h⟩ := h
    rw [feed_cons, step_stage hm hnext, Outcome.andThen_state, ih rfl h, List.append_assoc]
    rfl

/-- A fenced block behind a call is held back up to its last backtick. -/
theorem keeps_block {f : Fence} (h : f.WellFormed) (held : Text) :
    Keeps sc (.afterCall held 0) f.raw (.content (held ++ f.raw) f.width f.width true) :=
  feed_stage (s := { mode := .afterCall held 0 }) (g := .opening 0) rfl (Fence.Stage.of?_raw h)

/-! ## A whole call -/

section Head

variable {dropsTag : Bool} {name u : Text} {as : List Call.Argument} {s : State}

/-- What the tracker takes for a whole call is held back. -/
theorem feed_closed (hs : s.mode = .text true) (hn : IsName name) (hknown : name ∈ sc.tools)
    {p : Text} (hp : ({} : Tracker).behind? p = some []) :
    sc.feed s (name ++ '(' :: p) =
      { state := { mode := .afterCall (name ++ '(' :: p) 0 }
        events := textEvents s.buffer ++ sc.statusEvents name } := by
  have hkeeps : sc.feed { mode := .call (name ++ ['(']) {} } p = _ :=
    keeps_call (by rwa [List.append_nil]) (name ++ ['('])
  have hsplit : name ++ '(' :: p = name ++ ['('] ++ p := by simp
  rw [hsplit, feed_append, feed_opening hs hn hknown, Outcome.andThen_of_no_fault _ rfl]
  simp only [hkeeps, List.append_nil]

/-- Before the closing parenthesis that the tracker finds, the call stays open. -/
theorem feed_open (hs : s.mode = .text true) (hn : IsName name) (hknown : name ∈ sc.tools)
    {p z r : Text} (hp : ({} : Tracker).behind? (p ++ z) = some r) (hr : r.length < z.length) :
    ∃ k, sc.feed s (name ++ '(' :: p) =
      { state := { mode := .call (name ++ '(' :: p) k }
        events := textEvents s.buffer ++ sc.statusEvents name } := by
  obtain ⟨k, hkeeps⟩ : ∃ k, Keeps sc (.call (name ++ ['(']) {}) p (.call _ k) :=
    keeps_call_open hp hr (name ++ ['('])
  have hsplit : name ++ '(' :: p = name ++ ['('] ++ p := by simp
  unfold Keeps at hkeeps
  refine ⟨k, ?_⟩
  rw [hsplit, feed_append, feed_opening hs hn hknown, Outcome.andThen_of_no_fault _ rfl]
  simp only [hkeeps, List.append_nil]

/-- A call up to its closing parenthesis is held back. -/
theorem feed_head (hs : s.mode = .text true) (hn : IsName name) (hknown : name ∈ sc.tools)
    (hu : Call.ArgumentList (Spelled dropsTag maxNesting) as u)
    (hcalm : Tracker.calm 0 (u ++ [')']) = true) :
    sc.feed s (name ++ '(' :: (u ++ [')'])) =
      { state := { mode := .afterCall (name ++ '(' :: (u ++ [')'])) 0 }
        events := textEvents s.buffer ++ sc.statusEvents name } := by
  exact feed_closed hs hn hknown (Tracker.behind?_argumentList hu hcalm [])

/-- The closing parenthesis is not found before the whole call has gone by. -/
theorem feed_head_part (hs : s.mode = .text true) (hn : IsName name) (hknown : name ∈ sc.tools)
    (hu : Call.ArgumentList (Spelled dropsTag maxNesting) as u)
    (hcalm : Tracker.calm 0 (u ++ [')']) = true) {p q : Text} (hp : p ≠ []) (hq : q ≠ [])
    (heq : p ++ q = name ++ '(' :: (u ++ [')'])) :
    (sc.feed s p).fault? = none ∧
      ((sc.feed s p).state.mode = .name p ∨ ∃ k, (sc.feed s p).state.mode = .call p k) := by
  have hname {n n' : Text} (hnn : name = n ++ n') (hne : n ≠ []) :
      (sc.feed s n).fault? = none ∧
        ((sc.feed s n).state.mode = .name n ∨ ∃ k, (sc.feed s n).state.mode = .call n k) := by
    have hisName : IsName n := by
      refine ⟨?_, (Text.allOf_append.1 (hnn ▸ hn.chars)).1⟩
      have hstart := hn.start
      rwa [hnn, Text.startsWith_append_of_ne_nil hne] at hstart
    rw [feed_name hs hisName]
    exact ⟨rfl, Or.inl rfl⟩
  rcases List.append_eq_append_iff.1 heq with ⟨n, hnn, -⟩ | ⟨v, rfl, hv⟩
  · exact hname hnn hp
  · cases v with
    | nil =>
      rw [List.append_nil] at hp ⊢
      exact hname (List.append_nil name).symm hp
    | cons c v =>
      rw [List.cons_append] at hv
      obtain ⟨rfl, hrest⟩ := List.cons.inj hv
      have hbehind : ({} : Tracker).behind? (v ++ q) = some [] := by
        rw [← hrest]
        exact Tracker.behind?_argumentList hu hcalm []
      have hlen : ([] : Text).length < q.length := List.length_pos_iff.2 hq
      obtain ⟨k, hfeed⟩ := feed_open hs hn hknown hbehind hlen
      rw [hfeed]
      exact ⟨rfl, Or.inr ⟨k, rfl⟩⟩

end Head

/-- A text that reads as a call with nothing behind it is written as the call. -/
theorem form_of_parse? {options : ReadOptions} {s : Text} {c : Call}
    (h : Call.parse? false options s = .ok (some c)) (hraw : c.raw = s) :
    Call.Form options.dropTag c [] := by
  obtain ⟨rest, hread⟩ := Call.parse?_eq_some_iff.1 h
  obtain ⟨hform, hs⟩ := Call.read_eq_found_iff.1 hread
  have hnil : rest = [] := by simpa [hraw] using hs
  rwa [hnil] at hform

/-- A call that has been held back to its end is reported when the stream ends. -/
theorem finalize_of_found {m : Mode} {c : Call}
    (hm : m = .afterCall c.raw 0 ∨ ∃ width, m = .content c.raw width width true)
    (hread : Call.read false sc.read.dropTag c.raw = .found c []) (hc : sc.receive c = .ok ()) :
    (sc.finalize { mode := m }).fault? = none ∧ (sc.finalize { mode := m }).state = {} ∧
      (sc.finalize { mode := m }).events = [.tool c] := by
  have hresolve := resolve_of_found (s := { mode := m }) hread hc
  rcases hm with rfl | ⟨width, rfl⟩
  · simp [finalize, settle, hresolve, Outcome.andThen, State.flush, textEvents]
  · simp [finalize, settle, hresolve, Outcome.andThen, State.flush, textEvents]

/-- A call of a known tool at the beginning of a line is held back to its end: up to the closing
parenthesis, which is not found any earlier, or up to the end of its block. -/
theorem feed_call {dropsTag : Bool} {c : Call} (hform : Call.Form dropsTag c [])
    (hname : c.name ++ ['('] <+: c.raw) (hknown : c.name ∈ sc.tools)
    (hquotes : ¬ Tracker.tripled <:+: c.raw) {s : State} (hs : s.mode = .text true) :
    (c.raw.getLast? = some ')' ∧
      sc.feed s c.raw =
        { state := { mode := .afterCall c.raw 0 }
          events := textEvents s.buffer ++ sc.statusEvents c.name } ∧
      ∀ p, p ≠ [] → p <+: c.raw → p ≠ c.raw → (sc.feed s p).fault? = none ∧
        ((sc.feed s p).state.mode = .name p ∨ ∃ k, (sc.feed s p).state.mode = .call p k)) ∨
    (c.raw.getLast? = some tick ∧ ∃ width,
      sc.feed s c.raw =
        { state := { mode := .content c.raw width width true }
          events := textEvents s.buffer ++ sc.statusEvents c.name }) := by
  obtain ⟨p, hp⟩ := hname
  cases hform with
  | @plain name raw _ as h hr =>
    have hn : IsName name := by obtain ⟨-, hn, -, -⟩ := h; exact hn
    obtain ⟨-, u, hu, hraw⟩ := h.eq_of_append [] hn (by simpa using hp.symm)
    have hcalm : Tracker.calm 0 (u ++ [')']) = true :=
      Tracker.calm_of_part hquotes ⟨name ++ ['('], [], by simp [hraw]⟩
    have hfeed := feed_head hs hn hknown hu hcalm
    rw [← hraw] at hfeed
    refine Or.inl ⟨h.getLast?, hfeed, fun p hp hpre hne => ?_⟩
    obtain ⟨q, hq⟩ := hpre
    apply feed_head_part hs hn hknown hu hcalm hp _ (hq.trans hraw)
    rintro rfl
    exact hne (by simpa using hq)
  | @block name raw gap _ as f h hg hf hr =>
    have hn : IsName name := by obtain ⟨-, hn, -, -⟩ := h; exact hn
    obtain ⟨-, u, hu, hraw⟩ := h.eq_of_append (gap ++ f.raw) hn (by simpa using hp.symm)
    have hcalm : Tracker.calm 0 (u ++ [')']) = true :=
      Tracker.calm_of_part hquotes ⟨name ++ ['('], gap ++ f.raw, by simp [hraw]⟩
    have hfeed := feed_head hs hn hknown hu hcalm
    rw [← hraw] at hfeed
    have hgap : AllOf isGap gap := hg.mono fun c hc => by simp [isGap, hc]
    have hkeeps : sc.feed { mode := .afterCall raw 0 } (gap ++ f.raw) = _ :=
      (keeps_gap hgap raw).trans (keeps_block hf _)
    refine Or.inr ⟨Call.getLast?_block hf _ _, f.width, ?_⟩
    show sc.feed s (raw ++ (gap ++ f.raw)) = _
    rw [feed_append, hfeed, Outcome.andThen_of_no_fault _ rfl]
    simp only [hkeeps, List.append_nil, List.append_assoc]

/-- A call without a block may stand before blanks and a line end. -/
theorem read_append_gap {dropsTag : Bool} {c : Call} (hform : Call.Form dropsTag c [])
    (hlast : c.raw.getLast? = some ')') {w : Text} (hw : AllOf isGap w) :
    Call.read false dropsTag (c.raw ++ w) = .found c w := by
  refine Call.read_eq_found_iff.2 ⟨hform.change_rest (fun _ => ?_) (fun ht => ?_), rfl⟩
  · have hstart : startsWith (· == tick) (skipInline w) = false := by
      cases hskip : skipInline w with
      | nil => rfl
      | cons d t =>
        have hmem : d ∈ w := (Text.skipInline_suffix w).subset (hskip ▸ List.mem_cons_self)
        simpa using isGap_ne_tick (hw d hmem)
    rw [tickRun_eq_zero hstart]
    decide
  · rw [hlast] at ht
    exact absurd ht (by decide)

/-- Every text that reads as a call of a known tool, with the opening parenthesis right behind the
name and no three double quotes in a row, is reported as that call if it stands at the beginning of
a line: with the end of the line if it ends with its closing parenthesis, with the next character if
it ends with a block, and with the end of the stream.  The closing parenthesis is found just where
the call ends. -/
theorem feed_recognises (sc : Scanner) {c : Call} {s : Text}
    (hparse : Call.parse? false sc.read s = .ok (some c)) (hraw : c.raw = s)
    (hname : c.name ++ ['('] <+: s) (hknown : c.name ∈ sc.tools)
    (hquotes : ¬ Tracker.tripled <:+: s) (hc : sc.receive c = .ok ()) {st : State}
    (hst : st.mode = .text true) :
    (s.getLast? = some ')' →
      (∀ p, p ≠ [] → p <+: s → p ≠ s → (sc.feed st p).fault? = none ∧
        ((sc.feed st p).state.mode = .name p ∨ ∃ k, (sc.feed st p).state.mode = .call p k)) ∧
      sc.feed st s =
        { state := { mode := .afterCall s 0 }
          events := textEvents st.buffer ++ sc.statusEvents c.name } ∧
      ∀ w, AllOf isGap w →
        sc.feed st (s ++ (w ++ ['\n'])) =
          { state := {}
            events := textEvents st.buffer ++ sc.statusEvents c.name ++
              [.tool c, .text (w ++ ['\n'])] }) ∧
    (s.getLast? = some tick →
      ∀ ch, ch ≠ tick →
        sc.feed st (s ++ [ch]) =
          let o := sc.textStep { mode := .text false } false ch
          { o with
            events := textEvents st.buffer ++ sc.statusEvents c.name ++ .tool c :: o.events }) ∧
    ((sc.feed st s).andThen sc.finalize).fault? = none ∧
    ((sc.feed st s).andThen sc.finalize).state = {} ∧
    ((sc.feed st s).andThen sc.finalize).events =
      textEvents st.buffer ++ sc.statusEvents c.name ++ [.tool c] := by
  have hform := form_of_parse? hparse hraw
  subst hraw
  have hread : Call.read false sc.read.dropTag c.raw = .found c [] :=
    Call.read_eq_found_iff.2 ⟨hform, (List.append_nil _).symm⟩
  have hne : some ')' ≠ some tick := by decide
  rcases feed_call hform hname hknown hquotes hst with
    ⟨hlast, hfeed, hfront⟩ | ⟨hlast, width, hfeed⟩
  · refine ⟨fun _ => ⟨hfront, hfeed, fun w hw => ?_⟩, fun ht => ?_, ?_⟩
    · have hgap : sc.feed { mode := .afterCall c.raw 0 } w = _ := keeps_gap hw c.raw
      have hend : sc.step { mode := .afterCall (c.raw ++ w) 0 } '\n' =
          { state := {}, events := [.tool c, .text (w ++ ['\n'])] } := by
        show sc.complete _ (c.raw ++ w) '\n' = _
        rw [complete_of_found (read_append_gap hform hlast hw) hc, textStep_newline]
      have hrest : sc.feed { mode := .afterCall c.raw 0 } (w ++ ['\n']) =
          { state := {}, events := [.tool c, .text (w ++ ['\n'])] } := by
        rw [feed_concat, hgap, Outcome.andThen_state, hend]
      rw [feed_append, hfeed, Outcome.andThen_of_no_fault _ rfl]
      simp only [hrest, List.append_nil]
    · rw [hlast] at ht
      exact absurd ht hne
    · obtain ⟨hfault, hstate, hevents⟩ := finalize_of_found (Or.inl rfl) hread hc
      rw [hfeed, Outcome.andThen_of_no_fault _ rfl]
      exact ⟨hfault, hstate, by rw [← hevents]⟩
  · refine ⟨fun hp => ?_, fun _ ch hch => ?_, ?_⟩
    · rw [hlast] at hp
      exact absurd hp.symm hne
    · have hend : sc.step { mode := .content c.raw width width true } ch =
          sc.complete { mode := .content c.raw width width true } c.raw ch := by
        show sc.contentStep _ c.raw width width true ch = _
        simp [contentStep, hch]
      rw [feed_concat, hfeed, Outcome.andThen_of_no_fault _ rfl, hend,
        complete_of_found hread hc]
      simp
    · obtain ⟨hfault, hstate, hevents⟩ :=
        finalize_of_found (Or.inr ⟨width, rfl⟩) hread hc
      rw [hfeed, Outcome.andThen_of_no_fault _ rfl]
      exact ⟨hfault, hstate, by rw [← hevents]⟩

/-- A parenthesis in a string and one in a block do not end the call. -/
theorem feed_recognises_quoted_parens :
    let sc : Scanner := { tools := ["f".toList], status := true }
    let s := "f('a)', [1, \x7bk: ```)```\x7d])".toList
    ∃ c, Call.parse? false sc.read s = .ok (some c) ∧ c.raw = s ∧ c.name ++ ['('] <+: s ∧
      c.name ∈ sc.tools ∧ ¬ Tracker.tripled <:+: s ∧ sc.receive c = .ok () ∧
      s.getLast? = some ')' ∧
      sc.feed { buffer := " ".toList, size := 1 } (s ++ (" \r".toList ++ ['\n'])) =
        { state := {}
          events := [.text " ".toList, .status "f".toList, .tool c, .text " \r\n".toList] } := by
  intro sc s
  have hread : (Call.parse? false sc.read s).toOption.map (Option.map fun c => (c.raw, c.name)) =
      some (some (s, "f".toList)) := by decide +kernel
  obtain ⟨c, hparse, hraw, hcname⟩ :
      ∃ c, Call.parse? false sc.read s = .ok (some c) ∧ c.raw = s ∧ c.name = "f".toList := by
    match hp : Call.parse? false sc.read s with
    | .error e => simp [hp, Except.toOption] at hread
    | .ok none => simp [hp, Except.toOption] at hread
    | .ok (some c) =>
      rw [hp] at hread
      simp only [Except.toOption, Option.map_some, Option.some.injEq, Prod.mk.injEq] at hread
      exact ⟨c, rfl, hread⟩
  have hname : c.name ++ ['('] <+: s := by
    rw [hcname]
    decide
  have hknown : c.name ∈ sc.tools := by
    rw [hcname]
    decide
  have hquotes : ¬ Tracker.tripled <:+: s := by decide +kernel
  have hlast : s.getLast? = some ')' := rfl
  have hst : ({ buffer := " ".toList, size := 1 } : State).mode = .text true := rfl
  have h := feed_recognises sc hparse hraw hname hknown hquotes rfl hst
  have hfeed := (h.1 hlast).2.2 " \r".toList (by decide)
  rw [hcname] at hfeed
  exact ⟨c, hparse, hraw, hname, hknown, hquotes, rfl, hlast, hfeed⟩

end ToolCalls.Scanner

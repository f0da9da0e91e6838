import ToolCalls.Proofs.Scanner.Gating

/-!
# Scanners and readers agree on literals

A scanner follows strings and fences character by character: in a call by its tracker, and a block
behind a call by its mode.  Whatever text is fed, well-formed or not, the scanner leaves a literal
where the reader finds its end, and never if the reader finds none (`feed_tracks_literals`).

The stages of a literal stand between the two.  Where there is a next stage the scanner comes to it
with the next character: a tracker in a string (`Tracker.InString.step`), a tracker in a fence
(`Tracker.InFence.step`), and a mode behind a call (`step_stage`).  Each is lifted to texts once.
-/

namespace ToolCalls.Scanner

open Fence (Stage)
open Literal (startsWith isQuote escapes? readString)

/-! ## Reachable states -/

/-- The states that a scanner can come to with chunks and ends of streams, a fault or not. -/
inductive Reachable (sc : Scanner) : State → Prop where
  | start : Reachable sc {}
  | feed {s : State} (h : Reachable sc s) (t : Text) : Reachable sc (sc.feed s t).state
  | finalize {s : State} (h : Reachable sc s) : Reachable sc (sc.finalize s).state

/-- A parenthesis is open in a call. -/
def Mode.Unclosed : Mode → Prop
  | .call _ k => k.depth ≠ 0
  | _ => True

section Modes

variable (sc : Scanner) (s : State)

theorem mode_resolve (raw fallback : Text) :
    (sc.resolve s raw fallback).state.mode = .text false := by
  rw [resolve, Outcome.andThen_of_no_fault _ rfl]
  dsimp only
  split
  · split <;> rfl
  · rfl
  · rfl

theorem mode_textStep_false (c : Char) :
    ∃ lineStart, (sc.textStep s false c).state.mode = .text lineStart := by
  unfold textStep
  rw [Bool.false_and, if_neg Bool.false_ne_true]
  dsimp only
  split <;> exact ⟨_, rfl⟩

/-- A call that is complete is left, whatever it is read as. -/
theorem mode_complete (held : Text) (c : Char) :
    ∃ lineStart, (sc.complete s held c).state.mode = .text lineStart := by
  rw [complete]
  by_cases hf : (sc.resolve s held held).fault? = none
  · rw [Outcome.state_andThen hf]
    exact mode_textStep_false sc _ c
  · rw [Outcome.andThen_of_fault _ hf]
    exact ⟨false, mode_resolve sc s held held⟩

theorem unclosed_textStep (lineStart : Bool) (c : Char) :
    (sc.textStep s lineStart c).state.mode.Unclosed := by
  unfold textStep
  split
  · trivial
  · dsimp only
    split <;> trivial

theorem unclosed_complete (held : Text) (c : Char) :
    (sc.complete s held c).state.mode.Unclosed := by
  obtain ⟨lineStart, hmode⟩ := mode_complete sc s held c
  rw [hmode]
  trivial

end Modes

section Invariant

variable {sc : Scanner} {s : State}

theorem unclosed_callStep {k : Tracker} (hk : k.depth ≠ 0) (held : Text) (c : Char) :
    (callStep s held k c).state.mode.Unclosed := by
  unfold callStep
  dsimp only
  split
  · trivial
  · next hopen =>
    intro hdepth
    obtain ⟨-, he, hclosed⟩ := Tracker.closed_of_depth hk hdepth
    exact hopen (by rw [he, hclosed]; rfl)

theorem unclosed_step (hs : s.mode.Unclosed) (c : Char) : (sc.step s c).state.mode.Unclosed := by
  unfold step
  split
  · exact unclosed_textStep sc s _ c
  · unfold nameStep
    split
    · trivial
    · split
      · split
        · exact Nat.one_ne_zero
        · exact unclosed_textStep sc _ false c
      · exact unclosed_textStep sc _ false c
  · next held k hmode =>
    rw [hmode] at hs
    exact unclosed_callStep hs held c
  · unfold afterCallStep
    dsimp only
    split_ifs
    · trivial
    · trivial
    · exact unclosed_textStep sc _ false c
    · trivial
    · exact unclosed_complete sc s _ c
    · exact unclosed_textStep sc _ false c
  · unfold contentStep
    split_ifs
    · trivial
    · trivial
    · trivial
    · exact unclosed_complete sc s _ c
    · trivial

theorem unclosed_feed (hs : s.mode.Unclosed) (t : Text) : (sc.feed s t).state.mode.Unclosed := by
  induction t generalizing s with
  | nil => exact hs
  | cons c t ih =>
    rw [feed_cons]
    by_cases hf : (sc.step s c).fault? = none
    · rw [Outcome.state_andThen hf]
      exact ih (unclosed_step hs c)
    · rw [Outcome.andThen_of_fault _ hf]
      exact unclosed_step hs c

theorem unclosed_settle (hs : s.mode.Unclosed) : (sc.settle s).state.mode.Unclosed := by
  have hresolve (raw fallback : Text) : (sc.resolve s raw fallback).state.mode.Unclosed := by
    rw [mode_resolve]
    trivial
  unfold settle
  split
  · exact hs
  · exact hs
  · exact hresolve _ _
  · exact hresolve _ _
  · exact hresolve _ _

theorem unclosed_finalize (hs : s.mode.Unclosed) : (sc.finalize s).state.mode.Unclosed := by
  rw [finalize]
  by_cases hf : (s.flush.andThen sc.settle).fault? = none
  · rw [Outcome.state_andThen hf]
    trivial
  · rw [Outcome.andThen_of_fault _ hf, Outcome.state_andThen rfl]
    exact unclosed_settle (s := s.flush.state) hs

theorem Reachable.unclosed (h : Reachable sc s) : s.mode.Unclosed := by
  induction h with
  | start => trivial
  | feed h t ih => exact unclosed_feed ih t
  | finalize h ih => exact unclosed_finalize ih

end Invariant

/-! ## Texts in a call -/

/-- A text goes by as a part of the call, and the tracker behind it has a property. -/
def Holds (sc : Scanner) (s : State) (t : Text) (P : Tracker → Prop) : Prop :=
  ∃ k, sc.feed s t = { state := { s with mode := .call (s.pending ++ t) k } } ∧ P k

section Holds

variable {sc : Scanner} {s : State} {held t u : Text} {k : Tracker} {c : Char}
  {P Q : Tracker → Prop}

theorem Holds.mono (h : Holds sc s t P) (hpq : ∀ k, P k → Q k) : Holds sc s t Q := by
  obtain ⟨k, hfeed, hk⟩ := h
  exact ⟨k, hfeed, hpq k hk⟩

theorem Holds.nil (hm : s.mode = .call held k) (hk : P k) : Holds sc s [] P := by
  obtain ⟨buffer, size, m⟩ := s
  obtain rfl : m = .call held k := hm
  exact ⟨k, by simp [State.pending, Mode.held], hk⟩

theorem Holds.append (h : Holds sc s t P)
    (h' : ∀ k, P k → Holds sc { s with mode := .call (s.pending ++ t) k } u Q) :
    Holds sc s (t ++ u) Q := by
  obtain ⟨k, hfeed, hk⟩ := h
  obtain ⟨k', hfeed', hk'⟩ := h' k hk
  refine ⟨k', ?_, hk'⟩
  rw [feed_append, hfeed, Outcome.andThen_state, hfeed']
  simp [State.pending, Mode.held]

/-- A call goes on with every character that leaves a parenthesis open. -/
theorem step_of_depth (hm : s.mode = .call held k) (hd : (k.step c).depth ≠ 0) :
    sc.step s c = { state := { s with mode := .call (held ++ [c]) (k.step c) } } := by
  have hopen : ¬ (!k.escaped && (k.step c).closed) = true := by simp [Tracker.closed, hd]
  rw [step, hm]
  show callStep s held k c = _
  rw [callStep, if_neg hopen]

theorem Holds.char (hm : s.mode = .call held k) (hd : (k.step c).depth ≠ 0) (hk : P (k.step c)) :
    Holds sc s [c] P := by
  refine ⟨k.step c, ?_, hk⟩
  rw [feed_singleton, step_of_depth hm hd, State.pending, hm]
  rfl

/-- A tracker that comes from stage to stage with each character of a literal does so with a text
too. -/
theorem holds_of_foldlM {σ : Type} {next? : σ → Char → Option σ} (At : σ → Tracker → Prop)
    (hdepth : ∀ g k, At g k → k.depth ≠ 0)
    (hstep : ∀ g g' k c, At g k → next? g c = some g' → At g' (k.step c)) {g g' : σ}
    (hg : t.foldlM next? g = some g') (hm : s.mode = .call held k) (hk : At g k) :
    Holds sc s t (At g') := by
  induction t generalizing s held k g with
  | nil =>
    rw [List.foldlM_nil, Option.pure_def, Option.some.injEq] at hg
    exact Holds.nil hm (hg ▸ hk)
  | cons c t ih =>
    rw [List.foldlM_cons, Option.bind_eq_bind, Option.bind_eq_some_iff] at hg
    obtain ⟨g₁, hnext, hg⟩ := hg
    have hk₁ := hstep g g₁ k c hk hnext
    have hchar : Holds sc s [c] (At g₁) := Holds.char hm (hdepth _ _ hk₁) hk₁
    exact hchar.append fun k' hk' => ih hg rfl hk'

end Holds

/-- In a call, outside of strings and fences. -/
structure Outside (s : State) (held : Text) (k : Tracker) : Prop where
  mode : s.mode = .call held k
  depth : k.depth ≠ 0
  quote : k.quote = .none
  escaped : k.escaped = false
  ticks : k.ticks = 0

/-! ## Strings -/

namespace Tracker

variable {k : Tracker} {q c : Char} {depth : Nat}

/-- In a string, behind a backslash or not. -/
structure InString (q : Char) (depth : Nat) (escaped : Bool) (k : Tracker) : Prop where
  quote : k.quote = quoteOf q
  escaped : k.escaped = escaped
  depth : k.depth = depth

theorem quoteOf_ne_none (q : Char) : quoteOf q ≠ .none := by
  unfold quoteOf
  split <;> simp

theorem InString.step (hq : isQuote q = true) {e e' : Bool} (hk : InString q depth e k)
    (h : escapes? q e c = some e') : InString q depth e' (k.step c) := by
  unfold escapes? at h
  split_ifs at h with he hc hne
  · cases h
    rw [step_escaped (hk.escaped.trans he)]
    exact ⟨hk.quote, rfl, hk.depth⟩
  · cases h
    rw [hc, step_backslash hq hk.quote (hk.escaped.trans (Bool.eq_false_iff.2 he))]
    exact ⟨hk.quote, rfl, hk.depth⟩
  · cases h
    have hescaped := hk.escaped.trans (Bool.eq_false_iff.2 he)
    rw [step_in_string hq hc hne hk.quote hescaped]
    exact ⟨hk.quote, hescaped, hk.depth⟩

end Tracker

section Strings

variable {sc : Scanner} {s : State} {held : Text} {k : Tracker} {q : Char}

theorem Outside.holds_string (h : Outside s held k) (hq : isQuote q = true)
    (hdoubles : q = '\x22' → k.doubles ≠ 2) {p : Text} {e : Bool}
    (hp : p.foldlM (escapes? q) false = some e) :
    Holds sc s (q :: p) (Tracker.InString q k.depth e) := by
  have hopen : Holds sc s [q] (Tracker.InString q k.depth false) := by
    have hstep := Tracker.step_opening_quote hq hdoubles h.quote h.ticks h.escaped
    refine Holds.char h.mode ?_ ?_
    · rw [hstep]
      exact h.depth
    · rw [hstep]
      exact ⟨rfl, h.escaped, rfl⟩
  exact hopen.append fun k' hk' => holds_of_foldlM (Tracker.InString q k.depth)
    (fun _ _ hat => hat.depth ▸ h.depth) (fun _ _ _ _ hat hnext => hat.step hq hnext) hp rfl hk'

theorem Outside.holds_closed_string (h : Outside s held k) (hq : isQuote q = true)
    (hdoubles : q = '\x22' → k.doubles ≠ 2) {str body : Text} (hbody : Literal.Quoted q str body) :
    Holds sc s (q :: (body ++ [q])) fun k => k.quote = .none := by
  have hinside : Holds sc s (q :: body) (Tracker.InString q k.depth false) :=
    h.holds_string hq hdoubles (Literal.foldlM_escapes_of_quoted hbody)
  refine hinside.append (u := [q]) fun k' hk' => ?_
  have hstep := Tracker.step_closing_quote hq hk'.quote hk'.escaped
  refine Holds.char rfl ?_ ?_
  · rw [hstep]
    exact hk'.depth ▸ h.depth
  · rw [hstep]

/-- The quote state comes back to none with the last character of the string that is read from the
text, and not at all if none is read. -/
structure TracksString (sc : Scanner) (s : State) (t : Text) : Prop where
  found : ∀ v rest, readString t = .found v rest → t = v.raw ++ rest ∧
    ∀ p, p ≠ [] → p <+: v.raw → Holds sc s p fun k => k.quote = .none ↔ p = v.raw
  absent : (∀ v rest, readString t ≠ .found v rest) →
    ∀ p, p ≠ [] → p <+: t → Holds sc s p fun k => k.quote ≠ .none

theorem Outside.tracksString (h : Outside s held k) (hq : isQuote q = true)
    (hdoubles : q = '\x22' → k.doubles ≠ 2) (u : Text) : TracksString sc s (q :: u) := by
  constructor
  · intro v rest hread
    obtain ⟨str, body, hbody, rfl, rfl⟩ := (Literal.readString_cons_eq_found_iff hq).1 hread
    refine ⟨by simp [Value.raw], fun p hne hp => ?_⟩
    obtain ⟨c, p, rfl⟩ := List.exists_cons_of_ne_nil hne
    obtain ⟨rfl, hp'⟩ := List.cons_prefix_cons.1 hp
    rcases List.prefix_concat_iff.1 hp' with rfl | hp'
    · exact (h.holds_closed_string hq hdoubles hbody).mono fun k' hk' => iff_of_true hk' rfl
    · obtain ⟨e, he⟩ :=
        Text.exists_foldlM_of_prefix (Literal.foldlM_escapes_of_quoted hbody) hp'
      refine (h.holds_string hq hdoubles he).mono fun k' hk' => iff_of_false ?_ ?_
      · rw [hk'.quote]
        exact Tracker.quoteOf_ne_none _
      · -- the closing quote is missing
        intro heq
        have hlen := hp'.length_le
        have hlen' := congrArg List.length heq
        simp [Value.raw] at hlen'
        omega
  · intro hnone p hne hp
    obtain ⟨c, p, rfl⟩ := List.exists_cons_of_ne_nil hne
    obtain ⟨rfl, hp'⟩ := List.cons_prefix_cons.1 hp
    have hunquote : Literal.unquote? c u = none := by
      rw [Option.eq_none_iff_forall_ne_some]
      rintro ⟨str, rest⟩ hsome
      obtain ⟨body, hbody, hu⟩ := Literal.quoted_of_unquote? hsome
      exact hnone _ _ ((Literal.readString_cons_eq_found_iff hq).2 ⟨str, body, hbody, rfl, hu⟩)
    obtain ⟨e, hstages⟩ := Literal.exists_escapes_of_unquote?_eq_none hunquote
    obtain ⟨e', he'⟩ := Text.exists_foldlM_of_prefix hstages hp'
    refine (h.holds_string hq hdoubles he').mono fun k' hk' => ?_
    rw [hk'.quote]
    exact Tracker.quoteOf_ne_none _

end Strings

/-! ## Fences in a call -/

namespace Tracker

variable {k : Tracker} {c : Char} {depth : Nat} {g g' : Stage}

/-- A tracker that has come to a stage of a fence. -/
inductive AtStage (k : Tracker) : Stage → Prop where
  | opening (h : k.quote = .none) : AtStage k (.opening k.ticks)
  | body (h : k.quote = .fence) : AtStage k (.body k.fence k.ticks)

structure InFence (depth : Nat) (g : Stage) (k : Tracker) : Prop where
  stage : k.AtStage g
  escaped : k.escaped = false
  depth : k.depth = depth

theorem AtStage.quote_eq_fence_iff (h : k.AtStage g) : k.quote = .fence ↔ g.opened = true := by
  cases h with
  | opening h => simp [h, Stage.opened]
  | body h => simp [h, Stage.opened]

/-- Behind the closing run. -/
theorem AtStage.of_body {width : Nat} (h : k.AtStage (.body width width)) :
    k.quote = .fence ∧ k.ticks = k.fence := by
  generalize hg : Stage.body width width = g at h
  cases h with
  | opening h => cases hg
  | body h =>
    obtain ⟨hfence, hticks⟩ := Stage.body.inj hg
    exact ⟨h, hticks.symm.trans hfence⟩

theorem InFence.step (hk : InFence depth g k) (h : g.next? c = some g') :
    InFence depth g' (k.step c) := by
  obtain ⟨hstage, he, hd⟩ := hk
  cases hstage with
  | opening hquote =>
    rw [Stage.next?] at h
    split_ifs at h with hc hw
    · cases h
      rw [hc, step_tick hquote he]
      exact ⟨.opening hquote, he, hd⟩
    · cases h
      rw [step_opening_run hc hquote hw he]
      exact ⟨.body rfl, he, hd⟩
  | body hquote =>
    rw [Stage.next?] at h
    split_ifs at h with hc hrun
    · cases h
      rw [hc, step_tick_in_fence hquote he]
      exact ⟨.body hquote, he, hd⟩
    · cases h
      rw [step_char_in_fence hc hquote hrun he]
      exact ⟨.body hquote, he, hd⟩

/-- No fence begins with a single character. -/
theorem quote_step_ne_fence (hk : k.quote = .none) (ht : k.ticks = 0) (he : k.escaped = false)
    (c : Char) : (k.step c).quote ≠ .fence := by
  have hstep : (k.step c).quote = (k.outside c).quote := by
    simp [step, plainStep, hk, ht, he]
  rw [hstep]
  unfold outside
  split_ifs <;> simp [hk]

end Tracker

section Fences

variable {sc : Scanner} {s : State} {held : Text} {k : Tracker}

theorem Outside.holds_fence (h : Outside s held k) {p : Text} {g : Stage}
    (hp : Stage.of? p = some g) : Holds sc s p (Tracker.InFence k.depth g) := by
  have hbegin : Tracker.InFence k.depth (.opening 0) k :=
    ⟨h.ticks ▸ .opening h.quote, h.escaped, rfl⟩
  exact holds_of_foldlM (Tracker.InFence k.depth) (fun _ _ hat => hat.depth ▸ h.depth)
    (fun _ _ _ _ hat hnext => hat.step hnext) hp h.mode hbegin

/-- The quote state in a text that has come to some stage of a fence. -/
theorem Outside.holds_quote (h : Outside s held k) {p t : Text} (hp : p <+: t) {g : Stage}
    (hg : Stage.of? t = some g) :
    Holds sc s p fun k => k.quote = .fence ↔ tickRun t < p.length := by
  obtain ⟨g', hg'⟩ := Text.exists_foldlM_of_prefix hg hp
  refine (h.holds_fence hg').mono fun k' hk' => ?_
  rw [hk'.stage.quote_eq_fence_iff, Stage.opened_iff hp hg']

/-- The quote state is that of a fence from the first character behind the opening run on, up to the
end of the fence that is read from the text, or for ever if none is read.  The character behind the
fence is tracked as if it stood outside of all literals. -/
structure TracksFence (sc : Scanner) (s : State) (t : Text) : Prop where
  found : ∀ f rest, Fence.read? t = some (f, rest) → t = f.raw ++ rest ∧
    ∀ p, p <+: f.raw → Holds sc s p fun k => k.quote = .fence ↔ f.width < p.length
  behind : ∀ f c rest, Fence.read? t = some (f, c :: rest) → Holds sc s f.raw fun k =>
    sc.feed s (f.raw ++ [c]) = sc.step { s with
      mode := .call (s.pending ++ f.raw) { k with quote := .none, ticks := 0 } } c ∧
    (k.step c).quote ≠ .fence
  absent : Fence.read? t = none →
    ∀ p, p <+: t → Holds sc s p fun k => k.quote = .fence ↔ tickRun t < p.length

theorem Outside.tracksFence (h : Outside s held k) {t : Text} (hw : minTicks ≤ tickRun t) :
    TracksFence sc s t := by
  constructor
  · intro f rest hread
    obtain ⟨hf, hsplit, -⟩ := Fence.read?_eq_some_iff.1 hread
    refine ⟨hsplit, fun p hp => ?_⟩
    have hwidth := Fence.tickRun_raw hf []
    rw [List.append_nil] at hwidth
    rw [← hwidth]
    exact h.holds_quote hp (Stage.of?_raw hf)
  · intro f c rest hread
    obtain ⟨hf, -, hstop⟩ := Fence.read?_eq_some_iff.1 hread
    have hc : c ≠ tick := by simpa using hstop
    have hinside : Holds sc s f.raw _ := h.holds_fence (Stage.of?_raw hf)
    obtain ⟨k', hfeed, hk'⟩ := hinside
    obtain ⟨hquote, hrun⟩ := hk'.stage.of_body
    have hstep := Tracker.step_behind_fence hc hquote hrun hk'.escaped
    refine ⟨k', hfeed, ?_, ?_⟩
    · rw [feed_concat, hfeed, Outcome.andThen_state]
      show callStep _ _ k' c = callStep _ _ { k' with quote := .none, ticks := 0 } c
      rw [callStep, callStep, hstep]
    · rw [hstep]
      exact Tracker.quote_step_ne_fence (k := { k' with quote := .none, ticks := 0 }) rfl rfl
        hk'.escaped c
  · intro hread p hp
    obtain ⟨g, hg⟩ := Stage.exists_of_read?_eq_none hw hread
    exact h.holds_quote hp hg

end Fences

/-! ## Blocks behind a call -/

/-- A text goes by behind a call, from the third character on as a part of its block. -/
structure EntersBlock (sc : Scanner) (s : State) (t : Text) : Prop where
  before : t.length < minTicks →
    sc.feed s t = { state := { s with mode := .afterCall (s.pending ++ t) t.length } }
  inside : minTicks ≤ t.length → ∃ width run opened,
    sc.feed s t = { state := { s with mode := .content (s.pending ++ t) width run opened } }

/-- The block behind a call is entered with the third backtick.  It is left with the first character
behind the fence that is read from the text, and not at all if none is read. -/
structure TracksBlock (sc : Scanner) (s : State) (t : Text) : Prop where
  found : ∀ f rest, Fence.read? t = some (f, rest) → t = f.raw ++ rest ∧
    ∀ p, p <+: f.raw → EntersBlock sc s p
  behind : ∀ f c rest, Fence.read? t = some (f, c :: rest) →
    ∃ lineStart, (sc.feed s (f.raw ++ [c])).state.mode = .text lineStart
  absent : Fence.read? t = none → ∀ p, p <+: t → EntersBlock sc s p

theorem entersBlock_of_stage {sc : Scanner} {s : State} {held p : Text}
    (hm : s.mode = .afterCall held 0) {g : Stage} (hg : Stage.of? p = some g) :
    EntersBlock sc s p := by
  have hbegin : s.mode = stageMode held (.opening 0) := hm
  have hfeed : sc.feed s p = _ := feed_stage hbegin hg
  have hreached : g.Reached p := Stage.Reached.foldlM (g := .opening 0) (u := []) rfl hg
  have hheld : s.pending = held := by
    rw [State.pending, hm]
    rfl
  rw [← hheld] at hfeed
  cases g with
  | opening run =>
    have hlen : p.length = run := by
      obtain rfl : p = ticks run := hreached
      exact List.length_replicate
    constructor
    · intro hlt
      rw [hfeed, stageMode, if_pos (hlen ▸ hlt), hlen]
    · intro hle
      rw [hfeed, stageMode, if_neg (Nat.not_lt.2 (hlen ▸ hle))]
      exact ⟨_, _, _, rfl⟩
  | body width run =>
    obtain ⟨hw, c, v, -, rfl⟩ := hreached
    constructor
    · intro hlt
      simp [ticks] at hlt
      omega
    · intro _
      exact ⟨_, _, _, hfeed⟩

theorem tracksBlock_of_ticks {sc : Scanner} {s : State} {held : Text}
    (hm : s.mode = .afterCall held 0) {t : Text} (hw : minTicks ≤ tickRun t) :
    TracksBlock sc s t := by
  have henters {p u : Text} (hp : p <+: u) {g : Stage} (hg : Stage.of? u = some g) :
      EntersBlock sc s p := by
    obtain ⟨g', hg'⟩ := Text.exists_foldlM_of_prefix hg hp
    exact entersBlock_of_stage hm hg'
  constructor
  · intro f rest hread
    obtain ⟨hf, hsplit, -⟩ := Fence.read?_eq_some_iff.1 hread
    exact ⟨hsplit, fun p hp => henters hp (Stage.of?_raw hf)⟩
  · intro f c rest hread
    obtain ⟨hf, -, hstop⟩ := Fence.read?_eq_some_iff.1 hread
    have hc : c ≠ tick := by simpa using hstop
    have hbegin : s.mode = stageMode held (.opening 0) := hm
    have hfeed : sc.feed s f.raw = _ := feed_stage hbegin (Stage.of?_raw hf)
    rw [feed_concat, hfeed, Outcome.andThen_state]
    have hstep (s' : State) (held' : Text) :
        sc.contentStep s' held' f.width f.width true c = sc.complete s' held' c := by
      simp [contentStep, hc]
    show ∃ lineStart, (sc.contentStep _ _ f.width f.width true c).state.mode = .text lineStart
    rw [hstep]
    exact mode_complete sc _ _ c
  · intro hread p hp
    obtain ⟨g, hg⟩ := Stage.exists_of_read?_eq_none hw hread
    exact henters hp hg

/-! ## The scanner and the readers -/

/-- In every state that a scanner can come to, it leaves a string, a fence and a block where the
readers find their ends, whatever text is fed. -/
theorem feed_tracks_literals {sc : Scanner} {s : State} (hs : Reachable sc s) (t : Text) :
    (∀ held k, s.mode = .call held k → k.quote = .none → k.escaped = false → k.ticks = 0 →
      (startsWith (· == '\x27') t = true ∨ startsWith (· == '\x22') t = true ∧ k.doubles ≠ 2 →
        TracksString sc s t) ∧
      (minTicks ≤ tickRun t → TracksFence sc s t)) ∧
    ∀ held, s.mode = .afterCall held 0 → minTicks ≤ tickRun t → TracksBlock sc s t := by
  refine ⟨fun held k hm hk he ht => ?_, fun held hm hw => tracksBlock_of_ticks hm hw⟩
  have hd : k.depth ≠ 0 := by
    have hunclosed := hs.unclosed
    rwa [hm] at hunclosed
  have houtside : Outside s held k := ⟨hm, hd, hk, he, ht⟩
  refine ⟨fun hstart => ?_, fun hw => houtside.tracksFence hw⟩
  rcases hstart with hstart | ⟨hstart, hdoubles⟩
  · obtain ⟨q, u, rfl, hq⟩ := Text.exists_cons_of_startsWith hstart
    obtain rfl : q = '\x27' := by simpa using hq
    exact houtside.tracksString rfl (fun h => absurd h (by decide)) u
  · obtain ⟨q, u, rfl, hq⟩ := Text.exists_cons_of_startsWith hstart
    obtain rfl : q = '\x22' := by simpa using hq
    exact houtside.tracksString rfl (fun _ => hdoubles) u

/-- An escaped quote and a parenthesis do not end a string, a shorter run does not end a fence, and
a string that is broken off is not left. -/
theorem feed_tracks_literals_inside :
    let sc : Scanner := { tools := ["f".toList] }
    let call : State := { mode := .call "f((".toList { depth := 2 } }
    let closed : State := { mode := .afterCall "f()".toList 0 }
    Reachable sc call ∧ Reachable sc closed ∧
      Holds sc call "\x22a\\\x22)\x22".toList (fun k => k.quote = .none) ∧
      Holds sc call "'b\\'".toList (fun k => k.quote ≠ .none) ∧
      Holds sc call "```a``)```".toList (fun k => k.quote = .fence) ∧
      Holds sc call "```a``)```".toList (fun k => (k.step ')').quote ≠ .fence) ∧
      ∃ lineStart, (sc.feed closed "````a```b````\n".toList).state.mode = .text lineStart := by
  intro sc call closed
  have hcall : Reachable sc call := .feed .start "f((".toList
  have hclosed : Reachable sc closed := .feed .start "f()".toList
  have htracks (t : Text) := (feed_tracks_literals hcall t).1 _ _ rfl rfl rfl rfl
  have hstring := (htracks "\x22a\\\x22)\x22 c".toList).1 (Or.inr ⟨rfl, by decide⟩)
  have hbroken := (htracks "'b\\'".toList).1 (Or.inl rfl)
  have hfence := (htracks "```a``)```)".toList).2 (by decide)
  have hblock := (feed_tracks_literals hclosed "````a```b````\n".toList).2 _ rfl (by decide)
  have hread : Fence.read? "```a``)```)".toList =
      some ({ width := 3, body := "a``)".toList }, [')']) := by decide
  refine ⟨hcall, hclosed, ?_, ?_, ?_, ?_, ?_⟩
  · have hquoted : Literal.Quoted '\x22' "a\x22)".toList "a\\\x22)".toList :=
      .plain (by decide) (by decide) (.escape .quote (.plain (by decide) (by decide) .nil))
    have hfound : readString "\x22a\\\x22)\x22 c".toList =
        .found (.string "a\x22)".toList "\x22a\\\x22)\x22".toList) " c".toList :=
      (Literal.readString_cons_eq_found_iff rfl).2 ⟨_, _, hquoted, rfl, rfl⟩
    have hholds := (hstring.found _ _ hfound).2 _ (by decide) (List.prefix_refl _)
    exact hholds.mono fun k hk => hk.2 rfl
  · have hnone : readString "'b\\'".toList = .absent [] := rfl
    refine hbroken.absent (fun v rest => ?_) _ (by decide) (List.prefix_refl _)
    rw [hnone]
    exact nofun
  · exact ((hfence.found _ _ hread).2 _ (List.prefix_refl _)).mono fun k hk => hk.2 (by decide)
  · exact (hfence.behind _ _ _ hread).mono fun k hk => hk.2
  · exact hblock.behind { width := 4, body := "a```b".toList } '\n' [] (by decide)

end ToolCalls.Scanner

import ToolCalls.Proofs.Scanner.Literals

/-!
# What is in which buffer

A scanner has a buffer for plain text, one for a name and one for a call, and registers for what it
has seen of a call.  `Registers.Sound` says which buffer may hold something in which mode, and what
the registers may then show.  In particular plain text is held back only in plain text, in no more
characters than the threshold allows and never with a line end at its end.

Most of this is known of the state that the registers follow (`Held`, `Gated`, `Mode.Unclosed`).
What is left is the size of the plain text, `State.Measured`, and the tracker in a call and right
behind it, `Registers.Tracked`; both are kept by every step.
-/

namespace ToolCalls.Scanner

open Literal (IsName)

/-! ## Plain text -/

/-- The size is recorded, no larger than the threshold, and no line end is held back. -/
structure State.Measured (threshold : Nat) (s : State) : Prop where
  size_eq : s.size = s.buffer.length
  size_le : s.size ≤ threshold
  last : s.buffer.getLast? ≠ some '\n'

section Measured

variable {sc : Scanner} {s : State} {c : Char}

/-- A character of plain text is the only thing that is checked against the threshold, so all that
is asked of the text before it is that its size was recorded. -/
theorem measured_textStep (hs : s.size = s.buffer.length) (lineStart : Bool) (c : Char) :
    (sc.textStep s lineStart c).state.Measured sc.scan.flushThreshold := by
  have hempty (m : Mode) : State.Measured sc.scan.flushThreshold ⟨[], 0, m⟩ :=
    ⟨rfl, Nat.zero_le _, by simp⟩
  unfold textStep
  split
  · exact hempty _
  · dsimp only
    split
    · exact hempty _
    · next hkeep =>
      obtain ⟨hline, hsize⟩ := not_or.1 hkeep
      change ¬ sc.scan.flushThreshold < s.size + [c].length at hsize
      refine ⟨?_, ?_, ?_⟩
      · simp [State.append, hs]
      · show s.size + [c].length ≤ sc.scan.flushThreshold
        omega
      · simp [State.append, hline]

theorem size_resolve {raw fallback : Text} (h : (sc.resolve s raw fallback).fault? = none) :
    (sc.resolve s raw fallback).state.size = (sc.resolve s raw fallback).state.buffer.length := by
  obtain ⟨call, rest, -, -, heq⟩ | ⟨rest, -, heq⟩ := resolve_cases h
  · rw [heq]
  · rw [heq]
    rfl

theorem measured_step (hs : s.Measured sc.scan.flushThreshold)
    (hf : (sc.step s c).fault? = none) :
    (sc.step s c).state.Measured sc.scan.flushThreshold := by
  obtain ⟨a, -, hstep⟩ := step_cases sc s c
  rw [hstep] at hf ⊢
  cases a with
  | text lineStart => exact measured_textStep hs.size_eq lineStart c
  | hold next => exact ⟨hs.size_eq, hs.size_le, hs.last⟩
  | opening name => exact ⟨hs.size_eq, hs.size_le, hs.last⟩
  | leave held notes =>
    apply measured_textStep
    simp [State.append, hs.size_eq]
  | complete held =>
    rw [perform, complete] at hf ⊢
    have hresolve := (Outcome.fault?_andThen_eq_none_iff.1 hf).1
    rw [Outcome.state_andThen hresolve]
    exact measured_textStep (size_resolve hresolve) false c

theorem measured_feed {t : Text} (h : (sc.feed {} t).fault? = none) :
    (sc.feed {} t).state.Measured sc.scan.flushThreshold := by
  apply feed_invariant (State.Measured sc.scan.flushThreshold) _ _ h
  · exact fun s c hs hc => measured_step hs hc
  · exact ⟨rfl, Nat.zero_le _, by simp⟩

/-- Nothing of the plain text is held back once a name has begun. -/
theorem Gated.buffer_eq_nil {fed : Text} {events : List Event} (h : Gated sc fed events s)
    (hmode : ∀ lineStart, s.mode ≠ .text lineStart) : s.buffer = [] := by
  obtain ⟨buffer, size, m⟩ := s
  cases m with
  | text lineStart => exact absurd rfl (hmode lineStart)
  | name held => exact h.1
  | call held k => exact h.1
  | afterCall held run => exact h.1
  | content held width run opened => exact h.1

end Measured

/-! ## The tracker -/

/-- Whether the quotes are those of a string. -/
def Quote.isString : Quote → Bool
  | single | double | triple => true
  | none | fence => false

namespace Tracker

variable {k : Tracker} {c : Char}

theorem escaped_outside (k : Tracker) (c : Char) : (k.outside c).escaped = k.escaped := by
  unfold outside
  split_ifs <;> rfl

theorem isString_of_escaped_inString (hk : k.quote.isString = true) (he : k.escaped = false)
    (h : (k.inString c).escaped = true) : (k.inString c).quote.isString = true := by
  unfold inString at h ⊢
  by_cases hc : c = '\\'
  · rw [if_pos hc]
    exact hk
  · -- no other character is a backslash
    rw [if_neg hc] at h
    have hkeep : k.escaped = true := by
      revert h
      dsimp only
      repeat' split
      all_goals exact id
    rw [he] at hkeep
    cases hkeep

/-- A backslash goes by in a string, and the string goes on. -/
theorem isString_of_escaped_step (h : (k.step c).escaped = true) :
    (k.step c).quote.isString = true := by
  unfold step at h ⊢
  by_cases he : k.escaped = true
  · rw [if_pos he] at h
    cases h
  · rw [if_neg he] at h ⊢
    have hfalse : k.escaped = false := Bool.eq_false_iff.2 he
    have hunescaped (k' : Tracker) (hk : k'.escaped = false) : (k'.outside c).escaped ≠ true := by
      rw [escaped_outside, hk]
      exact Bool.false_ne_true
    change (k.plainStep c).escaped = true at h
    show (k.plainStep c).quote.isString = true
    unfold plainStep at h ⊢
    cases hq : k.quote with
    | none =>
      rw [hq] at h
      dsimp only at h
      unfold afterTicks at h
      split_ifs at h
      · exact absurd h (hunescaped k hfalse)
      · exact absurd h he
      · exact absurd h he
      · exact absurd h (hunescaped _ hfalse)
    | fence =>
      rw [hq] at h
      dsimp only at h
      unfold inFence at h
      split_ifs at h
      · exact absurd h he
      · exact absurd h (hunescaped _ hfalse)
      · exact absurd h he
    | single =>
      rw [hq] at h
      exact isString_of_escaped_inString (by rw [hq]; rfl) hfalse h
    | double =>
      rw [hq] at h
      exact isString_of_escaped_inString (by rw [hq]; rfl) hfalse h
    | triple =>
      rw [hq] at h
      exact isString_of_escaped_inString (by rw [hq]; rfl) hfalse h

end Tracker

namespace Registers

/-- The tracker waits for an escaped character only in a string, and behind the closing parenthesis
it shows that the call is closed. -/
def Tracked (r : Registers) : Prop :=
  match r.phase with
  | .call => r.tracker.escaped = true → r.tracker.quote.isString = true
  | .afterCall => r.tracker.closed = true
  | .text | .name | .content => True

section Tracked

variable {sc : Scanner} {r : Registers} {s : State} {c : Char}

theorem tracked_textChar (h : r.phase = .text) (sc : Scanner) (c : Char) :
    (textChar sc r c).Tracked := by
  have hphase : (textChar sc r c).phase = .name ∨ (textChar sc r c).phase = .text := by
    unfold textChar
    split
    · exact Or.inl rfl
    · right
      dsimp only
      split <;> exact h
  unfold Tracked
  rcases hphase with hphase | hphase
  · rw [hphase]
    trivial
  · rw [hphase]
    trivial

theorem tracked_complete (sc : Scanner) (r : Registers) (c : Char) :
    (r.complete sc c).Tracked := by
  unfold complete
  dsimp only
  split
  · exact tracked_textChar rfl sc c
  · exact tracked_textChar rfl sc c

theorem Tracked.afterCallChar {t held : Text} {n : Nat} {k : Tracker} (hk : k.closed = true) :
    (afterCallChar sc
      { text := t, size := n, call := held, phase := .afterCall, lineStart := false,
        tracker := k } c).Tracked := by
  unfold Registers.afterCallChar
  dsimp only
  split_ifs
  · trivial
  · exact hk
  · exact tracked_textChar rfl sc c
  · exact hk
  · exact tracked_complete sc _ c
  · exact tracked_textChar rfl sc c

/-- Registers that follow a state go on tracking.  That they follow one matters for names: a call
begins with a tracker at rest. -/
theorem Tracked.next (h : r.Tracked) (hr : r.Follows s) (c : Char) : (next sc r c).Tracked := by
  cases hr with
  | text t n lineStart => exact tracked_textChar rfl sc c
  | name t n held =>
    show (nameChar sc _ c).Tracked
    unfold nameChar
    split_ifs
    · trivial
    · exact fun hescaped => absurd hescaped Bool.false_ne_true
    · exact tracked_textChar rfl sc c
  | call t n held k =>
    show (callChar _ c).Tracked
    unfold callChar
    dsimp only
    split
    · next hclosed => exact (Bool.and_eq_true_iff.1 hclosed).2
    · exact Tracker.isString_of_escaped_step
  | afterCall t n held k => exact Tracked.afterCallChar h
  | content t n held k opened =>
    show (contentChar sc _ c).Tracked
    unfold contentChar
    split_ifs
    · trivial
    · trivial
    · trivial
    · exact tracked_complete sc _ c
    · trivial

theorem tracked_run {t : Text} (h : (sc.feed {} t).fault? = none) : (run sc t).Tracked := by
  induction t using List.reverseRecOn with
  | nil => trivial
  | append_singleton t c ih =>
    obtain ⟨ht, -⟩ := fault?_feed_append h
    rw [run, List.foldl_append]
    exact (ih ht).next (follows_run ht) c

end Tracked

/-! ## All registers -/

/-- What the registers of a scanner hold in which mode. -/
structure Sound (threshold : Nat) (r : Registers) : Prop where
  name_iff : r.name ≠ [] ↔ r.phase = .name
  isName : r.phase = .name → IsName r.name
  call_iff : r.call ≠ [] ↔ r.phase = .call ∨ r.phase = .afterCall ∨ r.phase = .content
  text : r.text ≠ [] → r.phase = .text
  size_eq : r.size = r.text.length
  size_le : r.size ≤ threshold
  last : r.text.getLast? ≠ some '\n'
  depth : r.phase = .call → 1 ≤ r.tracker.depth
  escaped : r.phase = .call → r.tracker.escaped = true → r.tracker.quote.isString = true
  closed : r.phase = .afterCall →
    r.tracker.depth = 0 ∧ r.tracker.quote = .none ∧ r.tracker.ticks ≤ 2
  fence : r.phase = .content → 3 ≤ r.tracker.fence

/-- What is known of the state and of the tracker is known of all registers. -/
theorem Follows.sound {threshold : Nat} {r : Registers} {s : State} (h : r.Follows s)
    (hheld : Held s.mode) (hopen : s.mode.Unclosed) (hmeasured : s.Measured threshold)
    (hbuffer : (∀ lineStart, s.mode ≠ .text lineStart) → s.buffer = []) (htracked : r.Tracked) :
    r.Sound threshold := by
  obtain ⟨hsize, hle, hlast⟩ := hmeasured
  cases h with
  | text t n lineStart =>
    constructor
    case size_eq => exact hsize
    case size_le => exact hle
    case last => exact hlast
    all_goals simp
  | name t n held =>
    cases hheld with
    | name hn =>
      obtain rfl : t = [] := hbuffer (by simp)
      have hne : held ≠ [] := by
        rintro rfl
        exact absurd hn.start (by decide)
      constructor
      case isName => exact fun _ => hn
      case size_eq => exact hsize
      case size_le => exact hle
      all_goals simp [hne]
  | call t n held k =>
    obtain rfl : t = [] := hbuffer (by simp)
    have hne : held ≠ [] := by
      cases hheld
      simp
    constructor
    case size_eq => exact hsize
    case size_le => exact hle
    case depth => exact fun _ => Nat.one_le_iff_ne_zero.2 hopen
    case escaped => exact fun _ => htracked
    all_goals simp [hne]
  | afterCall t n held k =>
    obtain rfl : t = [] := hbuffer (by simp)
    obtain ⟨hne, hticks⟩ : held ≠ [] ∧ k.ticks < minTicks := by
      generalize k.ticks = run at hheld
      cases hheld with
      | afterCall hn hp hw hr => exact ⟨by simp, hr⟩
    have hclosed : k.depth = 0 ∧ k.quote = .none := by
      simpa [Tracked, Tracker.closed] using htracked
    constructor
    case size_eq => exact hsize
    case size_le => exact hle
    case closed => exact fun _ => ⟨hclosed.1, hclosed.2, Nat.le_of_lt_succ hticks⟩
    all_goals simp [hne]
  | content t n held k opened =>
    obtain rfl : t = [] := hbuffer (by simp)
    obtain ⟨hne, hfence⟩ : held ≠ [] ∧ minTicks ≤ k.fence := by
      generalize k.fence = width at hheld
      cases hheld with
      | content hn hp hw hwidth hlast hopen => exact ⟨by simp, hwidth⟩
    constructor
    case size_eq => exact hsize
    case size_le => exact hle
    case fence => exact fun _ => hfence
    all_goals simp [hne]

end Registers

/-- After every character of a stream, however it is cut, the registers of a scanner show its state
and hold what they may hold in its mode. -/
theorem feedChunks_registers_sound (sc : Scanner) {chunks : List Text}
    (hf : (sc.feedChunks {} chunks).fault? = none) {fed : Text} (hfed : fed <+: chunks.flatten) :
    (Registers.run sc fed).Follows (sc.feed {} fed).state ∧
      (Registers.run sc fed).Sound sc.scan.flushThreshold := by
  obtain ⟨rest, hrest⟩ := hfed
  rw [feedChunks_eq_feed, ← hrest] at hf
  have h := (fault?_feed_append hf).1
  have hfollows := Registers.follows_run h
  refine ⟨hfollows, ?_⟩
  apply hfollows.sound (held_feed h) (unclosed_feed (s := {}) trivial fed) (measured_feed h)
  · exact (gated_feed h).buffer_eq_nil
  · exact Registers.tracked_run h

/-- A backslash in a string of a call, behind a line that was longer than the threshold. -/
theorem feedChunks_registers_sound_escape :
    let sc : Scanner := { tools := ["f".toList], scan := { flushThreshold := 2 } }
    let chunks := ["abcd\nf(".toList, "'\\')) x".toList]
    let fed := "abcd\nf('\\".toList
    (sc.feedChunks {} chunks).fault? = none ∧ fed <+: chunks.flatten ∧
      (Registers.run sc fed).phase = .call ∧ (Registers.run sc fed).tracker.escaped = true ∧
      (Registers.run sc fed).tracker.quote = .single ∧ (Registers.run sc fed).Sound 2 := by
  intro sc chunks fed
  have hf : (sc.feedChunks {} chunks).fault? = none := by decide +kernel
  have hfed : fed <+: chunks.flatten := ⟨"')) x".toList, rfl⟩
  refine ⟨hf, hfed, ?_, ?_, ?_, (feedChunks_registers_sound sc hf hfed).2⟩
  all_goals decide +kernel

end ToolCalls.Scanner

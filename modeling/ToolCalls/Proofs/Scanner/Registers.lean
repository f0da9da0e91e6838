import ToolCalls.Proofs.Scanner.Actions

/-!
# Scanners with registers

A mode keeps just what is needed in it.  A scanner can also be run on a fixed set of registers that
every mode shares: then each register keeps its value until something sets it again, and whatever is
left over from a call, an abort or a rejection is still there when the next call begins.

Nothing is left over.  `Registers.Follows` says which registers are at rest in which mode of the
scanner's state, and `follows_run` that registers which start at rest follow the state in every run.
-/

namespace ToolCalls.Scanner

/-- Which mode a scanner is in. -/
inductive Phase where
  | text
  | name
  | call
  | afterCall
  | content
deriving DecidableEq, Repr

/-- What a tracker is between two calls. -/
def idle : Tracker := { depth := 0 }

/-- Everything a scanner stores, with the values it starts with. -/
structure Registers where
  text : Text := []
  size : Nat := 0
  name : Text := []
  call : Text := []
  phase : Phase := .text
  lineStart : Bool := true
  tracker : Tracker := idle
  opened : Bool := false
deriving DecidableEq, Repr

namespace Registers

/-! ## One character at a time -/

/-- The plain text is passed on. -/
def flush (r : Registers) : Registers := { r with text := [], size := 0 }

/-- More plain text. -/
def append (r : Registers) (t : Text) : Registers :=
  { r with text := r.text ++ t, size := r.size + t.length }

/-- What the tracking of a call uses is put back. -/
def resetTracking (r : Registers) : Registers := { r with tracker := idle, opened := false }

/-- Plain text again, with no call at the beginning of the line any more. -/
def toText (r : Registers) : Registers := { r with phase := .text, lineStart := false }

/-- A character of plain text. -/
def textChar (sc : Scanner) (r : Registers) (c : Char) : Registers :=
  if r.lineStart && Literal.isNameStart c then
    { r.flush with phase := .name, name := r.name ++ [c], lineStart := false }
  else
    let lineStart := if r.lineStart && Text.isInline c then r.lineStart else c == '\n'
    let r := { r.append [c] with lineStart := lineStart }
    if c = '\n' ∨ sc.scan.flushThreshold < r.size then r.flush else r

/-- A character behind the beginning of a name.  The tracker is taken as it was left. -/
def nameChar (sc : Scanner) (r : Registers) (c : Char) : Registers :=
  if Literal.isNameChar c then { r with name := r.name ++ [c] }
  else if c = '(' ∧ sc.tools.contains r.name = true then
    { r with
      phase := .call, name := [], call := r.call ++ (r.name ++ [c])
      tracker := { r.tracker with depth := 1 } }
  else textChar sc ({ r with name := [] }.toText.append r.name) c

/-- A character in a call. -/
def callChar (r : Registers) (c : Char) : Registers :=
  let k := r.tracker.step c
  if !r.tracker.escaped && k.closed then
    { r with call := r.call ++ [c], tracker := { k with ticks := 0 }, phase := .afterCall }
  else { r with call := r.call ++ [c], tracker := k }

/-- A text that was held back is no call, because of what stands behind it. -/
def abort (sc : Scanner) (r : Registers) (c : Char) : Registers :=
  textChar sc ({ r with call := [] }.resetTracking.toText.append r.call) c

/-- What was held back is read as a call, and a character of plain text follows. -/
def complete (sc : Scanner) (r : Registers) (c : Char) : Registers :=
  let r' := { r with call := [] }.resetTracking.toText.flush
  match Call.read false sc.read.dropTag r.call with
  | .found _ rest => textChar sc (r'.append rest) c
  | _ => textChar sc r' c

/-- A character behind the closing parenthesis. -/
def afterCallChar (sc : Scanner) (r : Registers) (c : Char) : Registers :=
  if c = tick then
    let run := r.tracker.ticks + 1
    if minTicks ≤ run then
      { r with
        call := r.call ++ [c], phase := .content
        tracker := { r.tracker with fence := run, ticks := 0 }
        opened := false }
    else { r with call := r.call ++ [c], tracker := { r.tracker with ticks := run } }
  else if r.tracker.ticks ≠ 0 then r.abort sc c
  else if Text.isInline c || c == '\r' then { r with call := r.call ++ [c] }
  else if c = '\n' then r.complete sc c
  else r.abort sc c

/-- A character of the block behind a call. -/
def contentChar (sc : Scanner) (r : Registers) (c : Char) : Registers :=
  if !r.opened then
    if c = tick then
      { r with call := r.call ++ [c], tracker := { r.tracker with fence := r.tracker.fence + 1 } }
    else { r with call := r.call ++ [c], opened := true }
  else if c = tick then
    { r with call := r.call ++ [c], tracker := { r.tracker with ticks := r.tracker.ticks + 1 } }
  else if r.tracker.ticks = r.tracker.fence then r.complete sc c
  else { r with call := r.call ++ [c], tracker := { r.tracker with ticks := 0 } }

/-- One more character of the stream, as long as there is no fault. -/
def next (sc : Scanner) (r : Registers) (c : Char) : Registers :=
  match r.phase with
  | .text => r.textChar sc c
  | .name => r.nameChar sc c
  | .call => r.callChar c
  | .afterCall => r.afterCallChar sc c
  | .content => r.contentChar sc c

/-- The registers after a text, as long as there is no fault. -/
def run (sc : Scanner) (t : Text) : Registers := t.foldl (next sc) {}

/-! ## Registers at rest -/

/-- The registers show the state, and those that its mode does not use are at rest, the tracker's
behind a call apart. -/
inductive Follows : Registers → State → Prop where
  | text (t : Text) (n : Nat) (lineStart : Bool) :
      Follows { text := t, size := n, lineStart := lineStart } ⟨t, n, .text lineStart⟩
  | name (t : Text) (n : Nat) (held : Text) :
      Follows { text := t, size := n, name := held, phase := .name, lineStart := false }
        ⟨t, n, .name held⟩
  | call (t : Text) (n : Nat) (held : Text) (k : Tracker) :
      Follows
        { text := t, size := n, call := held, phase := .call, lineStart := false,
          tracker := k }
        ⟨t, n, .call held k⟩
  | afterCall (t : Text) (n : Nat) (held : Text) (k : Tracker) :
      Follows
        { text := t, size := n, call := held, phase := .afterCall, lineStart := false,
          tracker := k }
        ⟨t, n, .afterCall held k.ticks⟩
  | content (t : Text) (n : Nat) (held : Text) (k : Tracker) (opened : Bool) :
      Follows
        { text := t, size := n, call := held, phase := .content, lineStart := false, tracker := k,
          opened := opened }
        ⟨t, n, .content held k.fence k.ticks opened⟩

/-- Only the first registers show the first state. -/
theorem Follows.eq_initial {r : Registers} (h : r.Follows {}) : r = {} := by
  cases h
  rfl

theorem follows_textChar (sc : Scanner) (t : Text) (n : Nat) (lineStart : Bool) (m : Mode)
    (c : Char) :
    Follows (textChar sc { text := t, size := n, lineStart := lineStart } c)
      (sc.textStep ⟨t, n, m⟩ lineStart c).state := by
  unfold textChar textStep
  dsimp only
  split
  · exact .name [] 0 [c]
  · have hindent : (if (lineStart && Text.isInline c) = true then lineStart else c == '\n') =
        if (lineStart && Text.isInline c) = true then true else c == '\n' := by
      cases lineStart <;> rfl
    rw [hindent]
    generalize (if (lineStart && Text.isInline c) = true then true else c == '\n') = lineStart
    show Follows
      (if c = '\n' ∨ sc.scan.flushThreshold < n + 1 then { lineStart := lineStart }
        else { text := t ++ [c], size := n + 1, lineStart := lineStart })
      (if c = '\n' ∨ sc.scan.flushThreshold < n + 1 then
        State.flush ⟨t ++ [c], n + 1, .text lineStart⟩
        else { state := ⟨t ++ [c], n + 1, .text lineStart⟩ }).state
    split
    · exact .text [] 0 lineStart
    · exact .text (t ++ [c]) (n + 1) lineStart

theorem follows_complete {sc : Scanner} {t held : Text} {n : Nat} {m : Mode} {c : Char}
    (h : (sc.complete ⟨t, n, m⟩ held c).fault? = none) (p : Phase) (k : Tracker) (opened : Bool) :
    Follows
      (complete sc
        { text := t, size := n, call := held, phase := p, lineStart := false, tracker := k,
          opened := opened } c)
      (sc.complete ⟨t, n, m⟩ held c).state := by
  rw [Scanner.complete] at h ⊢
  have hresolve := (Outcome.fault?_andThen_eq_none_iff.1 h).1
  rw [Outcome.state_andThen hresolve]
  obtain ⟨call, rest, hread, -, heq⟩ | ⟨rest, hread, heq⟩ := resolve_cases hresolve
  · rw [heq, complete]
    simp only [hread, resetTracking, toText, flush, append, List.nil_append, Nat.zero_add]
    exact follows_textChar sc rest rest.length false (.text false) c
  · rw [heq, complete]
    simp only [hread]
    exact follows_textChar sc [] 0 false (.text false) c

theorem follows_nameChar (sc : Scanner) (t : Text) (n : Nat) (held : Text) (c : Char) :
    Follows
      (nameChar sc { text := t, size := n, name := held, phase := .name, lineStart := false } c)
      (sc.nameStep ⟨t, n, .name held⟩ held c).state := by
  have hback := follows_textChar sc (t ++ held) (n + held.length) false (.name held) c
  unfold nameChar nameStep
  split
  · exact .name t n (held ++ [c])
  · by_cases hc : c = '('
    · by_cases hknown : sc.tools.contains held = true
      · -- an idle tracker with the call's own parenthesis is one at the beginning of a call
        rw [if_pos ⟨hc, hknown⟩, if_pos hc, if_pos hknown]
        exact .call t n (held ++ [c]) {}
      · rw [if_neg fun hand => hknown hand.2, if_pos hc, if_neg hknown]
        exact hback
    · rw [if_neg fun hand => hc hand.1, if_neg hc]
      exact hback

theorem follows_afterCallChar {sc : Scanner} {t held : Text} {n : Nat} {k : Tracker} {c : Char}
    (hf : (sc.afterCallStep ⟨t, n, .afterCall held k.ticks⟩ held k.ticks c).fault? = none) :
    Follows
      (afterCallChar sc
        { text := t, size := n, call := held, phase := .afterCall, lineStart := false,
          tracker := k } c)
      (sc.afterCallStep ⟨t, n, .afterCall held k.ticks⟩ held k.ticks c).state := by
  have habort := follows_textChar sc (t ++ held) (n + held.length) false (.afterCall held k.ticks) c
  unfold afterCallChar
  unfold afterCallStep at hf ⊢
  split
  · dsimp only
    split
    · exact .content t n (held ++ [c]) { k with fence := k.ticks + 1, ticks := 0 } false
    · exact .afterCall t n (held ++ [c]) { k with ticks := k.ticks + 1 }
  · next hc =>
    rw [if_neg hc] at hf
    split
    · exact habort
    · next hrun =>
      rw [if_neg hrun] at hf
      split
      · have hzero : k.ticks = 0 := by simpa using hrun
        have hfollows := Follows.afterCall t n (held ++ [c]) k
        rwa [hzero] at hfollows
      · next hgap =>
        rw [if_neg hgap] at hf
        split
        · next hline =>
          rw [if_pos hline] at hf
          exact follows_complete hf _ k false
        · exact habort

theorem follows_contentChar {sc : Scanner} {t held : Text} {n : Nat} {k : Tracker} {opened : Bool}
    {c : Char}
    (hf : (sc.contentStep ⟨t, n, .content held k.fence k.ticks opened⟩ held k.fence k.ticks opened
      c).fault? = none) :
    Follows
      (contentChar sc
        { text := t, size := n, call := held, phase := .content, lineStart := false, tracker := k,
          opened := opened } c)
      (sc.contentStep ⟨t, n, .content held k.fence k.ticks opened⟩ held k.fence k.ticks opened
        c).state := by
  unfold contentChar
  unfold contentStep at hf ⊢
  cases opened with
  | false =>
    simp only [Bool.not_false, if_true]
    split
    · exact .content t n (held ++ [c]) { k with fence := k.fence + 1 } false
    · exact .content t n (held ++ [c]) k true
  | true =>
    simp only [Bool.not_true, Bool.false_eq_true, if_false] at hf ⊢
    split
    · exact .content t n (held ++ [c]) { k with ticks := k.ticks + 1 } true
    · next hc =>
      rw [if_neg hc] at hf
      split
      · next hrun =>
        rw [if_pos hrun] at hf
        exact follows_complete hf _ k true
      · exact .content t n (held ++ [c]) { k with ticks := 0 } true

/-- Registers go on showing the state. -/
theorem Follows.next {sc : Scanner} {r : Registers} {s : State} (h : r.Follows s) {c : Char}
    (hf : (sc.step s c).fault? = none) : (next sc r c).Follows (sc.step s c).state := by
  cases h with
  | text t n lineStart => exact follows_textChar sc t n lineStart (.text lineStart) c
  | name t n held => exact follows_nameChar sc t n held c
  | call t n held k =>
    show Follows (callChar _ c) (callStep _ held k c).state
    unfold callChar callStep
    dsimp only
    split
    · exact .afterCall t n (held ++ [c]) { k.step c with ticks := 0 }
    · exact .call t n (held ++ [c]) (k.step c)
  | afterCall t n held k => exact follows_afterCallChar hf
  | content t n held k opened => exact follows_contentChar hf

/-- After every run without a fault the registers show the state that the scanner is in. -/
theorem follows_run {sc : Scanner} {t : Text} (h : (sc.feed {} t).fault? = none) :
    (run sc t).Follows (sc.feed {} t).state := by
  suffices hrun : ∀ (t : Text) (r : Registers) (s : State), r.Follows s →
      (sc.feed s t).fault? = none → (t.foldl (next sc) r).Follows (sc.feed s t).state from
    hrun t {} {} (.text [] 0 true) h
  intro t
  induction t with
  | nil => exact fun r s hr _ => hr
  | cons c t ih =>
    intro r s hr hf
    rw [feed_cons] at hf ⊢
    obtain ⟨hc, ht⟩ := Outcome.fault?_andThen_eq_none_iff.1 hf
    rw [Outcome.state_andThen hc]
    exact ih _ _ (hr.next hc) ht

end Registers

/-! ## Line ends -/

section Newline

variable {sc : Scanner} {s : State}

theorem backToText_newline (sc : Scanner) (s : State) (held : Text) :
    (sc.backToText s held '\n').state = {} := by
  rw [backToText, textStep_newline]

theorem complete_newline {held : Text} (h : (sc.complete s held '\n').fault? = none) :
    (sc.complete s held '\n').state = {} := by
  rw [complete] at h ⊢
  rw [Outcome.state_andThen (Outcome.fault?_andThen_eq_none_iff.1 h).1, textStep_newline]

/-- A line end leads to the first state, or it belongs to a call. -/
theorem step_newline (h : (sc.step s '\n').fault? = none) :
    (sc.step s '\n').state = {} ∨
      ∀ lineStart, (sc.step s '\n').state.mode ≠ .text lineStart := by
  obtain ⟨a, ha, hstep⟩ := step_cases sc s '\n'
  rw [hstep] at h ⊢
  generalize s.mode = m at ha
  cases ha with
  | text lineStart => exact Or.inl (congrArg Outcome.state (textStep_newline sc s lineStart))
  | name hc => exact Or.inr fun lineStart => Mode.noConfusion
  | opening hc hknown => exact absurd hc (by decide)
  | leaveName notes => exact Or.inl (backToText_newline sc s _)
  | hold hm hnext hheld hline =>
    right
    rintro lineStart rfl
    cases hnext
  | leaveCall hc => exact Or.inl (backToText_newline sc s _)
  | line hc => exact Or.inl (complete_newline h)
  | block hc => exact Or.inl (complete_newline h)

/-- Plain text right behind a line end means that everything before it is forgotten. -/
theorem feed_newline {t : Text} (hend : t.getLast? = some '\n') (h : (sc.feed s t).fault? = none)
    {lineStart : Bool} (hmode : (sc.feed s t).state.mode = .text lineStart) :
    (sc.feed s t).state = {} := by
  obtain ⟨u, rfl⟩ := List.getLast?_eq_some_iff.1 hend
  rw [feed_concat] at h hmode ⊢
  obtain ⟨hu, hc⟩ := Outcome.fault?_andThen_eq_none_iff.1 h
  rw [Outcome.state_andThen hu] at hmode ⊢
  rcases step_newline hc with hfirst | hcall
  · exact hfirst
  · exact absurd hmode (hcall lineStart)

end Newline

/-- Where a line ends in plain text, the state and every register of the scanner, which show the
state all along, are what they were at first.  So what follows is scanned as by a fresh scanner,
however the stream is cut. -/
theorem feedAll_resynchronises (sc : Scanner) {ps : List Text}
    (hend : ps.flatten.getLast? = some '\n') (hf : (sc.feedChunks {} ps).fault? = none)
    {lineStart : Bool} (hmode : (sc.feedChunks {} ps).state.mode = .text lineStart) :
    (∀ fed, fed <+: ps.flatten → (Registers.run sc fed).Follows (sc.feed {} fed).state) ∧
      (sc.feedChunks {} ps).state = {} ∧ Registers.run sc ps.flatten = {} ∧
      ∀ qs chunks, chunks.flatten = ps.flatten ++ qs.flatten →
        sc.feedAll {} chunks =
          { sc.feedAll {} qs with
            events := (sc.feedChunks {} ps).events ++ (sc.feedAll {} qs).events
            notes := (sc.feedChunks {} ps).notes ++ (sc.feedAll {} qs).notes } := by
  rw [feedChunks_eq_feed] at hf hmode ⊢
  have hfirst := feed_newline hend hf hmode
  refine ⟨fun fed hfed => ?_, hfirst, ?_, fun qs chunks hchunks => ?_⟩
  · obtain ⟨rest, hrest⟩ := hfed
    rw [← hrest] at hf
    exact Registers.follows_run (fault?_feed_append hf).1
  · have hfollows := Registers.follows_run hf
    rw [hfirst] at hfollows
    exact hfollows.eq_initial
  · rw [feedAll_eq_andThen, hchunks, feed_append, Outcome.andThen_assoc,
      Outcome.andThen_of_no_fault _ hf, hfirst, ← feedAll_eq_andThen]

/-- After a text that was rejected as a call, the next call is found. -/
theorem feedAll_resynchronises_rejected :
    let sc : Scanner := { tools := ["f".toList] }
    let ps := ["f(,".toList, ")\n".toList]
    ps.flatten.getLast? = some '\n' ∧ (sc.feedChunks {} ps).fault? = none ∧
      (sc.feedChunks {} ps).state.mode = .text true ∧ Registers.run sc ps.flatten = {} ∧
      (sc.feedAll {} ["f(,)\nf".toList, "()".toList]).events =
        (sc.feedChunks {} ps).events ++ (sc.feedAll {} ["f()".toList]).events := by
  intro sc ps
  have hend : ps.flatten.getLast? = some '\n' := rfl
  have hf : (sc.feedChunks {} ps).fault? = none := rfl
  have hmode : (sc.feedChunks {} ps).state.mode = .text true := rfl
  obtain ⟨-, -, hregisters, hrest⟩ := feedAll_resynchronises sc hend hf hmode
  have hall := hrest ["f()".toList] ["f(,)\nf".toList, "()".toList] rfl
  exact ⟨hend, hf, hmode, hregisters, by rw [hall]⟩

end ToolCalls.Scanner

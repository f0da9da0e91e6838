import ToolCalls.Proofs.Scanner.Runs

/-!
# What a step can do

A step does one of five things with a character: it takes it as plain text, holds it back, opens a
call, leaves what was held back to plain text, or completes it.  Which one it is depends on the mode
and on the known tools alone.  `Mode.Acts` lists the cases with what decides between them, and
`step_cases` says that there are no others; what every step keeps is shown case by case from there.
-/

namespace ToolCalls.Scanner

/-- What a step does with a character. -/
inductive Action where
  /-- The character is plain text. -/
  | text (lineStart : Bool)
  /-- The character is held back too. -/
  | hold (next : Mode)
  /-- A call of a known tool begins. -/
  | opening (name : Text)
  /-- What was held back is plain text after all, and so is the character. -/
  | leave (held : Text) (notes : List Log.Entry)
  /-- What was held back is read as a call, and the character is plain text. -/
  | complete (held : Text)

/-- Does something with a character. -/
def perform (sc : Scanner) (s : State) (c : Char) : Action → Outcome
  | .text lineStart => sc.textStep s lineStart c
  | .hold next => { state := { s with mode := next } }
  | .opening name =>
    { state := { s with mode := .call (name ++ [c]) {} }
      events := if sc.status then [.status name] else [] }
  | .leave held notes =>
    let o := sc.backToText s held c
    { o with notes := notes ++ o.notes }
  | .complete held => sc.complete s held c

namespace Mode

/-- Whether the opening parenthesis of a call is held back. -/
def begun : Mode → Bool
  | call .. | afterCall .. | content .. => true
  | text _ | name _ => false

/-- What a scanner that knows the given tools does with a character in a mode. -/
inductive Acts (tools : List Text) (c : Char) : Mode → Action → Prop where
  | text (lineStart : Bool) : Acts tools c (.text lineStart) (.text lineStart)
  | name {held : Text} (hc : Literal.isNameChar c = true) :
      Acts tools c (.name held) (.hold (.name (held ++ [c])))
  | opening {held : Text} (hc : c = '(') (hknown : held ∈ tools) :
      Acts tools c (.name held) (.opening held)
  | leaveName {held : Text} (notes : List Log.Entry) : Acts tools c (.name held) (.leave held notes)
  | hold {m next : Mode} (hm : m.begun = true) (hnext : next.begun = true)
      (hheld : next.held = m.held ++ [c]) (hline : c = '\n' → ∀ held run, m ≠ .afterCall held run) :
      Acts tools c m (.hold next)
  | leaveCall {held : Text} {run : Nat} (hc : run ≠ 0 ∨ c ≠ '\n') :
      Acts tools c (.afterCall held run) (.leave held [])
  | line {held : Text} (hc : c = '\n') : Acts tools c (.afterCall held 0) (.complete held)
  | block {held : Text} {width : Nat} (hc : c ≠ tick) :
      Acts tools c (.content held width width true) (.complete held)

end Mode

section Cases

variable (tools : List Text) (c : Char)

/-- Behind a name, scanners that know the same tools do the same. -/
theorem exists_action_nameStep (held : Text) :
    ∃ a, Mode.Acts tools c (.name held) a ∧ ∀ (sc : Scanner) (s : State),
      (∀ name, name ∈ sc.tools ↔ name ∈ tools) → sc.nameStep s held c = sc.perform s c a := by
  by_cases hc : Literal.isNameChar c = true
  · refine ⟨_, .name hc, fun sc s _ => ?_⟩
    rw [nameStep, if_pos hc]
    rfl
  · by_cases hopen : c = '('
    · by_cases hknown : held ∈ tools
      · refine ⟨_, .opening hopen hknown, fun sc s h => ?_⟩
        rw [nameStep, if_neg hc, if_pos hopen, if_pos (List.contains_iff_mem.2 ((h held).2 hknown))]
        rfl
      · refine ⟨_, .leaveName [unknownToolNote held], fun sc s h => ?_⟩
        rw [nameStep, if_neg hc, if_pos hopen,
          if_neg fun hmem => hknown ((h held).1 (List.contains_iff_mem.1 hmem))]
        rfl
    · refine ⟨_, .leaveName [], fun sc s _ => ?_⟩
      rw [nameStep, if_neg hc, if_neg hopen]
      rfl

theorem exists_action_callStep (held : Text) (k : Tracker) :
    ∃ a, Mode.Acts tools c (.call held k) a ∧ ∀ (sc : Scanner) (s : State),
      callStep s held k c = sc.perform s c a := by
  by_cases hclosed : (!k.escaped && (k.step c).closed) = true
  · refine ⟨.hold (.afterCall (held ++ [c]) 0), .hold rfl rfl rfl nofun, fun sc s => ?_⟩
    rw [callStep, if_pos hclosed]
    rfl
  · refine ⟨.hold (.call (held ++ [c]) (k.step c)), .hold rfl rfl rfl nofun, fun sc s => ?_⟩
    rw [callStep, if_neg hclosed]
    rfl

theorem exists_action_afterCallStep (held : Text) (run : Nat) :
    ∃ a, Mode.Acts tools c (.afterCall held run) a ∧ ∀ (sc : Scanner) (s : State),
      sc.afterCallStep s held run c = sc.perform s c a := by
  have hold {next : Mode} (hc : c ≠ '\n') (hnext : next.begun = true)
      (hheld : next.held = held ++ [c]) :
      Mode.Acts tools c (.afterCall held run) (.hold next) :=
    .hold rfl hnext hheld fun hline => absurd hline hc
  by_cases hc : c = tick
  · have hne : c ≠ '\n' := by
      rw [hc]
      decide
    by_cases hrun : minTicks ≤ run + 1
    · refine ⟨.hold (.content (held ++ [c]) (run + 1) 0 false), hold hne rfl rfl, fun sc s => ?_⟩
      rw [afterCallStep, if_pos hc, if_pos hrun]
      rfl
    · refine ⟨.hold (.afterCall (held ++ [c]) (run + 1)), hold hne rfl rfl, fun sc s => ?_⟩
      rw [afterCallStep, if_pos hc, if_neg hrun]
      rfl
  · by_cases hrun : run ≠ 0
    · refine ⟨_, .leaveCall (Or.inl hrun), fun sc s => ?_⟩
      rw [afterCallStep, if_neg hc, if_pos hrun]
      rfl
    · by_cases hgap : (Text.isInline c || c == '\r') = true
      · have hne : c ≠ '\n' := by
          rintro rfl
          exact absurd hgap (by decide)
        refine ⟨.hold (.afterCall (held ++ [c]) 0), hold hne rfl rfl, fun sc s => ?_⟩
        rw [afterCallStep, if_neg hc, if_neg hrun, if_pos hgap]
        rfl
      · by_cases hline : c = '\n'
        · obtain rfl : run = 0 := by omega
          refine ⟨_, .line hline, fun sc s => ?_⟩
          rw [afterCallStep, if_neg hc, if_neg hrun, if_neg hgap, if_pos hline]
          rfl
        · refine ⟨_, .leaveCall (Or.inr hline), fun sc s => ?_⟩
          rw [afterCallStep, if_neg hc, if_neg hrun, if_neg hgap, if_neg hline]
          rfl

theorem exists_action_contentStep (held : Text) (width run : Nat) (opened : Bool) :
    ∃ a, Mode.Acts tools c (.content held width run opened) a ∧ ∀ (sc : Scanner) (s : State),
      sc.contentStep s held width run opened c = sc.perform s c a := by
  have hold (width' run' : Nat) (opened' : Bool)
      (h : ∀ (sc : Scanner) (s : State), sc.contentStep s held width run opened c =
        { state := { s with mode := .content (held ++ [c]) width' run' opened' } }) :
      ∃ a, Mode.Acts tools c (.content held width run opened) a ∧ ∀ (sc : Scanner) (s : State),
        sc.contentStep s held width run opened c = sc.perform s c a :=
    ⟨.hold (.content (held ++ [c]) width' run' opened'), .hold rfl rfl rfl nofun, h⟩
  cases opened with
  | false =>
    have hopen : (!false) = true := rfl
    by_cases hc : c = tick
    · refine hold (width + 1) run false fun sc s => ?_
      rw [contentStep, if_pos hopen, if_pos hc]
    · refine hold width run true fun sc s => ?_
      rw [contentStep, if_pos hopen, if_neg hc]
  | true =>
    have hopen : ¬ (!true) = true := Bool.false_ne_true
    by_cases hc : c = tick
    · refine hold width (run + 1) true fun sc s => ?_
      rw [contentStep, if_neg hopen, if_pos hc]
    · by_cases hrun : run = width
      · subst hrun
        refine ⟨_, .block hc, fun sc s => ?_⟩
        rw [contentStep, if_neg hopen, if_neg hc, if_pos rfl]
        rfl
      · refine hold width 0 true fun sc s => ?_
        rw [contentStep, if_neg hopen, if_neg hc, if_neg hrun]

/-- In one mode all scanners that know the same tools do the same with a character. -/
theorem exists_action (m : Mode) :
    ∃ a, m.Acts tools c a ∧ ∀ (sc : Scanner) (s : State), s.mode = m →
      (∀ name, name ∈ sc.tools ↔ name ∈ tools) → sc.step s c = sc.perform s c a := by
  cases m with
  | text lineStart =>
    refine ⟨_, .text lineStart, fun sc s hm _ => ?_⟩
    rw [step, hm]
    rfl
  | name held =>
    obtain ⟨a, ha, h⟩ := exists_action_nameStep tools c held
    refine ⟨a, ha, fun sc s hm htools => ?_⟩
    rw [step, hm]
    exact h sc s htools
  | call held k =>
    obtain ⟨a, ha, h⟩ := exists_action_callStep tools c held k
    refine ⟨a, ha, fun sc s hm _ => ?_⟩
    rw [step, hm]
    exact h sc s
  | afterCall held run =>
    obtain ⟨a, ha, h⟩ := exists_action_afterCallStep tools c held run
    refine ⟨a, ha, fun sc s hm _ => ?_⟩
    rw [step, hm]
    exact h sc s
  | content held width run opened =>
    obtain ⟨a, ha, h⟩ := exists_action_contentStep tools c held width run opened
    refine ⟨a, ha, fun sc s hm _ => ?_⟩
    rw [step, hm]
    exact h sc s

end Cases

/-- All that a step can do. -/
theorem step_cases (sc : Scanner) (s : State) (c : Char) :
    ∃ a, s.mode.Acts sc.tools c a ∧ sc.step s c = sc.perform s c a := by
  obtain ⟨a, ha, h⟩ := exists_action sc.tools c s.mode
  exact ⟨a, ha, h sc s rfl fun _ => Iff.rfl⟩

end ToolCalls.Scanner

import ToolCalls.Cursor
import ToolCalls.Proofs.Text.Fences

/-!
# Full runs of backticks

A run of backticks is full if no further backtick stands directly before or behind it.  A fence is
a full run of three or more backticks, a body in which no full run has the same length, and a full
run of the same length again (`Fence.Splits`).  Shorter and longer runs in the body are skipped as a
whole: a part of a longer run does not end the fence.

The main statement is `Cursor.readFence_eq_iff`: at a cursor a fence is found just where the text
splits in this way, there is only one way to split it, and the cursor moves behind the fence or
stays where it was.
-/

namespace ToolCalls

open Literal (startsWith)

namespace Text

/-- A full run of exactly `n` backticks stands in the text. -/
def HasFullRun (n : Nat) (t : Text) : Prop :=
  ∃ u v, t = u ++ (ticks n ++ v) ∧ u.getLast? ≠ some tick ∧ v.head? ≠ some tick

variable {n : Nat} {t : Text}

theorem startsWith_tick_eq_false_iff : startsWith (· == tick) t = false ↔ t.head? ≠ some tick := by
  cases t <;> simp

/-- The last character of a text with something else than a backtick in it. -/
theorem getLast?_append_cons_ne_iff {c : Char} (hc : c ≠ tick) (a : Text) :
    (a ++ c :: t).getLast? ≠ some tick ↔ t.getLast? ≠ some tick := by
  rcases List.eq_nil_or_concat t with rfl | ⟨u, d, rfl⟩
  · simpa using hc
  · have hsplit : a ++ c :: u.concat d = (a ++ c :: u) ++ [d] := by simp
    rw [hsplit, List.getLast?_concat, List.concat_eq_append, List.getLast?_concat]

theorem hasFullRun_ticks_iff (m : Nat) : HasFullRun n (ticks m) ↔ m = n := by
  constructor
  · rintro ⟨u, v, h, hu, hv⟩
    have hall : AllOf (· == tick) (u ++ (ticks n ++ v)) := h ▸ allOf_ticks m
    obtain ⟨hall₁, hall₂⟩ := allOf_append.1 hall
    -- nothing but the run itself is left of a row of backticks
    have hnil : u = [] := by
      rcases List.eq_nil_or_concat u with rfl | ⟨w, d, rfl⟩
      · rfl
      · have hd := hall₁ d (by simp)
        simp [eq_of_beq hd] at hu
    have hnil' : v = [] := by
      cases v with
      | nil => rfl
      | cons d v =>
        have hd := hall₂ d (by simp)
        simp [eq_of_beq hd] at hv
    have hlen := congrArg List.length h
    simpa [hnil, hnil', ticks] using hlen
  · rintro rfl
    exact ⟨[], [], by simp, by simp, by simp⟩

/-- A full run does not reach over another character. -/
theorem hasFullRun_append_cons_iff (hn : 0 < n) {c : Char} (hc : c ≠ tick) (a : Text) :
    HasFullRun n (a ++ c :: t) ↔ HasFullRun n a ∨ HasFullRun n t := by
  constructor
  · rintro ⟨u, v, h, hu, hv⟩
    rcases List.append_eq_append_iff.1 h with ⟨w, rfl, hw⟩ | ⟨w, rfl, hw⟩
    · right
      cases w with
      | nil =>
        -- the run would begin with the other character
        obtain ⟨k, rfl⟩ : ∃ k, n = k + 1 := ⟨n - 1, by omega⟩
        rw [List.nil_append, ticks_succ, List.cons_append, List.cons.injEq] at hw
        exact absurd hw.1 hc
      | cons d w =>
        rw [List.cons_append, List.cons.injEq] at hw
        obtain ⟨rfl, rfl⟩ := hw
        exact ⟨w, v, rfl, (getLast?_append_cons_ne_iff hc a).1 hu, hv⟩
    · left
      rcases List.append_eq_append_iff.1 hw with ⟨x, rfl, rfl⟩ | ⟨x, hx, hx'⟩
      · refine ⟨u, x, rfl, hu, ?_⟩
        cases x with
        | nil => simp
        | cons d x => exact hv
      · cases x with
        | nil => exact ⟨u, [], by simp [hx], hu, by simp⟩
        | cons d x =>
          have hd : d ∈ ticks n := by simp [hx]
          rw [List.cons_append, List.cons.injEq] at hx'
          exact absurd (hx'.1.trans (List.eq_of_mem_replicate hd)) hc
  · rintro (⟨u, v, rfl, hu, hv⟩ | ⟨u, v, rfl, hu, hv⟩)
    · refine ⟨u, v ++ c :: t, by simp, hu, ?_⟩
      cases v with
      | nil => simpa using hc
      | cons d v => exact hv
    · exact ⟨a ++ c :: u, v, by simp, (getLast?_append_cons_ne_iff hc a).2 hu, hv⟩

theorem not_hasFullRun_of_notMem (hn : 0 < n) (h : tick ∉ t) :
    ¬ HasFullRun n t := by
  rintro ⟨u, v, rfl, -⟩
  obtain ⟨k, rfl⟩ : ∃ k, n = k + 1 := ⟨n - 1, by omega⟩
  simp [ticks_succ] at h

theorem hasFullRun_of_append (hn : 0 < n) {p : Text} (hp : tick ∉ p)
    (h : HasFullRun n (p ++ t)) : HasFullRun n t := by
  rcases List.eq_nil_or_concat p with rfl | ⟨u, c, rfl⟩
  · exact h
  · rw [List.concat_eq_append] at h hp
    simp only [List.mem_append, List.mem_singleton, not_or] at hp
    rw [List.append_assoc, List.singleton_append,
      hasFullRun_append_cons_iff hn (Ne.symm hp.2)] at h
    exact h.resolve_left (not_hasFullRun_of_notMem hn hp.1)

end Text

namespace Fence

open Text (HasFullRun)

theorem avoids_iff {n : Nat} (hn : 0 < n) (run : Nat) (t : Text) :
    avoids n run t = true ↔
      ¬ HasFullRun n (ticks run ++ t) ∧ (ticks run ++ t).getLast? ≠ some tick := by
  induction t generalizing run with
  | nil =>
    rw [List.append_nil, Text.hasFullRun_ticks_iff]
    cases run with
    | zero => simp [avoids]; omega
    | succ run => simp [avoids, ticks, List.replicate_succ']
  | cons c t ih =>
    by_cases hc : c = tick
    · subst hc
      rw [avoids_tick, ih, ticks_succ_append]
    · rw [avoids_cons hc, ih, Text.hasFullRun_append_cons_iff hn hc, Text.hasFullRun_ticks_iff,
        Text.getLast?_append_cons_ne_iff hc]
      simp only [ticks_zero, List.nil_append, not_or, and_assoc, ne_eq]

/-- The text `t` is the fence `f` with the text `rest` behind it, and nothing in the body of the
fence is taken for its end. -/
structure Splits (t : Text) (f : Fence) (rest : Text) : Prop where
  text : t = ticks f.width ++ f.body ++ ticks f.width ++ rest
  width : 3 ≤ f.width
  nonempty : f.body ≠ []
  first : f.body.head? ≠ some tick
  last : f.body.getLast? ≠ some tick
  runs : ¬ HasFullRun f.width f.body
  stop : rest.head? ≠ some tick

theorem read?_eq_some_iff_splits {t : Text} {f : Fence} {rest : Text} :
    read? t = some (f, rest) ↔ Splits t f rest := by
  rw [read?_eq_some_iff, Text.startsWith_tick_eq_false_iff]
  constructor
  · rintro ⟨h, rfl, hr⟩
    have hw : 3 ≤ f.width := h.width
    obtain ⟨hruns, hlast⟩ := (avoids_iff (by omega) 0 f.body).1 h.avoids
    exact ⟨rfl, hw, h.nonempty, Text.startsWith_tick_eq_false_iff.1 h.start, hlast, hruns, hr⟩
  · intro h
    have hw := h.width
    have havoids := (avoids_iff (by omega) 0 f.body).2 ⟨h.runs, h.last⟩
    exact ⟨⟨hw, h.nonempty, Text.startsWith_tick_eq_false_iff.2 h.first, havoids⟩, h.text, h.stop⟩

/-- There is only one way to split a text. -/
theorem Splits.unique {t : Text} {f f' : Fence} {rest rest' : Text} (h : Splits t f rest)
    (h' : Splits t f' rest') : f' = f ∧ rest' = rest := by
  have heq := (read?_eq_some_iff_splits.2 h).symm.trans (read?_eq_some_iff_splits.2 h')
  simp only [Option.some.injEq, Prod.mk.injEq] at heq
  exact ⟨heq.1.symm, heq.2.symm⟩

end Fence

namespace Cursor

variable {c : Cursor} {f : Fence} {rest : Text}

/-- Where only the text behind a fence is left, the cursor has moved by its length. -/
theorem moveTo_of_splits (h : f.Splits c.rest rest) :
    c.moveTo rest = { c with pos := c.pos + 2 * f.width + f.body.length } := by
  have hlen := congrArg List.length h.text
  have hw := h.width
  simp only [Cursor.rest, List.length_drop, List.length_append, ticks, List.length_replicate]
    at hlen
  rw [moveTo]
  congr 1
  omega

/-- A fence at a cursor is what stands between its beginning and its end. -/
theorem span_of_splits (h : f.Splits c.rest rest) :
    ({ c with pos := c.pos + 2 * f.width + f.body.length } : Cursor).span c.pos = f.raw := by
  have hrest : c.text.drop c.pos = f.raw ++ rest := h.text
  have hlen : f.raw.length = 2 * f.width + f.body.length := by
    simp only [Fence.raw, List.length_append, ticks, List.length_replicate]
    omega
  have hwidth : c.pos + 2 * f.width + f.body.length - c.pos = f.raw.length := by omega
  rw [span, List.drop_take, hrest, hwidth, List.take_left]

theorem readFence_of_splits (h : f.Splits c.rest rest) :
    c.readFence = (some f, { c with pos := c.pos + 2 * f.width + f.body.length }) := by
  rw [readFence, Fence.read?_eq_some_iff_splits.2 h, ← moveTo_of_splits h]

theorem readFence_of_not_splits (h : ∀ (f : Fence) (rest : Text), ¬ f.Splits c.rest rest) :
    c.readFence = (none, c) := by
  have hnone : Fence.read? c.rest = none := by
    rw [Option.eq_none_iff_forall_ne_some]
    rintro ⟨f, rest⟩ hread
    exact h f rest (Fence.read?_eq_some_iff_splits.1 hread)
  rw [readFence, hnone]

/-- A fence is found at a cursor just where the text from there on splits into a fence and a text
behind it, which it does in one way only.  The cursor then stands behind the fence; otherwise it
stays where it was. -/
theorem readFence_eq_iff (c : Cursor) :
    (∀ (f : Fence) (c' : Cursor), c.readFence = (some f, c') ↔
      (∃ rest, f.Splits c.rest rest) ∧
        c' = { c with pos := c.pos + 2 * f.width + f.body.length }) ∧
    (∀ c', c.readFence = (none, c') ↔ (∀ (f : Fence) rest, ¬ f.Splits c.rest rest) ∧ c' = c) ∧
    ∀ (f : Fence) (rest : Text), f.Splits c.rest rest →
      ({ c with pos := c.pos + 2 * f.width + f.body.length } : Cursor).span c.pos = f.raw ∧
      ∀ (f' : Fence) rest', f'.Splits c.rest rest' → f' = f ∧ rest' = rest := by
  refine ⟨fun f c' => ⟨fun hread => ?_, ?_⟩, fun c' => ⟨fun hread => ?_, ?_⟩, fun f rest h =>
    ⟨span_of_splits h, fun f' rest' h' => h.unique h'⟩⟩
  · by_cases hsplits : ∃ (f : Fence) (rest : Text), f.Splits c.rest rest
    · obtain ⟨f₀, rest, h⟩ := hsplits
      rw [readFence_of_splits h, Prod.mk.injEq, Option.some.injEq] at hread
      obtain ⟨rfl, rfl⟩ := hread
      exact ⟨⟨rest, h⟩, rfl⟩
    · rw [readFence_of_not_splits fun f rest h => hsplits ⟨f, rest, h⟩] at hread
      cases hread
  · rintro ⟨⟨rest, h⟩, rfl⟩
    exact readFence_of_splits h
  · have hsplits (f : Fence) (rest : Text) : ¬ f.Splits c.rest rest := by
      intro h
      rw [readFence_of_splits h] at hread
      cases hread
    rw [readFence_of_not_splits hsplits, Prod.mk.injEq] at hread
    exact ⟨hsplits, hread.2.symm⟩
  · rintro ⟨hsplits, rfl⟩
    exact readFence_of_not_splits hsplits

/-- A shorter and a longer run in the body are skipped, and what is left of the longer one too. -/
theorem readFence_eq_iff_runs :
    let c : Cursor := { text := "x ```a``b````c``` d".toList, pos := 2 }
    let f : Fence := { width := 3, body := "a``b````c".toList }
    f.Splits c.rest " d".toList ∧ c.readFence = (some f, { c with pos := 17 }) ∧
      ({ c with pos := 17 } : Cursor).span 2 = "```a``b````c```".toList := by
  intro c f
  have hsplits : f.Splits c.rest " d".toList := Fence.read?_eq_some_iff_splits.1 (by decide)
  obtain ⟨hfound, -, hspan⟩ := readFence_eq_iff c
  refine ⟨hsplits, (hfound f _).2 ⟨⟨_, hsplits⟩, rfl⟩, ?_⟩
  exact (hspan f _ hsplits).1

end Cursor

end ToolCalls

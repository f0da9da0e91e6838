import ToolCalls.Proofs.Text.Runs

/-!
# Fences in a text

A body can be fenced by runs of `n` backticks if it is not empty, neither begins nor ends with a
backtick and no full run in it is exactly `n` long (`Fence.WellFormed`, with `avoids` for the runs).
The main statement is `Fence.read?_eq_some_iff`: reading finds a fence just where a well-formed one
is written out and no further backtick follows.
-/

namespace ToolCalls

open Literal (startsWith)
open Text (AllOf dropWhile_run takeWhile_run)

/-! ## Runs of backticks -/

@[simp] theorem ticks_zero : ticks 0 = [] := rfl

theorem ticks_succ (n : Nat) : ticks (n + 1) = tick :: ticks n := rfl

theorem ticks_succ_append (n : Nat) (t : Text) : ticks (n + 1) ++ t = ticks n ++ tick :: t := by
  induction n with
  | zero => rfl
  | succ n ih => rw [ticks_succ, List.cons_append, ih, ticks_succ, List.cons_append]

theorem allOf_ticks (n : Nat) : AllOf (· == tick) (ticks n) := by
  intro c hc
  rw [List.eq_of_mem_replicate hc]
  rfl

theorem tickRun_ticks_append {n : Nat} {rest : Text} (h : startsWith (· == tick) rest = false) :
    tickRun (ticks n ++ rest) = n := by
  rw [tickRun, takeWhile_run (allOf_ticks n) h]
  exact List.length_replicate

theorem tickRun_eq_zero {t : Text} (h : startsWith (· == tick) t = false) : tickRun t = 0 := by
  simpa using tickRun_ticks_append (n := 0) h

theorem tickRun_tick (t : Text) : tickRun (tick :: t) = tickRun t + 1 := by
  simp [tickRun]

/-- A text is its first run of backticks and what stands behind it. -/
theorem ticks_tickRun_append (t : Text) :
    ticks (tickRun t) ++ t.dropWhile (· == tick) = t := by
  have h : t.takeWhile (· == tick) = ticks (tickRun t) := by
    rw [ticks, List.eq_replicate_iff]
    refine ⟨rfl, fun c hc => ?_⟩
    simpa using Text.allOf_takeWhile _ t c hc
  rw [← h, List.takeWhile_append_dropWhile]

theorem drop_tickRun (t : Text) : t.drop (tickRun t) = t.dropWhile (· == tick) := by
  have h := congrArg (List.drop (tickRun t)) (ticks_tickRun_append t)
  rw [List.drop_left' (by simp [ticks])] at h
  exact h.symm

/-- A run of backticks stays as it is when the text goes on with something else. -/
theorem tickRun_append {u : Text} (h : startsWith (· == tick) u = false) (t : Text) :
    tickRun (t ++ u) = tickRun t := by
  have hrest : startsWith (· == tick) (t.dropWhile (· == tick) ++ u) = false := by
    have hs := Text.startsWith_dropWhile (· == tick) t
    cases ht : t.dropWhile (· == tick) with
    | nil => exact h
    | cons d v =>
      rw [ht] at hs
      exact hs
  calc tickRun (t ++ u)
      = tickRun (ticks (tickRun t) ++ (t.dropWhile (· == tick) ++ u)) := by
        rw [← List.append_assoc, ticks_tickRun_append]
    _ = tickRun t := tickRun_ticks_append hrest

namespace Fence

/-! ## Cutting at a run -/

/-- Whether no full run in the text is exactly `n` backticks long and the text does not end with a
backtick.  `run` backticks stand directly before it. -/
def avoids (n : Nat) : (run : Nat) → Text → Bool
  | run, [] => run == 0
  | run, c :: t => if c = tick then avoids n (run + 1) t else run != n && avoids n 0 t

theorem avoids_tick (n run : Nat) (t : Text) : avoids n run (tick :: t) = avoids n (run + 1) t := by
  simp [avoids]

theorem avoids_cons {c : Char} (hc : c ≠ tick) (n run : Nat) (t : Text) :
    avoids n run (c :: t) = true ↔ run ≠ n ∧ avoids n 0 t = true := by
  simp [avoids, hc]

theorem cutAtRun_tick (n run : Nat) (t : Text) :
    cutAtRun n run (tick :: t) = cutAtRun n (run + 1) t := by
  simp [cutAtRun]

theorem cutAtRun_of_startsWith {n : Nat} {rest : Text} (h : startsWith (· == tick) rest = false) :
    cutAtRun n n rest = some ([], rest) := by
  cases rest with
  | nil => simp [cutAtRun]
  | cons c t =>
    have hc : c ≠ tick := by simpa using h
    simp [cutAtRun, hc]

/-- Backticks at the front of the text lengthen the run before it. -/
theorem cutAtRun_ticks_append (n run m : Nat) (t : Text) :
    cutAtRun n run (ticks m ++ t) = cutAtRun n (run + m) t := by
  induction m generalizing run with
  | zero => rfl
  | succ m ih =>
    rw [ticks_succ, List.cons_append, cutAtRun_tick, show run + (m + 1) = run + 1 + m by omega]
    exact ih (run + 1)

theorem cutAtRun_ticks {rest : Text} (h : startsWith (· == tick) rest = false) (m run : Nat) :
    cutAtRun (run + m) run (ticks m ++ rest) = some ([], rest) := by
  rw [cutAtRun_ticks_append]
  exact cutAtRun_of_startsWith h

/-- A full run of another length belongs to the body. -/
theorem cutAtRun_ticks_of_ne {n m : Nat} (hn : n ≠ 0) (hm : m ≠ n) {rest : Text}
    (h : startsWith (· == tick) rest = false) :
    cutAtRun n 0 (ticks m ++ rest) =
      (cutAtRun n 0 rest).map fun (body, rest) => (ticks m ++ body, rest) := by
  rw [cutAtRun_ticks_append, Nat.zero_add]
  cases rest with
  | nil => simp [cutAtRun, hm, hn.symm]
  | cons c t =>
    have hc : c ≠ tick := by simpa using h
    simp only [cutAtRun, if_neg hc, if_neg hm, if_neg hn.symm, Option.map_map]
    rfl

/-- The cut is found behind every text that has no full run of `n` backticks. -/
theorem cutAtRun_of_avoids {n run : Nat} {b rest : Text} (hb : avoids n run b = true)
    (hr : startsWith (· == tick) rest = false) :
    cutAtRun n run (b ++ (ticks n ++ rest)) = some (ticks run ++ b, rest) := by
  induction b generalizing run with
  | nil =>
    obtain rfl : run = 0 := by simpa [avoids] using hb
    simpa using cutAtRun_ticks hr n 0
  | cons c b ih =>
    by_cases hc : c = tick
    · subst hc
      rw [avoids_tick] at hb
      rw [List.cons_append, cutAtRun_tick, ih hb, ticks_succ_append]
    · rw [avoids_cons hc] at hb
      have h := ih hb.2
      simp only [List.cons_append, cutAtRun, if_neg hc, if_neg hb.1, h, Option.map_some]
      rfl

/-- Where a cut is found.  Either the run before the text grows into the one that is looked for, or
the text goes on before it. -/
theorem cutAtRun_eq_some {n run : Nat} {t body rest : Text}
    (h : cutAtRun n run t = some (body, rest)) :
    startsWith (· == tick) rest = false ∧
      ((body = [] ∧ ∃ m, run + m = n ∧ t = ticks m ++ rest) ∨
        ∃ b, b ≠ [] ∧ body = ticks run ++ b ∧ t = b ++ (ticks n ++ rest) ∧
          avoids n run b = true) := by
  induction t generalizing run body with
  | nil =>
    simp only [cutAtRun, Option.ite_none_right_eq_some, Option.some.injEq, Prod.mk.injEq] at h
    obtain ⟨rfl, rfl, rfl⟩ := h
    exact ⟨rfl, Or.inl ⟨rfl, 0, rfl, rfl⟩⟩
  | cons c t ih =>
    by_cases hc : c = tick
    · subst hc
      rw [cutAtRun_tick] at h
      obtain ⟨hr, ⟨hb, m, hm, ht⟩ | ⟨b, hb, hbody, ht, ha⟩⟩ := ih h
      · refine ⟨hr, Or.inl ⟨hb, m + 1, by omega, ?_⟩⟩
        rw [ht, ticks_succ, List.cons_append]
      · refine ⟨hr, Or.inr ⟨tick :: b, List.cons_ne_nil _ _, ?_, ?_, ?_⟩⟩
        · rw [hbody, ticks_succ_append]
        · rw [ht, List.cons_append]
        · rwa [avoids_tick]
    · by_cases hn : run = n
      · simp only [cutAtRun, if_neg hc, if_pos hn, Option.some.injEq, Prod.mk.injEq] at h
        obtain ⟨rfl, rfl⟩ := h
        exact ⟨by simpa using hc, Or.inl ⟨rfl, 0, hn, rfl⟩⟩
      · simp only [cutAtRun, if_neg hc, if_neg hn, Option.map_eq_some_iff, Prod.mk.injEq] at h
        obtain ⟨⟨body', rest'⟩, h', rfl, rfl⟩ := h
        obtain ⟨hr, ⟨hb, m, hm, ht⟩ | ⟨b, hb, hbody, ht, ha⟩⟩ := ih h'
        · obtain rfl : m = n := by omega
          refine ⟨hr, Or.inr ⟨[c], List.cons_ne_nil _ _, by rw [hb], by rw [ht]; rfl, ?_⟩⟩
          exact (avoids_cons hc _ _ _).2 ⟨hn, rfl⟩
        · refine ⟨hr, Or.inr ⟨c :: b, List.cons_ne_nil _ _, by rw [hbody]; rfl,
            by rw [ht]; rfl, ?_⟩⟩
          exact (avoids_cons hc _ _ _).2 ⟨hn, ha⟩

/-! ## Reading -/

/-- Whether the runs are long enough and are found again around the body. -/
structure WellFormed (f : Fence) : Prop where
  width : minTicks ≤ f.width
  nonempty : f.body ≠ []
  start : startsWith (· == tick) f.body = false
  avoids : avoids f.width 0 f.body = true

theorem WellFormed.width_eq_succ {f : Fence} (h : f.WellFormed) : ∃ n, f.width = n + 1 := by
  have hw : 3 ≤ f.width := h.width
  exact ⟨f.width - 1, by omega⟩

theorem startsWith_raw {f : Fence} (h : f.WellFormed) : startsWith (· == tick) f.raw = true := by
  obtain ⟨n, hn⟩ := h.width_eq_succ
  simp [raw, hn, ticks_succ]

theorem getLast?_raw {f : Fence} (h : f.WellFormed) : f.raw.getLast? = some tick := by
  obtain ⟨n, hn⟩ := h.width_eq_succ
  rw [raw, hn, ticks, List.replicate_succ', ← List.append_assoc, List.getLast?_concat]

theorem tickRun_raw {f : Fence} (h : f.WellFormed) (rest : Text) :
    tickRun (f.raw ++ rest) = f.width := by
  have hs : startsWith (· == tick) (f.body ++ (ticks f.width ++ rest)) = false := by
    rw [Text.startsWith_append_of_ne_nil h.nonempty]
    exact h.start
  rw [raw, List.append_assoc, List.append_assoc]
  exact tickRun_ticks_append hs

theorem read?_eq_some_iff {t : Text} {f : Fence} {rest : Text} :
    read? t = some (f, rest) ↔
      f.WellFormed ∧ t = f.raw ++ rest ∧ startsWith (· == tick) rest = false := by
  constructor
  · intro h
    simp only [read?, Option.ite_none_left_eq_some, Option.map_eq_some_iff, Prod.mk.injEq] at h
    obtain ⟨hw, ⟨body, rest'⟩, hcut, rfl, rfl⟩ := h
    rw [drop_tickRun] at hcut
    have hstart := Text.startsWith_dropWhile (· == tick) t
    obtain ⟨hr, ⟨-, m, hm, hm'⟩ | ⟨b, hb, hbody, hb', ha⟩⟩ := cutAtRun_eq_some hcut
    · -- the closing run would be a part of the opening one
      obtain ⟨k, rfl⟩ : ∃ k, m = k + 1 := ⟨m - 1, by simp only [minTicks] at hw; omega⟩
      rw [hm', ticks_succ] at hstart
      simp at hstart
    · obtain rfl : body = b := by simpa using hbody
      rw [hb', Text.startsWith_append_of_ne_nil hb] at hstart
      refine ⟨⟨by simpa using hw, hb, hstart, ha⟩, ?_, hr⟩
      rw [raw, List.append_assoc, List.append_assoc, ← hb', ticks_tickRun_append]
  · rintro ⟨h, rfl, hr⟩
    have hw := h.width
    rw [read?, tickRun_raw h, if_neg (by omega)]
    have hd : (f.raw ++ rest).drop f.width = f.body ++ (ticks f.width ++ rest) := by
      rw [raw, List.append_assoc, List.append_assoc, List.drop_left' (by simp [ticks])]
    rw [hd, cutAtRun_of_avoids h.avoids hr]
    rfl

end Fence

end ToolCalls

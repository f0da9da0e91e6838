import ToolCalls.Proofs.Call.Grammar

/-!
# What stands behind a call

A call that is found in one text is found again wherever its own text stands, and what can stand
behind it is said for every text (`parse?_local`).  Behind a closing parenthesis a fence that opens
belongs to the call and has to close; with the rule about the end of the line, all other text but a
line end does away with the call.  Behind a block only a backtick matters.
-/

namespace ToolCalls.Call

open Literal (startsWith Spelled maxNesting)
open Text (AllOf isInline)

section Rest

variable {options : ReadOptions} {c : Call} {rest gap v : Text}

/-- Reading at a call finds it, unless the rule about the end of the line is against it. -/
theorem parse?_of_form (h : Form options.dropTag c rest) (requireLineEnd : Bool) :
    parse? requireLineEnd options (c.raw ++ rest) =
      .ok (if requireLineEnd = true ∧ c.raw.getLast? = some ')' ∧ endsLine rest = false then none
        else some c) := by
  rw [parse?]
  cases requireLineEnd with
  | false =>
    rw [read_eq_found_iff.2 ⟨h, rfl⟩, if_neg fun hand => Bool.false_ne_true hand.1]
    rfl
  | true =>
    rw [read_true_of_form h]
    by_cases hend : c.raw.getLast? = some ')' ∧ endsLine rest = false
    · rw [if_pos hend, if_pos ⟨rfl, hend⟩]
      rfl
    · rw [if_neg hend, if_neg fun hand => hend hand.2]
      rfl

theorem endsLine_gap (hg : AllOf isInline gap) (hv : startsWith isInline v = false) :
    endsLine (gap ++ v) = true ↔
      (v = [] ∨ startsWith (fun d => d == '\n' || d == '\r') v = true) ∨ minTicks ≤ tickRun v := by
  rw [endsLine, Text.skipInline_run hg hv]
  cases v with
  | nil => simp
  | cons d v => simp [or_comm]

theorem exists_head_of_getLast? (h : Form options.dropTag c rest)
    (hlast : c.raw.getLast? = some ')') :
    ∃ as, Head (Spelled options.dropTag maxNesting) c.name as c.raw ∧
      c.arguments = file as ∧ c.content = [] := by
  cases h with
  | @plain name raw rest as h hr => exact ⟨as, h, rfl, rfl⟩
  | @block name raw gap rest as f h hg hf hr =>
    rw [getLast?_block hf raw gap] at hlast
    cases hlast

/-- A fence behind the closing parenthesis belongs to the call. -/
theorem form_block (h : Form options.dropTag c rest) (hlast : c.raw.getLast? = some ')')
    (hg : AllOf isInline gap) {f : Fence} (hf : f.WellFormed) {rest' : Text}
    (hr : startsWith (· == tick) rest' = false) :
    Form options.dropTag
      { c with content := Block.clean options.dropTag f.body, raw := c.raw ++ (gap ++ f.raw) }
      rest' := by
  obtain ⟨as, hhead, harguments, -⟩ := exists_head_of_getLast? h hlast
  rw [harguments]
  exact .block hhead hg hf hr

/-- A fence that opens behind the closing parenthesis and does not close leaves no call. -/
theorem parse?_unclosed (h : Form options.dropTag c rest) (hlast : c.raw.getLast? = some ')')
    (hg : AllOf isInline gap) (hv : startsWith isInline v = false) (hopen : minTicks ≤ tickRun v)
    (hclose : ∀ (f : Fence) rest', f.WellFormed → startsWith (· == tick) rest' = false →
      v ≠ f.raw ++ rest') (requireLineEnd : Bool) :
    parse? requireLineEnd options (c.raw ++ (gap ++ v)) = .ok none := by
  obtain ⟨as, hhead, -⟩ := exists_head_of_getLast? h hlast
  have hline : endsLine (gap ++ v) = true := (endsLine_gap hg hv).2 (Or.inr hopen)
  have hfence : Fence.read? v = none := by
    cases hread : Fence.read? v with
    | none => rfl
    | some fr =>
      obtain ⟨hf, ht, hr⟩ := Fence.read?_eq_some_iff.1 hread
      exact absurd ht (hclose fr.1 fr.2 hf hr)
  have hcontent : readContent options.dropTag (gap ++ v) = .absent v := by
    simp only [readContent]
    rw [Text.skipInline_run hg hv, if_neg (by omega), hfence]
  rw [parse?, read_head hhead, hline, Bool.not_true, Bool.and_false, if_neg Bool.false_ne_true,
    hcontent]
  rfl

/-- Where no fence opens behind the closing parenthesis, only the rule about the end of the line
looks at what stands there. -/
theorem parse?_gap (h : Form options.dropTag c rest) (hlast : c.raw.getLast? = some ')')
    (hg : AllOf isInline gap) (hv : startsWith isInline v = false) (hshort : tickRun v < minTicks)
    (requireLineEnd : Bool) :
    parse? requireLineEnd options (c.raw ++ (gap ++ v)) =
      .ok (if requireLineEnd = false ∨ v = [] ∨
        startsWith (fun d => d == '\n' || d == '\r') v = true then some c else none) := by
  have hform : Form options.dropTag c (gap ++ v) := by
    refine h.change_rest (fun _ => ?_) fun htick => ?_
    · rwa [Text.skipInline_run hg hv]
    · exact absurd (htick.symm.trans hlast) (by decide)
  have hline : endsLine (gap ++ v) = true ↔
      v = [] ∨ startsWith (fun d => d == '\n' || d == '\r') v = true := by
    rw [endsLine_gap hg hv, or_iff_left (by omega)]
  rw [parse?_of_form hform, hlast]
  simp only [← hline]
  cases requireLineEnd with
  | false => simp
  | true => cases endsLine (gap ++ v) <;> simp

theorem parse?_tick (h : Form options.dropTag c rest) (hlast : c.raw.getLast? = some tick)
    {u : Text} (hu : startsWith (· == tick) u = false) (requireLineEnd : Bool) :
    parse? requireLineEnd options (c.raw ++ u) = .ok (some c) := by
  have hne : ¬ (some tick = some ')') := by decide
  have hform : Form options.dropTag c u := by
    refine h.change_rest (fun hparen => ?_) fun _ => hu
    exact absurd (hlast.symm.trans hparen) hne
  rw [parse?_of_form hform, hlast, if_neg fun hand => hne hand.2.1]

theorem parse?_raw (h : Form options.dropTag c rest) (requireLineEnd : Bool) :
    parse? requireLineEnd options c.raw = .ok (some c) := by
  have hform : Form options.dropTag c [] := h.change_rest (fun _ => by decide) fun _ => rfl
  have hparse := parse?_of_form hform requireLineEnd
  rw [List.append_nil] at hparse
  rw [hparse, if_neg fun hand => Bool.noConfusion hand.2.2]

end Rest

/-- What is found where a call was found and something else stands behind it.  A call ends with its
closing parenthesis or with the last backtick of its block. -/
theorem parse?_local (options : ReadOptions) {t : Text} {c : Call}
    (h : parse? false options t = .ok (some c)) :
    (c.raw.getLast? = some ')' ∨ c.raw.getLast? = some tick) ∧
    (c.raw.getLast? = some ')' → ∀ gap v, AllOf isInline gap → startsWith isInline v = false →
      (minTicks ≤ tickRun v → ∀ requireLineEnd,
        (∀ (f : Fence) rest, f.WellFormed → startsWith (· == tick) rest = false →
          v = f.raw ++ rest → parse? requireLineEnd options (c.raw ++ (gap ++ v)) =
            .ok (some { c with
              content := Block.clean options.dropTag f.body, raw := c.raw ++ (gap ++ f.raw) })) ∧
        ((∀ (f : Fence) rest, f.WellFormed → startsWith (· == tick) rest = false →
          v ≠ f.raw ++ rest) →
            parse? requireLineEnd options (c.raw ++ (gap ++ v)) = .ok none)) ∧
      (tickRun v < minTicks →
        parse? false options (c.raw ++ (gap ++ v)) = .ok (some c) ∧
        parse? true options (c.raw ++ (gap ++ v)) =
          .ok (if v = [] ∨ startsWith (fun d => d == '\n' || d == '\r') v = true then some c
            else none))) ∧
    (c.raw.getLast? = some tick → ∀ u, startsWith (· == tick) u = false → ∀ requireLineEnd,
      parse? requireLineEnd options (c.raw ++ u) = .ok (some c)) ∧
    ∀ requireLineEnd, parse? requireLineEnd options c.raw = .ok (some c) := by
  obtain ⟨rest, hread⟩ := parse?_eq_some_iff.1 h
  obtain ⟨hform, -⟩ := read_eq_found_iff.1 hread
  refine ⟨?_, ?_, fun hlast u hu => parse?_tick hform hlast hu, parse?_raw hform⟩
  · cases hform with
    | plain hhead hr => exact Or.inl hhead.getLast?
    | block hhead hg hf hr => exact Or.inr (getLast?_block hf _ _)
  · intro hlast gap v hg hv
    refine ⟨fun hopen requireLineEnd => ⟨?_, fun hclose => ?_⟩, fun hshort => ⟨?_, ?_⟩⟩
    · rintro f rest' hf hr rfl
      have hend := getLast?_block hf c.raw gap
      have hblock := parse?_tick (form_block hform hlast hg hf hr) hend hr requireLineEnd
      simpa only [List.append_assoc] using hblock
    · exact parse?_unclosed hform hlast hg hv hopen hclose requireLineEnd
    · rw [parse?_gap hform hlast hg hv hshort, if_pos (Or.inl rfl)]
    · rw [parse?_gap hform hlast hg hv hshort]
      simp only [Bool.true_eq_false, false_or]

/-- A call before a line end, a comment, an open fence and a closed one. -/
theorem parse?_local_suffixes :
    let s := "f(x: [1])".toList
    ∃ c : Call, parse? false {} (s ++ " and so on".toList) = .ok (some c) ∧ c.raw = s ∧
      parse? true {} (s ++ ("\t".toList ++ "\r\n".toList)) = .ok (some c) ∧
      parse? true {} (s ++ (" ".toList ++ "# 1".toList)) = .ok none ∧
      parse? false {} (s ++ (" ".toList ++ "```b``".toList)) = .ok none ∧
      parse? true {} (s ++ (" ".toList ++ "```b``` # 1".toList)) = .ok (some
        { c with content := "b".toList, raw := s ++ " ```b```".toList }) := by
  intro s
  have hview : (parse? false {} (s ++ " and so on".toList)).toOption.map (Option.map Call.raw) =
      some (some s) := by decide +kernel
  obtain ⟨c, hparse, hraw⟩ := exists_call_of_view hview
  obtain ⟨-, hparen, -, -⟩ := parse?_local {} hparse
  rw [hraw] at hparen
  have hspace : AllOf isInline " ".toList := by decide
  refine ⟨c, hparse, hraw, ?_, ?_, ?_, ?_⟩
  · have h := ((hparen rfl "\t".toList "\r\n".toList (by decide) rfl).2 (by decide)).2
    rwa [if_pos (by decide)] at h
  · have h := ((hparen rfl " ".toList "# 1".toList hspace rfl).2 (by decide)).2
    rwa [if_neg (by decide)] at h
  · refine ((hparen rfl " ".toList "```b``".toList hspace rfl).1 (by decide) false).2 ?_
    intro f rest hf hr heq
    have hread := Fence.read?_eq_some_iff.2 ⟨hf, heq, hr⟩
    have hnone : Fence.read? "```b``".toList = none := by decide
    rw [hnone] at hread
    cases hread
  · have hf : Fence.WellFormed ⟨3, "b".toList⟩ := ⟨by decide, by decide, rfl, by decide⟩
    have hclean : Block.clean true "b".toList = "b".toList := by decide
    have h := ((hparen rfl " ".toList "```b``` # 1".toList hspace rfl).1 (by decide) true).1
      ⟨3, "b".toList⟩ " # 1".toList hf rfl rfl
    rwa [hclean] at h

end ToolCalls.Call

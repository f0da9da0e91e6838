import ToolCalls.Proofs.Literal.Limits

/-!
# A line end behind a literal

A line end behind a text makes no difference to what is read from the text.  Readers only differ in
how far they look, so what two texts have in common is stated of their readings: they find the same
and leave the same, the line end apart, or both find nothing, or both meet the same fault
(`Reading.WithLineEnd`).  A reader for which this holds of every text ignores line ends
(`IgnoresLineEnd`), and a reader that is put together from such readers ignores them too.

Rows are read in a number of rounds that depends on the length of the text; there are always more
rounds than the row has parts (`readListed_withLineEnd`).
-/

namespace ToolCalls

/-- What is read from a text, and from the same text with a line end behind it. -/
inductive Reading.WithLineEnd {α : Type} : Reading α → Reading α → Prop where
  | found (a : α) (rest : Text) : WithLineEnd (.found a rest) (.found a (rest ++ ['\n']))
  | absent (rest rest' : Text) : WithLineEnd (.absent rest) (.absent rest')
  | fault (o : Decimal.Oversized) : WithLineEnd (.fault o) (.fault o)

/-- What a reader makes of a text does not change with a line end behind it. -/
def Reading.IgnoresLineEnd {α : Type} (reader : Text → Reading α) : Prop :=
  ∀ t, (reader t).WithLineEnd (reader (t ++ ['\n']))

namespace Reading.WithLineEnd

variable {α β : Type} {r r' : Reading α}

theorem andThen (h : r.WithLineEnd r') {next next' : α → Text → Reading β}
    (hnext : ∀ a rest, r = .found a rest →
      (next a rest).WithLineEnd (next' a (rest ++ ['\n']))) :
    (r.andThen next).WithLineEnd (r'.andThen next') := by
  cases h with
  | found a rest => exact hnext a rest rfl
  | absent rest rest' => exact .absent rest rest'
  | fault o => exact .fault o

theorem map (h : r.WithLineEnd r') (f : α → β) : (r.map f).WithLineEnd (r'.map f) := by
  cases h with
  | found a rest => exact .found (f a) rest
  | absent rest rest' => exact .absent rest rest'
  | fault o => exact .fault o

theorem result_eq (h : r.WithLineEnd r') : r'.result = r.result := by
  cases h <;> rfl

end Reading.WithLineEnd

namespace Text

variable {p : Char → Bool}

theorem before_append_append (t rest u : Text) :
    before (t ++ u) (rest ++ u) = before t rest := by
  have hlen : (t ++ u).length - (rest ++ u).length = t.length - rest.length := by
    simp only [List.length_append]
    omega
  rw [before, hlen, List.take_append_of_le_length (Nat.sub_le _ _)]
  rfl

theorem takeWhile_append_newline (hp : p '\n' = false) (t : Text) :
    (t ++ ['\n']).takeWhile p = t.takeWhile p := by
  obtain ⟨u, ht, hu, hrest⟩ := exists_run p t
  have hrest' : Literal.startsWith p (t.dropWhile p ++ ['\n']) = false := by
    cases hd : t.dropWhile p with
    | nil => exact hp
    | cons c v =>
      rw [hd] at hrest
      exact hrest
  rw [ht, List.append_assoc, takeWhile_run hu hrest', takeWhile_run hu hrest]

theorem dropWhile_append_newline (hp : p '\n' = false) (t : Text) :
    (t ++ ['\n']).dropWhile p = t.dropWhile p ++ ['\n'] :=
  dropWhile_append_cons hp t []

theorem startsWith_append_newline (hp : p '\n' = false) (t : Text) :
    Literal.startsWith p (t ++ ['\n']) = Literal.startsWith p t := by
  cases t with
  | nil => exact hp
  | cons c t => rfl

/-- A line end behind blanks is skipped with them, and one behind anything else is left. -/
theorem skipBlank_append_newline (t : Text) :
    skipBlank t = [] ∧ skipBlank (t ++ ['\n']) = [] ∨
      ∃ c u, skipBlank t = c :: u ∧ skipBlank (t ++ ['\n']) = c :: u ++ ['\n'] := by
  obtain ⟨b, ht, hb, hstart⟩ := exists_blanks t
  cases hskip : skipBlank t with
  | nil =>
    left
    rw [hskip, List.append_nil] at ht
    have hall : AllOf isBlank (b ++ ['\n']) := allOf_append.2 ⟨hb, by decide⟩
    have hrun := skipBlank_run hall startsWith_nil
    rw [List.append_nil] at hrun
    rw [ht]
    exact ⟨rfl, hrun⟩
  | cons c u =>
    right
    rw [hskip] at ht hstart
    refine ⟨c, u, rfl, ?_⟩
    rw [ht, List.append_assoc]
    exact skipBlank_run hb hstart

/-- What stands behind a text that does not end with a line end takes the line end along. -/
theorem exists_append_newline {t w rest : Text} (hw : w.getLast? ≠ some '\n')
    (h : t ++ ['\n'] = w ++ rest) : ∃ rest', rest = rest' ++ ['\n'] ∧ t = w ++ rest' := by
  rcases List.eq_nil_or_concat rest with rfl | ⟨rest', c, rfl⟩
  · rw [List.append_nil] at h
    rw [← h, List.getLast?_concat] at hw
    exact absurd rfl hw
  · rw [List.concat_eq_append, ← List.append_assoc] at h
    obtain ⟨ht, hc⟩ := List.append_inj' h rfl
    cases hc
    exact ⟨rest', List.concat_eq_append, ht⟩

end Text

/-- A line end behind a fence belongs to what stands behind it. -/
theorem Fence.read?_append_newline (t : Text) :
    Fence.read? (t ++ ['\n']) = (Fence.read? t).map fun fr => (fr.1, fr.2 ++ ['\n']) := by
  apply Option.ext
  rintro ⟨f, rest⟩
  simp only [Option.map_eq_some_iff, Prod.exists, Prod.mk.injEq, Fence.read?_eq_some_iff]
  constructor
  · rintro ⟨hf, ht, hr⟩
    have hlast : f.raw.getLast? ≠ some '\n' := by
      rw [Fence.getLast?_raw hf]
      decide
    obtain ⟨rest', rfl, ht'⟩ := Text.exists_append_newline hlast ht
    rw [Text.startsWith_append_newline rfl] at hr
    exact ⟨f, rest', ⟨hf, ht', hr⟩, rfl, rfl⟩
  · rintro ⟨f, rest', ⟨hf, rfl, hr⟩, rfl, rfl⟩
    refine ⟨hf, List.append_assoc _ _ _, ?_⟩
    rwa [Text.startsWith_append_newline rfl]

namespace Literal

open Reading (WithLineEnd IgnoresLineEnd)
open Text (skipBlank before)

/-! ## Names, strings, numbers, words and blocks -/

theorem ignoresLineEnd_readName : IgnoresLineEnd readName := by
  have hstart : isNameStart '\n' = false := by decide
  have hchar : isNameChar '\n' = false := by decide
  intro t
  unfold readName
  dsimp only
  rcases Text.skipBlank_append_newline t with ⟨h, h'⟩ | ⟨c, u, h, h'⟩
  · rw [h, h']
    exact .absent [] []
  · rw [h, h', Text.startsWith_append_newline hstart, Text.takeWhile_append_newline hchar,
      Text.dropWhile_append_newline hchar]
    split
    · exact .found _ _
    · exact .absent _ _

theorem unquote?_append_newline {quote : Char} (hq : quote ≠ '\n') (t : Text) :
    unquote? quote (t ++ ['\n']) = (unquote? quote t).map fun sr => (sr.1, sr.2 ++ ['\n']) := by
  fun_induction unquote? quote t with
  | case1 => simp [unquote?, hq.symm]
  | case2 => simp [unquote?]
  | case3 e u ih => simp [unquote?, ih, Function.comp_def]
  | case4 t hc =>
    rw [List.cons_append, unquote?.eq_def]
    simp only [if_neg hc, if_true, Option.map_some]
  | case5 c t hc hne ih =>
    rw [List.cons_append, unquote?.eq_def]
    simp only [if_neg hc, if_neg hne, ih, Option.map_map, Function.comp_def]

theorem ignoresLineEnd_readText : IgnoresLineEnd readText := by
  intro t
  unfold readText
  rcases Text.skipBlank_append_newline t with ⟨h, h'⟩ | ⟨c, u, h, h'⟩
  · rw [h, h']
    exact .absent [] []
  · rw [h, h']
    dsimp only [List.cons_append]
    split
    · next hc =>
      have hne : c ≠ '\n' := by
        rintro rfl
        cases hc
      rw [unquote?_append_newline hne]
      cases unquote? c u with
      | none => exact .absent [] []
      | some sr => exact .found sr.1 sr.2
    · exact .absent _ _

theorem ignoresLineEnd_readString : IgnoresLineEnd readString := by
  intro t
  unfold readString
  refine (ignoresLineEnd_readText t).andThen fun s rest hread => ?_
  rcases Text.skipBlank_append_newline t with ⟨h, h'⟩ | ⟨c, u, h, h'⟩
  · rw [readText, h] at hread
    cases hread
  · rw [h, h', Text.before_append_append]
    exact .found _ _

theorem splitSign_append_newline (t : Text) :
    splitSign (t ++ ['\n']) = ((splitSign t).1, (splitSign t).2 ++ ['\n']) := by
  unfold splitSign
  cases t with
  | nil => rfl
  | cons c t =>
    by_cases hc : c = '-'
    · subst hc
      rfl
    · simp [hc]

theorem integerReading_withLineEnd (negative : Bool) (digits t rest : Text) :
    (integerReading negative digits t rest).WithLineEnd
      (integerReading negative digits (t ++ ['\n']) (rest ++ ['\n'])) := by
  unfold integerReading
  dsimp only
  rw [Text.before_append_append]
  split
  · exact .found _ _
  · exact .fault _

theorem ignoresLineEnd_readNumber : IgnoresLineEnd readNumber := by
  have hdigit : Char.isDigit '\n' = false := rfl
  intro t
  unfold readNumber
  dsimp only
  rcases Text.skipBlank_append_newline t with ⟨h, h'⟩ | ⟨c, u, h, h'⟩
  · rw [h, h']
    exact .absent [] []
  · rw [h, h', splitSign_append_newline]
    dsimp only
    rw [Text.takeWhile_append_newline hdigit, Text.dropWhile_append_newline hdigit]
    split
    · exact .absent _ _
    · generalize (splitSign (c :: u)).2.dropWhile Char.isDigit = rest
      -- a point at the end of the text has no digit behind it, with or without the line end
      cases rest with
      | nil => exact integerReading_withLineEnd _ _ _ []
      | cons d tail =>
        by_cases hd : d = '.'
        · subst hd
          simp only [List.cons_append, Text.startsWith_append_newline hdigit]
          split
          · simp only [floatReading, Text.takeWhile_append_newline hdigit,
              Text.dropWhile_append_newline hdigit]
            rw [← List.cons_append, Text.before_append_append]
            exact .found _ _
          · exact integerReading_withLineEnd _ _ (c :: u) ('.' :: tail)
        · split
          · next heq => exact absurd (List.cons.inj heq).1 hd
          · split
            · next heq => exact absurd (List.cons.inj heq).1 hd
            · exact integerReading_withLineEnd _ _ (c :: u) (d :: tail)

theorem ignoresLineEnd_readWord : IgnoresLineEnd readWord := by
  intro t
  unfold readWord
  rcases Text.skipBlank_append_newline t with ⟨h, h'⟩ | ⟨c, u, h, h'⟩
  · rw [h, h']
    exact .absent [] []
  · rw [h, h']
    -- no word ends with a line end, so the line end is never a part of one
    split
    · next rest heq =>
      rw [heq]
      exact .found _ rest
    · next rest heq =>
      rw [heq]
      exact .found _ rest
    · next rest heq =>
      rw [heq]
      exact .found _ rest
    · next htrue hfalse hnull =>
      split
      · next rest heq =>
        obtain ⟨rest', -, hu⟩ := Text.exists_append_newline (w := "true".toList) (by decide) heq
        exact absurd hu (htrue rest')
      · next rest heq =>
        obtain ⟨rest', -, hu⟩ := Text.exists_append_newline (w := "false".toList) (by decide) heq
        exact absurd hu (hfalse rest')
      · next rest heq =>
        obtain ⟨rest', -, hu⟩ := Text.exists_append_newline (w := "null".toList) (by decide) heq
        exact absurd hu (hnull rest')
      · exact .absent _ _

theorem ignoresLineEnd_readBlock (dropsTag : Bool) : IgnoresLineEnd (readBlock dropsTag) := by
  intro t
  unfold readBlock
  dsimp only
  rcases Text.skipBlank_append_newline t with ⟨h, h'⟩ | ⟨c, u, h, h'⟩
  · rw [h, h']
    exact .absent [] []
  · rw [h, h', Fence.read?_append_newline]
    cases Fence.read? (c :: u) with
    | none => exact .absent _ _
    | some fr =>
      dsimp only [Option.map_some]
      rw [Text.before_append_append]
      exact .found _ _

/-! ## Rows between brackets -/

section Rows

variable {α : Type} {readPart : Text → Reading α}

/-- A line end behind a row, where the rounds suffice for the text with and without it. -/
theorem readListed_withLineEnd (hpart : IgnoresLineEnd readPart)
    (hsuffix : ∀ t a rest, readPart t = .found a rest → rest <:+ t) (close : Char)
    {rounds rounds' : Nat} {t : Text} (hr : t.length < rounds) (hr' : t.length < rounds') :
    (readListed readPart close rounds t).WithLineEnd
      (readListed readPart close rounds' (t ++ ['\n'])) := by
  induction rounds generalizing t rounds' with
  | zero => exact absurd hr (Nat.not_lt_zero _)
  | succ rounds ih =>
    obtain ⟨n, rfl⟩ : ∃ n, rounds' = n + 1 := ⟨rounds' - 1, by omega⟩
    rw [readListed, readListed]
    refine (hpart t).andThen fun a rest hread => ?_
    have hlen := (hsuffix t a rest hread).length_le
    rcases Text.skipBlank_append_newline rest with ⟨h, h'⟩ | ⟨c, u, h, h'⟩
    · rw [h, h']
      exact .absent [] []
    · have hshort := (Text.skipBlank_suffix rest).length_le
      rw [h, List.length_cons] at hshort
      rw [h, h']
      dsimp only [List.cons_append]
      split
      · exact .found [a] u
      · split
        · exact (ih (by omega) (by omega)).map _
        · exact .absent _ _

theorem ignoresLineEnd_readBracketed (hpart : IgnoresLineEnd readPart)
    (hsuffix : ∀ t a rest, readPart t = .found a rest → rest <:+ t)
    (hnil : readPart [] = .absent []) (opening closing : Char) :
    IgnoresLineEnd (readBracketed opening closing readPart) := by
  intro t
  unfold readBracketed
  rcases Text.skipBlank_append_newline t with ⟨h, h'⟩ | ⟨c, body, h, h'⟩
  · rw [h, h']
    exact .absent [] []
  · rw [h, h']
    dsimp only [List.cons_append]
    split
    · rcases Text.skipBlank_append_newline body with ⟨hb, hb'⟩ | ⟨d, inner, hb, hb'⟩
      · rw [hb, hb']
        simp only [readListed, hnil, Reading.andThen_absent]
        exact .absent [] []
      · rw [hb, hb']
        dsimp only [List.cons_append]
        split
        · rw [← List.cons_append, Text.before_append_append]
          exact .found _ inner
        · refine (readListed_withLineEnd hpart hsuffix closing (by simp) (by simp)).andThen
            fun as rest _ => ?_
          rw [← List.cons_append, Text.before_append_append]
          exact .found _ rest
    · exact .absent _ _

end Rows

section Containers

variable {readItem : Text → Reading Value} {Item : Value → Prop}

theorem ignoresLineEnd_readKey : IgnoresLineEnd readKey := by
  have hstart : isNameStart '\n' = false := by decide
  have hchar : isNameChar '\n' = false := by decide
  intro t
  unfold readKey readName
  dsimp only
  rcases Text.skipBlank_append_newline t with ⟨h, h'⟩ | ⟨c, u, h, h'⟩
  · rw [h, h']
    exact .absent [] []
  · rw [h, h', Text.startsWith_append_newline hstart, Text.takeWhile_append_newline hchar,
      Text.dropWhile_append_newline hchar]
    by_cases hs : startsWith isNameStart (c :: u) = true
    · rw [if_pos hs, if_pos hs]
      exact .found _ _
    · rw [if_neg hs, if_neg hs]
      exact ignoresLineEnd_readText (c :: u)

theorem ignoresLineEnd_readMember (hitem : IgnoresLineEnd readItem) :
    IgnoresLineEnd (readMember readItem) := by
  intro t
  unfold readMember
  refine (ignoresLineEnd_readKey t).andThen fun key rest _ => ?_
  rcases Text.skipBlank_append_newline rest with ⟨h, h'⟩ | ⟨c, u, h, h'⟩
  · rw [h, h']
    exact .absent [] []
  · rw [h, h']
    split
    · next u heq =>
      obtain ⟨rfl, rfl⟩ := List.cons.inj heq
      exact (hitem _).map _
    · next hne =>
      split
      · next heq =>
        obtain ⟨rfl, -⟩ := List.cons.inj heq
        exact absurd rfl (hne u)
      · exact .absent _ _

theorem ignoresLineEnd_readArray (hi : FindsExactly readItem Item)
    (hitem : IgnoresLineEnd readItem) (hnil : readItem [] = .absent []) :
    IgnoresLineEnd (readArray readItem) := by
  intro t
  rw [readArray_eq_readBracketed, readArray_eq_readBracketed]
  exact (ignoresLineEnd_readBracketed hitem hi.element_suffix hnil '[' ']' t).map _

theorem ignoresLineEnd_readObject (hi : FindsExactly readItem Item)
    (hitem : IgnoresLineEnd readItem) : IgnoresLineEnd (readObject readItem) := by
  intro t
  rw [readObject_eq_readBracketed, readObject_eq_readBracketed]
  exact (ignoresLineEnd_readBracketed (ignoresLineEnd_readMember hitem) hi.member_suffix rfl
    '\x7b' '\x7d' t).map _

end Containers

/-! ## Values -/

theorem ignoresLineEnd_readNested (dropsTag : Bool) (levels : Nat) :
    IgnoresLineEnd (readNested dropsTag levels) := by
  induction levels with
  | zero => exact fun t => .absent _ _
  | succ levels ih =>
    have hi := readNested_findsExactly dropsTag levels
    have hnil : readNested dropsTag levels [] = .absent [] := by
      cases levels <;> rfl
    have hdigit : Char.isDigit '\n' = false := rfl
    intro t
    unfold readNested
    rcases Text.skipBlank_append_newline t with ⟨h, h'⟩ | ⟨c, u, h, h'⟩
    · rw [h, h']
      exact .absent [] []
    · rw [h, h']
      dsimp only [List.cons_append]
      rw [Text.startsWith_append_newline hdigit]
      split
      · exact ignoresLineEnd_readString (c :: u)
      · split
        · exact ignoresLineEnd_readNumber (c :: u)
        · split
          · exact ignoresLineEnd_readArray hi ih hnil (c :: u)
          · split
            · exact ignoresLineEnd_readObject hi ih (c :: u)
            · split
              · exact ignoresLineEnd_readBlock dropsTag (c :: u)
              · split
                · exact ignoresLineEnd_readWord (c :: u)
                · exact .absent _ _

end Literal

end ToolCalls

import ToolCalls.Proofs.Call.Grammar
import ToolCalls.Proofs.Literal.LineEnds

/-!
# A line end behind a call

A line end behind a text makes no difference to the call at the front of the text: there is the same
call or none, with the rule about the end of the line and without it (`parse?_append_newline`).
-/

namespace ToolCalls.Call

open Literal (startsWith isNameStart isNameChar)
open Reading (IgnoresLineEnd WithLineEnd)
open Text (skipBlank skipInline)

theorem ignoresLineEnd_readValue (dropsTag : Bool) : IgnoresLineEnd (Literal.readValue dropsTag) :=
  Literal.ignoresLineEnd_readNested dropsTag Literal.maxNesting

/-! ## Arguments -/

theorem startsNamed_append_newline (t : Text) : startsNamed (t ++ ['\n']) = startsNamed t := by
  have hstart : isNameStart '\n' = false := by decide
  have hchar : isNameChar '\n' = false := by decide
  rw [startsNamed, startsNamed, Text.startsWith_append_newline hstart,
    Text.dropWhile_append_newline hchar]
  rcases Text.skipBlank_append_newline (t.dropWhile isNameChar) with ⟨h, h'⟩ | ⟨c, u, h, h'⟩
  · rw [h, h']
  · rw [h, h']
    rfl

theorem ignoresLineEnd_readArgument (dropsTag : Bool) : IgnoresLineEnd (readArgument dropsTag) := by
  have hchar : isNameChar '\n' = false := by decide
  intro t
  rw [readArgument_eq, readArgument_eq]
  rcases Text.skipBlank_append_newline t with ⟨h, h'⟩ | ⟨c, u, h, h'⟩
  · rw [h, h']
    exact .absent [] []
  · rw [h, h', startsNamed_append_newline]
    split
    · next hnamed =>
      rw [Text.takeWhile_append_newline hchar, Text.dropWhile_append_newline hchar]
      rcases Text.skipBlank_append_newline ((c :: u).dropWhile isNameChar) with
        ⟨hc, hc'⟩ | ⟨d, v, hc, hc'⟩
      · rw [startsNamed, hc, Text.startsWith_nil, Bool.and_false] at hnamed
        cases hnamed
      · rw [hc, hc']
        exact (ignoresLineEnd_readValue dropsTag v).map _
    · exact (ignoresLineEnd_readValue dropsTag (c :: u)).map _

theorem length_lt_of_readArgument {dropsTag : Bool} {t rest : Text} {a : Argument}
    (h : readArgument dropsTag t = .found a rest) : rest.length < t.length := by
  obtain ⟨b, u, -, hu, -, rfl⟩ := argumentForm_of_readArgument h
  obtain ⟨c, v, rfl, -⟩ := Text.exists_cons_of_startsWith (hu.canStart fun _ hv => hv.canStart)
  simp only [List.length_append, List.length_cons]
  omega

/-- A line end behind the arguments, where the rounds suffice for the text with and without it. -/
theorem readArguments_withLineEnd (dropsTag : Bool) {rounds rounds' : Nat} {t : Text}
    (hr : t.length < rounds) (hr' : t.length < rounds') :
    (readArguments dropsTag rounds t).WithLineEnd
      (readArguments dropsTag rounds' (t ++ ['\n'])) := by
  induction rounds generalizing t rounds' with
  | zero => exact absurd hr (Nat.not_lt_zero _)
  | succ rounds ih =>
    obtain ⟨n, rfl⟩ : ∃ n, rounds' = n + 1 := ⟨rounds' - 1, by omega⟩
    rw [readArguments, readArguments]
    refine (ignoresLineEnd_readArgument dropsTag t).andThen fun a rest hread => ?_
    have hlen := length_lt_of_readArgument hread
    rcases Text.skipBlank_append_newline rest with ⟨h, h'⟩ | ⟨c, u, h, h'⟩
    · rw [h, h']
      exact .absent [] []
    · have hshort := (Text.skipBlank_suffix rest).length_le
      rw [h, List.length_cons] at hshort
      rw [h, h']
      dsimp only [List.cons_append]
      split
      · exact .found [a] (c :: u)
      · split
        · exact (ih (by omega) (by omega)).map _
        · split
          · have hcons : (c :: u).length = u.length + 1 := List.length_cons
            have hnext : (readArguments dropsTag rounds (c :: u)).WithLineEnd
                (readArguments dropsTag n (c :: u ++ ['\n'])) := ih (by omega) (by omega)
            exact hnext.map _
          · exact .absent _ _

theorem ignoresLineEnd_readArgumentList (dropsTag : Bool) :
    IgnoresLineEnd (readArgumentList dropsTag) := by
  intro t
  unfold readArgumentList
  rcases Text.skipBlank_append_newline t with ⟨h, h'⟩ | ⟨c, u, h, h'⟩
  · rw [h, h']
    exact .absent [] []
  · rw [h, h']
    split
    · next rest heq =>
      rw [heq]
      exact .found [] (')' :: rest)
    · next hne =>
      split
      · next heq =>
        obtain ⟨rfl, -⟩ := List.cons.inj heq
        exact absurd rfl (hne u)
      · exact readArguments_withLineEnd dropsTag (by omega) (by simp)

/-! ## Behind the closing parenthesis -/

theorem skipInline_append_newline (t : Text) :
    skipInline (t ++ ['\n']) = skipInline t ++ ['\n'] :=
  Text.dropWhile_append_newline rfl t

theorem endsLine_append_newline (t : Text) : endsLine (t ++ ['\n']) = endsLine t := by
  rw [endsLine, endsLine, skipInline_append_newline]
  cases skipInline t with
  | nil => rfl
  | cons c u =>
    have hrun : tickRun (c :: (u ++ ['\n'])) = tickRun (c :: u) := tickRun_append rfl (c :: u)
    simp only [List.cons_append, hrun]

theorem ignoresLineEnd_readContent (dropsTag : Bool) : IgnoresLineEnd (readContent dropsTag) := by
  intro t
  unfold readContent
  dsimp only
  rw [skipInline_append_newline, tickRun_append rfl, Fence.read?_append_newline]
  split
  · exact .found [] t
  · cases Fence.read? (skipInline t) with
    | none => exact .absent _ _
    | some fr => exact .found _ fr.2

/-! ## Calls -/

theorem ignoresLineEnd_read (requireLineEnd dropsTag : Bool) :
    IgnoresLineEnd (read requireLineEnd dropsTag) := by
  intro t
  unfold read
  refine (Literal.ignoresLineEnd_readName t).andThen fun name rest _ => ?_
  rcases Text.skipBlank_append_newline rest with ⟨h, h'⟩ | ⟨c, u, h, h'⟩
  · rw [h, h']
    exact .absent [] []
  · rw [h, h']
    split
    · next u heq =>
      obtain ⟨rfl, rfl⟩ := List.cons.inj heq
      refine (ignoresLineEnd_readArgumentList dropsTag _).andThen fun arguments rest _ => ?_
      rcases Text.skipBlank_append_newline rest with ⟨h, h'⟩ | ⟨d, v, h, h'⟩
      · rw [h, h']
        exact .absent [] []
      · rw [h, h']
        split
        · next v heq =>
          obtain ⟨rfl, rfl⟩ := List.cons.inj heq
          simp only [List.cons_append, endsLine_append_newline]
          split
          · exact .absent _ _
          · refine (ignoresLineEnd_readContent dropsTag v).andThen fun content rest _ => ?_
            rw [Text.before_append_append]
            exact .found _ rest
        · next hne =>
          split
          · next heq =>
            obtain ⟨rfl, -⟩ := List.cons.inj heq
            exact absurd rfl (hne v)
          · exact .absent _ _
    · next hne =>
      split
      · next heq =>
        obtain ⟨rfl, -⟩ := List.cons.inj heq
        exact absurd rfl (hne u)
      · exact .absent _ _

/-- A line end behind a text changes nothing about the call at its front. -/
theorem parse?_append_newline (requireLineEnd : Bool) (options : ReadOptions) (t : Text) :
    parse? requireLineEnd options (t ++ ['\n']) = parse? requireLineEnd options t :=
  (ignoresLineEnd_read requireLineEnd options.dropTag t).result_eq

end ToolCalls.Call

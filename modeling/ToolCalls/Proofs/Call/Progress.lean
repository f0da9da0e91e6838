import ToolCalls.Proofs.Call.Limits
import ToolCalls.Proofs.Literal.Progress

/-!
# Progress in calls

Reading at a position inside a text stops inside it and not before that position, and a name, a
value or a call that is found lies behind it.  The main statement is `readers_move_forward`.  It
says too that all loops come to an end since each of their rounds consumes a character
(`IsLoop`), and that an argument has no name just if the attempt to read one did not move
(`readNamed`).
-/

namespace ToolCalls

open Text (isBlank skipBlank skipInline ProperSuffix)

namespace Call

open Literal (readName readValue advances_readName advances_readNested maxNesting)

/-! ## Names of arguments

Whether an argument has a name is tried out: a name is read, and without a colon behind it reading
goes back to where it began.  The position then tells whether there was a name. -/

/-- Tries to read an argument with a name.  Without a colon reading goes back, and without a name it
stays where it gave up looking for one. -/
def readNamed (dropsTag : Bool) (t : Text) : Reading (Option Argument) :=
  match readName t with
  | .found name rest =>
    match skipBlank rest with
    | ':' :: rest => (readValue dropsTag rest).map fun v => some ⟨some name, v⟩
    | _ => .found none t
  | .absent rest => .found none rest
  | .fault o => .fault o

/-- Reads an argument, with the position as the only sign of whether it has a name. -/
def readByPosition (dropsTag : Bool) (t : Text) : Reading (Option Argument) :=
  (readNamed dropsTag (skipBlank t)).andThen fun a? rest =>
    if rest.length = (skipBlank t).length then
      (readValue dropsTag rest).map fun v => some ⟨none, v⟩
    else .found a? rest

/-- Behind blanks there is a name with a colon, behind which the value of an argument is read, or
nothing is consumed and the value is read there. -/
theorem readNamed_cases (dropsTag : Bool) (t : Text) :
    (∃ name u, ProperSuffix u (skipBlank t) ∧
      readNamed dropsTag (skipBlank t) =
        (readValue dropsTag u).map (fun v => some ⟨some name, v⟩) ∧
      readArgument dropsTag t = (readValue dropsTag u).map (Argument.mk (some name))) ∨
    (readNamed dropsTag (skipBlank t) = .found none (skipBlank t) ∧
      readArgument dropsTag t = (readValue dropsTag (skipBlank t)).map (Argument.mk none)) := by
  simp only [readNamed, readArgument]
  cases hname : readName (skipBlank t) with
  | fault o => exact absurd hname (Literal.readName_ne_fault _ o)
  | absent rest =>
    -- without a name reading gives up at the first character that is no blank
    have hrest : rest = skipBlank t :=
      (Literal.skipsOnly_readName _ rest hname).trans (Text.skipBlank_skipBlank t)
    exact .inr ⟨by rw [hrest], rfl⟩
  | found name rest =>
    have hafter : rest <:+ skipBlank t := ((advances_readName _).properSuffix hname).1
    by_cases hcolon : ∃ u, skipBlank rest = ':' :: u
    · obtain ⟨u, hu⟩ := hcolon
      have hbehind : ProperSuffix u (skipBlank t) :=
        (Text.properSuffix_of_skipBlank hu).mono hafter
      exact .inl ⟨name, u, hbehind, by simp only [hu], by simp only [hu]⟩
    · right
      dsimp only
      constructor
      · split
        · next u hu => exact absurd ⟨u, hu⟩ hcolon
        · rfl
      · split
        · next u hu => exact absurd ⟨u, hu⟩ hcolon
        · rfl

theorem stays_readNamed (dropsTag : Bool) (t : Text) :
    (readNamed dropsTag (skipBlank t)).Stays (skipBlank t) := by
  obtain ⟨name, u, hu, hnamed, -⟩ | ⟨hnamed, -⟩ := readNamed_cases dropsTag t
  · rw [hnamed]
    exact ((advances_readNested dropsTag maxNesting u).stays.map _).mono hu.1
  · rw [hnamed]
    exact List.suffix_rfl

theorem length_eq_iff_of_readNamed {dropsTag : Bool} {t rest : Text} {a? : Option Argument}
    (h : readNamed dropsTag (skipBlank t) = .found a? rest) :
    rest.length = (skipBlank t).length ↔ a? = none := by
  obtain ⟨name, u, hu, hnamed, -⟩ | ⟨hnamed, -⟩ := readNamed_cases dropsTag t
  · rw [hnamed] at h
    obtain ⟨v, hv, rfl⟩ := Reading.map_eq_found_iff.1 h
    have hvalue := (advances_readNested dropsTag maxNesting u).shorter v rest hv
    have hlt := hu.2
    simp only [reduceCtorEq, iff_false]
    omega
  · rw [hnamed] at h
    cases h
    simp

/-- The position tells apart the arguments with a name from those without. -/
theorem readByPosition_eq (dropsTag : Bool) (t : Text) :
    readByPosition dropsTag t = (readArgument dropsTag t).map some := by
  rw [readByPosition]
  obtain ⟨name, u, hu, hnamed, hargument⟩ | ⟨hnamed, hargument⟩ := readNamed_cases dropsTag t
  · rw [hargument]
    cases hvalue : readValue dropsTag u with
    | found v rest =>
      rw [hvalue, Reading.map_found] at hnamed
      have hmoved : rest.length ≠ (skipBlank t).length := by
        rw [ne_eq, length_eq_iff_of_readNamed hnamed]
        nofun
      rw [hnamed, Reading.andThen_found, if_neg hmoved]
      rfl
    | absent rest => rw [hnamed, hvalue]; rfl
    | fault o => rw [hnamed, hvalue]; rfl
  · rw [hnamed, hargument, Reading.andThen_found, if_pos rfl]
    cases readValue dropsTag (skipBlank t) <;> rfl

theorem advances_readArgument (dropsTag : Bool) (t : Text) :
    (readArgument dropsTag t).Advances t := by
  have hskip := Text.skipBlank_suffix t
  have hvalue (u : Text) : (readValue dropsTag u).Advances u :=
    advances_readNested dropsTag maxNesting u
  obtain ⟨name, u, hu, -, hargument⟩ | ⟨-, hargument⟩ := readNamed_cases dropsTag t
  · rw [hargument]
    exact ((hvalue u).map _).mono (hu.1.trans hskip)
  · rw [hargument]
    exact ((hvalue (skipBlank t)).map _).mono hskip

/-! ## Arguments -/

/-- A round of the arguments: an argument and what separates it from the next one, or the closing
parenthesis, which is left. -/
def argumentRound (dropsTag : Bool) (t : Text) : Round (List Argument) :=
  .after (readArgument dropsTag t) fun a rest =>
    match skipBlank rest with
    | [] => .ends (.absent [])
    | c :: rest =>
      if c = ')' then .ends (.found [a] (c :: rest))
      else if c = ',' then .goesOn (a :: ·) rest
      else if Literal.canStart c then .goesOn (a :: ·) (c :: rest)
      else .ends (.absent (c :: rest))

theorem moves_argumentRound (dropsTag : Bool) (t : Text) : (argumentRound dropsTag t).Moves t := by
  have hargument := advances_readArgument dropsTag t
  refine Round.moves_after hargument.stays fun a rest hr => ?_
  have hrest : ProperSuffix rest t := hargument.properSuffix hr
  split
  · exact List.nil_suffix
  · next c u hskip =>
    have hu : ProperSuffix u t := (Text.properSuffix_of_skipBlank hskip).mono hrest.1
    -- without a comma nothing is consumed behind the argument
    have hcu : ProperSuffix (c :: u) t := by
      rw [← hskip]
      exact hrest.of_suffix (Text.skipBlank_suffix rest)
    split
    · exact hcu.1
    · split
      · exact hu
      · split
        · exact hcu
        · exact hcu.1

theorem readArguments_succ (dropsTag : Bool) (n : Nat) (t : Text) :
    readArguments dropsTag (n + 1) t =
      (argumentRound dropsTag t).play (readArguments dropsTag n) := by
  rw [readArguments, argumentRound, Round.play_after]
  congr 1
  funext a rest
  cases skipBlank rest with
  | nil => rfl
  | cons c u =>
    dsimp only
    split
    · rfl
    · split
      · rfl
      · split <;> rfl

theorem isLoop_readArguments (dropsTag : Bool) :
    IsLoop (argumentRound dropsTag) fun t => readArguments dropsTag (t.length + 1) t := by
  refine .of_rounds (moves_argumentRound dropsTag) (readArguments_succ dropsTag) ?_
  rw [readArguments, (advances_readArgument dropsTag []).eq_absent, Reading.andThen_absent]

theorem stays_readArgumentList (dropsTag : Bool) (t : Text) :
    (readArgumentList dropsTag t).Stays t := by
  have hskip := Text.skipBlank_suffix t
  unfold readArgumentList
  split
  · next rest heq => rwa [heq] at hskip
  · exact ((isLoop_readArguments dropsTag).stays (skipBlank t)).mono hskip

/-! ## Calls -/

theorem stays_readContent (dropsTag : Bool) (t : Text) : (readContent dropsTag t).Stays t := by
  have hskip := Text.skipInline_suffix t
  simp only [readContent]
  split
  · exact List.suffix_rfl
  · split
    · next f rest hf =>
      obtain ⟨-, hs, -⟩ := Fence.read?_eq_some_iff.1 hf
      have hrest : rest <:+ skipInline t := by
        rw [hs]
        exact List.suffix_append f.raw rest
      exact hrest.trans hskip
    · exact hskip

theorem advances_read (requireLineEnd dropsTag : Bool) (t : Text) :
    (read requireLineEnd dropsTag t).Advances t := by
  refine (advances_readName t).andThen fun name rest _ => ?_
  split
  · next u hu =>
    apply Reading.Stays.mono _ (Text.properSuffix_of_skipBlank hu).1
    refine (stays_readArgumentList dropsTag u).andThen fun as rest' _ => ?_
    split
    · next w hw =>
      apply Reading.Stays.mono _ (Text.properSuffix_of_skipBlank hw).1
      split
      · exact List.suffix_rfl
      · exact (stays_readContent dropsTag w).andThen fun _ _ _ => List.suffix_rfl
    · exact Text.skipBlank_suffix rest'
  · exact Text.skipBlank_suffix rest

end Call

/-! ## Positions -/

namespace Cursor

open Literal (readName readString readNumber readWord readBlock readArray readObject readNested
  readElements readMembers readMember listedRound stringRound fenceRound unquote? maxNesting)

variable {α : Type} {c : Cursor} {reader : Text → Reading α} {rest : Text}

/-- Reading ends with a result and the cursor at a place in the text that is not before the one
where it began, or at a digit row behind the cursor that is too long. -/
def StaysWithin (c : Cursor) (reader : Text → Reading α) : Prop :=
  (∃ o, c.read reader = .error o ∧ o.StandsIn c.rest) ∨
    ∃ a? c', c.read reader = .ok (a?, c') ∧ c'.text = c.text ∧ c.pos ≤ c'.pos ∧
      c'.pos ≤ c.text.length ∧ (reader c.rest).rest? = some c'.rest

/-- Reading stays within the text, and what is found lies behind the cursor. -/
def MovesOn (c : Cursor) (reader : Text → Reading α) : Prop :=
  c.StaysWithin reader ∧ ∀ a c', c.read reader = .ok (some a, c') → c.pos < c'.pos

/-- Where nothing is found, the cursor is left at the first character that is no blank. -/
def GivesUpBehindBlanks (c : Cursor) (reader : Text → Reading α) : Prop :=
  ∀ c', c.read reader = .ok (none, c') → c' = c.skip isBlank

theorem length_rest (c : Cursor) : c.rest.length = c.text.length - c.pos := List.length_drop

theorem rest_moveTo (h : rest <:+ c.rest) : (c.moveTo rest).rest = rest := by
  have hsuffix : rest <:+ c.text := h.trans (List.drop_suffix c.pos c.text)
  exact (List.suffix_iff_eq_drop.1 hsuffix).symm

theorem le_pos_moveTo (hc : c.pos ≤ c.text.length) (h : rest <:+ c.rest) :
    c.pos ≤ (c.moveTo rest).pos := by
  have hlen := h.length_le
  rw [length_rest] at hlen
  simp only [moveTo]
  omega

theorem staysWithin_of_stays (hc : c.pos ≤ c.text.length)
    (h : (reader c.rest).Stays c.rest) : c.StaysWithin reader := by
  -- a result or none, the cursor is moved in the same way
  have moved (a? : Option α) {rest : Text} (hr : rest <:+ c.rest)
      (hread : c.read reader = .ok (a?, c.moveTo rest))
      (hrest : (reader c.rest).rest? = some rest) : c.StaysWithin reader := by
    refine .inr ⟨a?, c.moveTo rest, hread, rfl, le_pos_moveTo hc hr, Nat.sub_le _ _, ?_⟩
    rw [hrest, rest_moveTo hr]
  cases hr : reader c.rest with
  | found a rest =>
    rw [hr] at h
    exact moved (some a) h (by rw [read, hr]) (by rw [hr]; rfl)
  | absent rest =>
    rw [hr] at h
    exact moved none h (by rw [read, hr]) (by rw [hr]; rfl)
  | fault o =>
    rw [hr] at h
    exact .inl ⟨o, by rw [read, hr], h⟩

theorem movesOn_of_advances (hc : c.pos ≤ c.text.length)
    (h : (reader c.rest).Advances c.rest) : c.MovesOn reader := by
  refine ⟨staysWithin_of_stays hc h.stays, fun a c' hread => ?_⟩
  unfold read at hread
  split at hread <;> cases hread
  next rest hr =>
  have hlen := h.shorter a rest hr
  rw [length_rest] at hlen
  simp only [moveTo]
  omega

theorem moveTo_skipBlank (hc : c.pos ≤ c.text.length) :
    c.moveTo (skipBlank c.rest) = c.skip isBlank := by
  have hsplit := congrArg List.length (List.takeWhile_append_dropWhile (p := isBlank) (l := c.rest))
  rw [List.length_append, length_rest] at hsplit
  simp only [moveTo, skip, skipBlank, mk.injEq, true_and]
  omega

theorem rest_skip_isBlank (hc : c.pos ≤ c.text.length) :
    (c.skip isBlank).rest = skipBlank c.rest := by
  rw [← moveTo_skipBlank hc]
  exact rest_moveTo (Text.skipBlank_suffix c.rest)

theorem givesUpBehindBlanks (hc : c.pos ≤ c.text.length) (h : Literal.SkipsOnly reader) :
    c.GivesUpBehindBlanks reader := by
  intro c' hread
  unfold read at hread
  split at hread <;> cases hread
  next rest hr => rw [h _ rest hr, moveTo_skipBlank hc]

/-- Behind blanks, an argument with a name has been read just if the cursor has moved. -/
theorem pos_eq_iff_of_readNamed {dropsTag : Bool} (hc : c.pos ≤ c.text.length) {c' : Cursor}
    {a? : Option Call.Argument}
    (h : (c.skip isBlank).read (Call.readNamed dropsTag) = .ok (some a?, c')) :
    c'.pos = (c.skip isBlank).pos ↔ a? = none := by
  have hskip : (skipBlank c.rest).length ≤ c.text.length :=
    ((Text.skipBlank_suffix c.rest).trans (List.drop_suffix c.pos c.text)).length_le
  rw [read, rest_skip_isBlank hc] at h
  split at h <;> cases h
  next rest hr =>
  have hstays := Call.stays_readNamed dropsTag c.rest
  rw [hr] at hstays
  have hle : rest.length ≤ (skipBlank c.rest).length := List.IsSuffix.length_le hstays
  rw [← Call.length_eq_iff_of_readNamed hr, ← moveTo_skipBlank hc]
  simp only [moveTo]
  omega

/-- At every position inside a text, every reader stops inside the text and not before that
position, and one that finds a name, a value or a call stops behind it.  The loops of the readers
come to an end by themselves.  Where no name, no number or no block is found, the cursor is left
behind the blanks, so the position alone tells whether an argument has a name. -/
theorem readers_move_forward (requireLineEnd dropsTag : Bool) (levels : Nat) (c : Cursor)
    (hc : c.pos ≤ c.text.length) :
    (c.MovesOn readName ∧ c.MovesOn readString ∧ c.MovesOn readNumber ∧ c.MovesOn readWord ∧
      c.MovesOn (readBlock dropsTag) ∧ c.MovesOn (readArray (readNested dropsTag levels)) ∧
      c.MovesOn (readObject (readNested dropsTag levels)) ∧
      c.MovesOn (readNested dropsTag levels)) ∧
    (c.StaysWithin (Call.readArgumentList dropsTag) ∧ c.StaysWithin (Call.readContent dropsTag) ∧
      c.MovesOn (Call.read requireLineEnd dropsTag)) ∧
    -- the loops, each with the bound on its rounds that is never met
    (IsLoop (listedRound (readNested dropsTag levels) ']')
        (fun t => readElements (readNested dropsTag levels) (t.length + 1) t) ∧
      IsLoop (listedRound (readMember (readNested dropsTag levels)) '\x7d')
        (fun t => readMembers (readNested dropsTag levels) (t.length + 1) t) ∧
      IsLoop (Call.argumentRound dropsTag)
        (fun t => Call.readArguments dropsTag (t.length + 1) t) ∧
      (∀ quote, IsLoop (stringRound quote) fun t => .ofOption (unquote? quote t) []) ∧
      ∀ n, minTicks ≤ n → IsLoop (fenceRound n) fun t => .ofOption (Fence.cutAtRun n 0 t) []) ∧
    (c.GivesUpBehindBlanks readName ∧ c.GivesUpBehindBlanks readNumber ∧
      c.GivesUpBehindBlanks (readBlock dropsTag)) ∧
    -- the position tells whether an argument has a name
    (∀ a? c', (c.skip isBlank).read (Call.readNamed dropsTag) = .ok (some a?, c') →
      (c'.pos = (c.skip isBlank).pos ↔ a? = none)) ∧
    Call.readByPosition dropsTag c.rest = (Call.readArgument dropsTag c.rest).map some := by
  have hitem := Literal.advances_readNested dropsTag levels
  refine ⟨⟨?_, ?_, ?_, ?_, ?_, ?_, ?_, ?_⟩, ⟨?_, ?_, ?_⟩, ⟨?_, ?_, ?_, ?_, ?_⟩, ⟨?_, ?_, ?_⟩,
    ?_, ?_⟩
  · exact movesOn_of_advances hc (Literal.advances_readName _)
  · exact movesOn_of_advances hc (Literal.advances_readString _)
  · exact movesOn_of_advances hc (Literal.advances_readNumber _)
  · exact movesOn_of_advances hc (Literal.advances_readWord _)
  · exact movesOn_of_advances hc (Literal.advances_readBlock dropsTag _)
  · exact movesOn_of_advances hc (Literal.advances_readArray hitem _)
  · exact movesOn_of_advances hc (Literal.advances_readObject hitem _)
  · exact movesOn_of_advances hc (hitem _)
  · exact staysWithin_of_stays hc (Call.stays_readArgumentList dropsTag _)
  · exact staysWithin_of_stays hc (Call.stays_readContent dropsTag _)
  · exact movesOn_of_advances hc (Call.advances_read requireLineEnd dropsTag _)
  · exact Literal.isLoop_readElements hitem
  · exact Literal.isLoop_readMembers hitem
  · exact Call.isLoop_readArguments dropsTag
  · exact Literal.isLoop_unquote?
  · exact fun n => Literal.isLoop_cutAtRun
  · exact givesUpBehindBlanks hc Literal.skipsOnly_readName
  · exact givesUpBehindBlanks hc Literal.skipsOnly_readNumber
  · exact givesUpBehindBlanks hc (Literal.skipsOnly_readBlock dropsTag)
  · exact fun a? c' => pos_eq_iff_of_readNamed hc
  · exact Call.readByPosition_eq dropsTag c.rest

/-- A word that could be the name of an argument but is none: the cursor goes back behind the
blanks, and a value is read there. -/
theorem readers_move_forward_bare_word :
    let c : Cursor := { text := "f(  true [1], k: 2)".toList, pos := 2 }
    c.pos ≤ c.text.length ∧ c.MovesOn (readNested true maxNesting) ∧
      (c.read (readNested true maxNesting)).toOption.map (fun r => (r.1.isSome, r.2.pos)) =
        some (true, 8) ∧
      ((c.skip isBlank).read (Call.readNamed true)).toOption.map
        (fun r => (r.1.map Option.isNone, r.2.pos)) = some (some true, (c.skip isBlank).pos) ∧
      ∀ a? c', (c.skip isBlank).read (Call.readNamed true) = .ok (some a?, c') →
        (c'.pos = (c.skip isBlank).pos ↔ a? = none) := by
  intro c
  have hc : c.pos ≤ c.text.length := by decide
  obtain ⟨⟨-, -, -, -, -, -, -, hvalue⟩, -, -, -, hnamed, -⟩ :=
    readers_move_forward true true maxNesting c hc
  exact ⟨hc, hvalue, by decide +kernel, by decide +kernel, hnamed⟩

end Cursor

end ToolCalls

import ToolCalls.Proofs.Call.Grammar
import ToolCalls.Proofs.Literal.Limits

/-!
# Calls at the beginning of a text

`c.Begins dropsTag t` says without a reader that the text `t` begins with the call `c`, whose
integers may have any number of digits: a name, arguments between parentheses, and a block behind
them or none.  `parse?_eq_some_iff_begins` is the main statement: as long as no integer with too
many digits is met, the call at the front of a text is the one that the text begins with.

A call in whose arguments there is an integer with too many digits makes reading end with a fault
(`Head.or_faults`).  A fault means that such an integer stands behind the `Front` of a call
(`read_oversized`), so without too many digits in a row there is none (`parse?_oversized`).
-/

namespace ToolCalls.Call

open Literal (startsWith canStart Spelled Written maxNesting LongBehind)
open Text (AllOf isBlank isInline skipBlank skipInline)

/-! ## Where arguments are filed -/

/-- The names and values of arguments in the order in which they are written.  An argument without a
name is known by the number of such arguments before it. -/
def entries (as : List Argument) : List (Text × Value) :=
  as.mapIdx fun i a =>
    (a.name?.getD (positionKey ((as.take i).countP (·.name?.isNone))), a.value)

theorem fileFrom_eq_merge (next : Nat) (fields : Fields Value) (as : List Argument) :
    fileFrom next fields as = fields.merge (as.mapIdx fun i a =>
      (a.name?.getD (positionKey (next + (as.take i).countP (·.name?.isNone))), a.value)) := by
  induction as generalizing next fields with
  | nil => rfl
  | cons a as ih =>
    obtain ⟨name?, v⟩ := a
    cases name? with
    | some name =>
      rw [fileFrom, ih, List.mapIdx_cons]
      simp [Fields.merge]
    | none =>
      rw [fileFrom, ih, List.mapIdx_cons]
      simp [Fields.merge, Nat.add_assoc, Nat.add_comm 1]

theorem file_eq_ofList (as : List Argument) : file as = Fields.ofList (entries as) := by
  simp only [file, fileFrom_eq_merge, Nat.zero_add]
  rfl

/-! ## Arguments with integers of any length -/

section Mono

variable {Item Item' : Value → Prop} {as : List Argument} {u : Text}

theorem ArgumentForm.mono (hi : ∀ v, Item v → Item' v) {a : Argument} (h : ArgumentForm Item a u) :
    ArgumentForm Item' a u := by
  cases h with
  | named hn hb hb' hv => exact .named hn hb hb' (hi _ hv)
  | bare hv => exact .bare (hi _ hv)

theorem Arguments.mono (hi : ∀ v, Item v → Item' v) (h : Arguments Item as u) :
    Arguments Item' as u := by
  induction h with
  | last h hb hs => exact .last (h.mono hi) hb hs
  | more h hsep hs hw ih => exact .more (h.mono hi) hsep hs ih

theorem Head.mono (hi : ∀ v, Item v → Item' v) {name raw : Text} (h : Head Item name as raw) :
    Head Item' name as raw := by
  obtain ⟨hb, hn, hb', hu⟩ := h
  cases hu with
  | empty he => exact .mk hb hn hb' (.empty he)
  | row he h => exact .mk hb hn hb' (.row he (h.mono hi))

end Mono

section Faults

variable {dropsTag : Bool} {as : List Argument} {u : Text}

theorem ArgumentForm.or_faults {a : Argument} (h : ArgumentForm (Written dropsTag maxNesting) a u) :
    ArgumentForm (Spelled dropsTag maxNesting) a u ∨ ∀ b rest, AllOf isBlank b → a.Stops u rest →
      (readArgument dropsTag (b ++ (u ++ rest))).Faults := by
  cases h with
  | @named name b₁ b₂ v hn hb₁ hb₂ hv =>
    rcases Literal.spelled_or_faults dropsTag maxNesting v hv with hv' | hfault
    · exact Or.inl (.named hn hb₁ hb₂ hv')
    · right
      intro b rest hb hstop
      simp only [List.append_assoc, List.cons_append]
      rw [readArgument_named dropsTag hb hn hb₁]
      exact (hfault b₂ rest hb₂ hstop.value).map _
  | @bare v hv =>
    rcases Literal.spelled_or_faults dropsTag maxNesting v hv with hv' | hfault
    · exact Or.inl (.bare hv')
    · right
      intro b rest hb hstop
      rw [readArgument_bare dropsTag hb hv.canStart (hstop.name rfl)]
      exact (hfault [] rest Text.allOf_nil hstop.value).map _

theorem Arguments.or_faults (h : Arguments (Written dropsTag maxNesting) as u) :
    Arguments (Spelled dropsTag maxNesting) as u ∨ ∀ b r rounds, AllOf isBlank b →
      as.length ≤ rounds → (readArguments dropsTag rounds (b ++ (u ++ ')' :: r))).Faults := by
  induction h with
  | @last a u b' h hb' hs =>
    rcases h.or_faults with hspelled | hfault
    · exact Or.inl (.last hspelled hb' hs)
    · right
      intro b r rounds hb hr
      obtain ⟨n, rfl, -⟩ := Literal.exists_round hr
      rw [List.append_assoc, readArguments]
      exact (hfault b _ hb (hs.paren r)).andThen _
  | @more a u sep w as h hsep hs hw ih =>
    -- a fault in the first argument is met before the others are looked at
    rcases h.or_faults with hspelled | hfault
    · rcases ih with hrow | hfault
      · exact Or.inl (.more hspelled hsep hs hrow)
      · right
        intro b r rounds hb hr
        obtain ⟨n, rfl, hn⟩ := Literal.exists_round hr
        have hstart := hw.canStart fun _ hv => hv.canStart
        obtain ⟨b', hb', hread⟩ := readArguments_more hspelled hsep hs hstart hb r n
        rw [hread]
        exact (hfault b' r n hb' hn).map _
    · right
      intro b r rounds hb hr
      obtain ⟨n, rfl, -⟩ := Literal.exists_round hr
      rw [← List.append_assoc] at hs
      have hfirst := hfault b _ hb (hs.paren r)
      simp only [List.append_assoc] at hfirst ⊢
      rw [readArguments]
      exact hfirst.andThen _

theorem ArgumentList.or_faults (h : ArgumentList (Written dropsTag maxNesting) as u) :
    ArgumentList (Spelled dropsTag maxNesting) as u ∨
      ∀ r, (readArgumentList dropsTag (u ++ ')' :: r)).Faults := by
  cases h with
  | empty hb => exact Or.inl (.empty hb)
  | @row b u as hb h =>
    rcases h.or_faults with hrow | hfault
    · exact Or.inl (.row hb hrow)
    · right
      intro r
      have hlen : as.length ≤ (u ++ ')' :: r).length + 1 := by
        have := h.length_le fun _ hv => hv.canStart
        simp only [List.length_append]
        omega
      rw [List.append_assoc, readArgumentList_row dropsTag hb (h.canStart fun _ hv => hv.canStart)]
      exact hfault [] r _ Text.allOf_nil hlen

/-- Reading at a call finds its arguments or meets an integer with too many digits. -/
theorem Head.or_faults {name raw : Text} (h : Head (Written dropsTag maxNesting) name as raw) :
    Head (Spelled dropsTag maxNesting) name as raw ∨
      ∀ requireLineEnd rest, (read requireLineEnd dropsTag (raw ++ rest)).Faults := by
  obtain @⟨b, name, b', u, as, hb, hn, hb', hu⟩ := h
  rcases hu.or_faults with hspelled | hfault
  · exact Or.inl (.mk hb hn hb' hspelled)
  · right
    intro requireLineEnd rest
    simp only [List.append_assoc, List.cons_append, List.nil_append]
    rw [read_opening requireLineEnd dropsTag hb hn hb']
    exact (hfault rest).andThen _

/-- A call whose first argument is an integer with too many digits is not found. -/
theorem read_long (requireLineEnd dropsTag : Bool) {name ds rest : Text} (hn : Literal.IsName name)
    (h : Literal.Digits ds) (hl : Decimal.maxDigits < ds.length)
    (hr : startsWith Char.isDigit rest = false) (hf : Literal.startsFraction rest = false) :
    read requireLineEnd dropsTag (name ++ '(' :: (ds ++ rest)) = .fault ⟨ds.length⟩ := by
  have hnamed : startsNamed (ds ++ rest) = false := by
    obtain ⟨d, ds', rfl⟩ := List.exists_cons_of_ne_nil h.nonempty
    have hd := Literal.isNameStart_eq_false_of_isDigit (Text.allOf_cons.1 h.digits).1
    rw [startsNamed, List.cons_append, Text.startsWith_cons, hd, Bool.false_and]
  have hvalue : Literal.readValue dropsTag (ds ++ rest) = .fault ⟨ds.length⟩ :=
    Literal.readNested_long dropsTag (maxNesting - 1) false Text.allOf_nil h hl hr hf
  have hargument := readArgument_bare dropsTag Text.allOf_nil h.canStart hnamed
  have hlist := readArgumentList_row dropsTag Text.allOf_nil h.canStart rest
  have hopen := read_opening requireLineEnd dropsTag Text.allOf_nil hn Text.allOf_nil (ds ++ rest)
  rw [hvalue, Reading.map_fault] at hargument
  simp only [List.nil_append] at hargument hlist hopen
  rw [hopen, hlist, readArguments, hargument]
  rfl

end Faults

/-! ## What a fault means -/

/-- An argument up to an integer in it. -/
inductive ArgumentFront (dropsTag : Bool) : Text → Prop where
  | named {b name b' u : Text} (hb : AllOf isBlank b) (hn : Literal.IsName name)
      (hb' : AllOf isBlank b') (h : Literal.Front dropsTag maxNesting u) :
      ArgumentFront dropsTag (b ++ (name ++ (b' ++ ':' :: u)))
  | bare {u : Text} (h : Literal.Front dropsTag maxNesting u) : ArgumentFront dropsTag u

/-- Arguments up to an integer in one of them, given the text from the integer on. -/
inductive ArgumentsFront (dropsTag : Bool) (z : Text) : Text → Prop where
  | here {u : Text} (h : ArgumentFront dropsTag u) : ArgumentsFront dropsTag z u
  | more {a : Argument} {b u sep w : Text} (hb : AllOf isBlank b)
      (h : ArgumentForm (Spelled dropsTag maxNesting) a u) (hsep : Separator sep)
      (hs : a.Stops u (sep ++ (w ++ z))) (hw : ArgumentsFront dropsTag z w) :
      ArgumentsFront dropsTag z (b ++ (u ++ (sep ++ w)))

/-- A call up to an integer in its arguments, given the text from the integer on. -/
inductive Front (dropsTag : Bool) (z : Text) : Text → Prop where
  | mk {b name b' b'' u : Text} (hb : AllOf isBlank b) (hn : Literal.IsName name)
      (hb' : AllOf isBlank b') (hb'' : AllOf isBlank b'') (h : ArgumentsFront dropsTag z u) :
      Front dropsTag z (b ++ (name ++ (b' ++ '(' :: (b'' ++ u))))

theorem Front.blanks {dropsTag : Bool} {z b u : Text} (hb : AllOf isBlank b)
    (h : Front dropsTag z u) : Front dropsTag z (b ++ u) := by
  obtain ⟨hb₁, hn, hb', hb'', h⟩ := h
  rw [← List.append_assoc]
  exact .mk (Text.allOf_append.2 ⟨hb, hb₁⟩) hn hb' hb'' h

section Oversized

variable {dropsTag : Bool} {t : Text} {o : Decimal.Oversized}

theorem readArgument_oversized (h : readArgument dropsTag t = .fault o) :
    LongBehind (fun _ => ArgumentFront dropsTag) o t := by
  obtain ⟨b, ht, hb, -⟩ := Text.exists_blanks t
  rw [readArgument_eq] at h
  split at h
  · next hnamed =>
    obtain ⟨b', hn, hb', hsplit⟩ := exists_of_startsNamed hnamed
    have hlong : LongBehind (fun _ => ArgumentFront dropsTag) o _ :=
      (Literal.readNested_oversized (Reading.map_eq_fault_iff.1 h)).append
        (b ++ ((skipBlank t).takeWhile Literal.isNameChar ++ (b' ++ [':']))) fun _ _ _ hu => by
          simpa using ArgumentFront.named hb hn hb' hu
    rw [ht, hsplit]
    simpa using hlong
  · rw [ht]
    exact (Literal.readNested_oversized (Reading.map_eq_fault_iff.1 h)).append b
      fun _ _ _ hu => .bare (hu.blanks hb)

theorem readArguments_oversized {rounds : Nat} (h : readArguments dropsTag rounds t = .fault o) :
    LongBehind (ArgumentsFront dropsTag) o t := by
  induction rounds generalizing t with
  | zero => cases h
  | succ rounds ih =>
    rw [readArguments, Reading.andThen_eq_fault_iff] at h
    rcases h with h | ⟨a, rest, hread, h⟩
    · exact (readArgument_oversized h).mono fun _ _ => .here
    · obtain ⟨b, u, hb, hform, hstops, rfl⟩ := argumentForm_of_readArgument hread
      obtain ⟨b', hrest, hb', -⟩ := Text.exists_blanks rest
      split at h
      · cases h
      · next c rest' hskip =>
        rw [hskip] at hrest
        subst hrest
        split at h
        · cases h
        · split at h
          · next hcomma =>
            have hnext : LongBehind (ArgumentsFront dropsTag) o _ :=
              (ih (Reading.map_eq_fault_iff.1 h)).append (b ++ (u ++ (b' ++ [','])))
                fun z w hz hw => by
                  rw [hcomma, hz] at hstops
                  simpa using ArgumentsFront.more hb hform (.comma hb' Text.allOf_nil)
                    (by simpa using hstops) hw
            rw [hcomma]
            simpa using hnext
          · split at h
            · have hnext : LongBehind (ArgumentsFront dropsTag) o _ :=
                (ih (Reading.map_eq_fault_iff.1 h)).append (b ++ (u ++ b')) fun z w hz hw => by
                  rw [hz] at hstops
                  simpa using ArgumentsFront.more hb hform (.blanks hb') hstops hw
              simpa using hnext
            · cases h

theorem readArgumentList_oversized (h : readArgumentList dropsTag t = .fault o) :
    ∃ b, AllOf isBlank b ∧ ∃ u, t = b ++ u ∧ LongBehind (ArgumentsFront dropsTag) o u := by
  obtain ⟨b, ht, hb, -⟩ := Text.exists_blanks t
  unfold readArgumentList at h
  split at h
  · cases h
  · exact ⟨b, hb, _, ht, readArguments_oversized h⟩

theorem readContent_ne_fault (dropsTag : Bool) (t : Text) (o : Decimal.Oversized) :
    readContent dropsTag t ≠ .fault o := by
  simp only [readContent]
  split
  · simp
  · split <;> simp

/-- A fault means that an integer with too many digits is written where an argument is read. -/
theorem read_oversized {requireLineEnd : Bool} (h : read requireLineEnd dropsTag t = .fault o) :
    LongBehind (Front dropsTag) o t := by
  rw [read, Reading.andThen_eq_fault_iff] at h
  rcases h with h | ⟨name, rest, hname, h⟩
  · exact absurd h (Literal.readName_ne_fault t o)
  · obtain ⟨b, hb, hn, rfl, -⟩ := Literal.readName_eq_found_iff.1 hname
    obtain ⟨b', hrest, hb', -⟩ := Text.exists_blanks rest
    split at h
    · next rest' hskip =>
      rcases Reading.andThen_eq_fault_iff.1 h with h | ⟨as, rest'', -, h⟩
      · obtain ⟨b'', hb'', u, rfl, hlong⟩ := readArgumentList_oversized h
        have hcall : LongBehind (Front dropsTag) o _ :=
          hlong.append (b ++ (name ++ (b' ++ '(' :: b''))) fun _ _ _ hu => by
            simpa using Front.mk hb hn hb' hb'' hu
        rw [hrest, hskip]
        simpa using hcall
      · -- behind the arguments nothing is converted
        split at h
        · split at h
          · cases h
          · rcases Reading.andThen_eq_fault_iff.1 h with h | ⟨content, rest, -, h⟩
            · exact absurd h (readContent_ne_fault dropsTag _ o)
            · cases h
        · cases h
    · cases h

/-- A fault means that there are too many digits in a row. -/
theorem parse?_oversized {requireLineEnd : Bool} {options : ReadOptions}
    (h : parse? requireLineEnd options t = .error o) : o.StandsIn t :=
  (read_oversized (parse?_eq_error_iff.1 h)).standsIn

end Oversized

/-! ## Calls at the beginning of a text -/

/-- What stands behind the closing parenthesis of a call and belongs to it, before `rest`. -/
inductive Trailer (dropsTag : Bool) : (content raw rest : Text) → Prop where
  | none {rest : Text} (hr : tickRun (skipInline rest) < minTicks) : Trailer dropsTag [] [] rest
  | block {gap rest : Text} {f : Fence} (hg : AllOf isInline gap) (hf : f.WellFormed)
      (hr : startsWith (· == tick) rest = false) :
      Trailer dropsTag (Block.clean dropsTag f.body) (gap ++ f.raw) rest

/-- A text begins with a call, in which integers may have any number of digits. -/
def Begins (c : Call) (dropsTag : Bool) (t : Text) : Prop :=
  ∃ as head tail rest, Head (Written dropsTag maxNesting) c.name as head ∧
    Trailer dropsTag c.content tail rest ∧ c.arguments = Fields.ofList (entries as) ∧
    c.raw = head ++ tail ∧ t = c.raw ++ rest

theorem form_iff {dropsTag : Bool} {c : Call} {rest : Text} :
    Form dropsTag c rest ↔ ∃ as head tail, Head (Spelled dropsTag maxNesting) c.name as head ∧
      Trailer dropsTag c.content tail rest ∧ c.arguments = Fields.ofList (entries as) ∧
      c.raw = head ++ tail := by
  constructor
  · intro h
    cases h with
    | @plain name raw rest as h hr =>
      exact ⟨as, raw, [], h, .none hr, file_eq_ofList as, (List.append_nil raw).symm⟩
    | @block name raw gap rest as f h hg hf hr =>
      exact ⟨as, raw, _, h, .block hg hf hr, file_eq_ofList as, rfl⟩
  · rintro ⟨as, head, tail, h, htail, harguments, hraw⟩
    obtain ⟨name, arguments, content, raw⟩ := c
    simp only at harguments hraw
    rw [harguments, hraw, ← file_eq_ofList]
    cases htail with
    | none hr =>
      rw [List.append_nil]
      exact .plain h hr
    | block hg hf hr => exact .block h hg hf hr

/-- The call at the front of a text is the one that the text begins with.  This is said of texts in
which no integer with too many digits is met. -/
theorem parse?_eq_some_iff_begins (options : ReadOptions) (t : Text)
    (hf : ∀ o, parse? false options t ≠ .error o) (c : Call) :
    parse? false options t = .ok (some c) ↔ c.Begins options.dropTag t := by
  rw [parse?_eq_some_iff]
  constructor
  · rintro ⟨rest, hread⟩
    obtain ⟨hform, ht⟩ := read_eq_found_iff.1 hread
    obtain ⟨as, head, tail, hhead, htail, harguments, hraw⟩ := form_iff.1 hform
    exact ⟨as, head, tail, rest, hhead.mono fun _ hv => hv.written, htail, harguments, hraw, ht⟩
  · rintro ⟨as, head, tail, rest, hhead, htail, harguments, hraw, rfl⟩
    rcases hhead.or_faults with hspelled | hfault
    · have hform := form_iff.2 ⟨as, head, tail, hspelled, htail, harguments, hraw⟩
      exact ⟨rest, read_eq_found_iff.2 ⟨hform, rfl⟩⟩
    · obtain ⟨o, ho⟩ := hfault false (tail ++ rest)
      rw [hraw, List.append_assoc, parse?, ho] at hf
      exact absurd rfl (hf o)

/-- Arguments with and without names, one of which comes up twice, and a block behind them; a comma
before the closing parenthesis belongs to no call. -/
theorem parse?_eq_some_iff_begins_mixed :
    let t := "g( 1 k:'v',2 k: [3]) ```sh\nls\n``` !".toList
    (∀ o, parse? false {} t ≠ .error o) ∧
      (∃ c : Call, c.Begins true t ∧ c.name = "g".toList ∧
        c.arguments.map (fun e => (e.1, e.2.raw)) =
          [("_0".toList, "1".toList), ("k".toList, "[3]".toList), ("_1".toList, "2".toList)] ∧
        c.content = "ls".toList) ∧
      (∀ o, parse? false {} "g(1,)".toList ≠ .error o) ∧
      ∀ c : Call, ¬ c.Begins true "g(1,)".toList := by
  intro t
  have hparts : (parse? false {} t).toOption.map (Option.map fun c => (c.name, c.content)) =
      some (some ("g".toList, "ls".toList)) := by decide +kernel
  have hentries : (parse? false {} t).toOption.map (Option.map fun c =>
      c.arguments.map fun e => (e.1, e.2.raw)) = some (some [("_0".toList, "1".toList),
        ("k".toList, "[3]".toList), ("_1".toList, "2".toList)]) := by decide +kernel
  have hnone : (parse? false {} "g(1,)".toList).toOption.map Option.isSome = some false := by
    decide +kernel
  have hfg (o : Decimal.Oversized) : parse? false {} "g(1,)".toList ≠ .error o := by
    intro ho
    rw [ho] at hnone
    cases hnone
  obtain ⟨c, hparse, hcparts⟩ := exists_call_of_view hparts
  obtain ⟨hname, hcontent⟩ := Prod.mk.inj hcparts
  rw [hparse] at hentries
  have harguments := Option.some.inj (Option.some.inj hentries)
  have hft (o : Decimal.Oversized) : parse? false {} t ≠ .error o := by
    rw [hparse]
    nofun
  have hbegins := (parse?_eq_some_iff_begins {} t hft c).1 hparse
  refine ⟨hft, ⟨c, hbegins, hname, harguments, hcontent⟩, hfg, fun c' hc' => ?_⟩
  rw [(parse?_eq_some_iff_begins {} _ hfg c').2 hc'] at hnone
  cases hnone

end ToolCalls.Call

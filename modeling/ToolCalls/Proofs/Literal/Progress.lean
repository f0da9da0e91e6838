import ToolCalls.Proofs.Literal.Limits

/-!
# Progress

A reader stops inside the text it is given (`Reading.Stays`), and one that finds something has
consumed a character (`Reading.Advances`).

The readers of strings, fences and rows are loops.  `Loop` is such a loop with no bound on the
number of its rounds, and `IsLoop` says that a reader is one whose rounds all end the loop or
consume a character.  So the loop comes to an end on every text, and the bounds on the rounds that
the readers carry are never met.
-/

namespace ToolCalls

open Text (isBlank skipBlank)

/-! ## Where a reading stops -/

/-- The text behind one or more characters of another. -/
def Text.ProperSuffix (rest t : Text) : Prop := rest <:+ t ∧ rest.length < t.length

namespace Text

variable {t u rest : Text}

theorem properSuffix_cons (c : Char) (t : Text) : ProperSuffix t (c :: t) :=
  ⟨List.suffix_cons c t, Nat.lt_succ_self _⟩

theorem ProperSuffix.of_suffix (h : ProperSuffix u t) (hr : rest <:+ u) : ProperSuffix rest t :=
  ⟨hr.trans h.1, Nat.lt_of_le_of_lt hr.length_le h.2⟩

theorem ProperSuffix.mono (h : ProperSuffix rest u) (hu : u <:+ t) : ProperSuffix rest t :=
  ⟨h.1.trans hu, Nat.lt_of_lt_of_le h.2 hu.length_le⟩

theorem properSuffix_append (hu : u ≠ []) (b rest : Text) :
    ProperSuffix rest (b ++ (u ++ rest)) := by
  have hpos := List.length_pos_iff.2 hu
  refine ⟨(List.suffix_append u rest).trans (List.suffix_append b _), ?_⟩
  simp only [List.length_append]
  omega

/-- A character behind blanks. -/
theorem properSuffix_of_skipBlank {c : Char} (h : skipBlank t = c :: u) : ProperSuffix u t := by
  have hs := skipBlank_suffix t
  rw [h] at hs
  exact (properSuffix_cons c u).mono hs

end Text

open Text (ProperSuffix)

namespace Reading

variable {α β : Type} {r : Reading α} {t u : Text}

/-- Reading stopped inside the text, or at a digit row of it that is too long. -/
def Stays (t : Text) : Reading α → Prop
  | found _ rest | absent rest => rest <:+ t
  | fault o => o.StandsIn t

theorem Stays.mono (h : r.Stays u) (hu : u <:+ t) : r.Stays t := by
  cases r with
  | found a rest => exact h.trans hu
  | absent rest => exact h.trans hu
  | fault o => exact Decimal.Oversized.StandsIn.mono h hu.isInfix

theorem Stays.map (h : r.Stays t) (f : α → β) : (r.map f).Stays t := by
  cases r <;> exact h

theorem Stays.andThen (h : r.Stays t) {next : α → Text → Reading β}
    (hn : ∀ a rest, r = .found a rest → (next a rest).Stays rest) : (r.andThen next).Stays t := by
  cases r with
  | found a rest => exact (hn a rest rfl).mono h
  | absent rest => exact h
  | fault o => exact h

/-- Reading stopped inside the text, and behind its first character if something was found. -/
structure Advances (t : Text) (r : Reading α) : Prop where
  stays : r.Stays t
  shorter : ∀ a rest, r = .found a rest → rest.length < t.length

theorem advances_found {a : α} {rest : Text} (h : ProperSuffix rest t) :
    (found a rest).Advances t := by
  refine ⟨h.1, fun a' rest' heq => ?_⟩
  cases heq
  exact h.2

theorem advances_absent {rest : Text} (h : rest <:+ t) : (absent rest : Reading α).Advances t :=
  ⟨h, nofun⟩

theorem Stays.advances (h : r.Stays u) (hu : ProperSuffix u t) : r.Advances t := by
  refine ⟨h.mono hu.1, fun a rest heq => ?_⟩
  subst heq
  exact (hu.of_suffix h).2

theorem Advances.mono (h : r.Advances u) (hu : u <:+ t) : r.Advances t :=
  ⟨h.stays.mono hu, fun a rest heq => Nat.lt_of_lt_of_le (h.shorter a rest heq) hu.length_le⟩

theorem Advances.properSuffix (h : r.Advances t) {a : α} {rest : Text} (hr : r = .found a rest) :
    ProperSuffix rest t := by
  refine ⟨?_, h.shorter a rest hr⟩
  have hs := h.stays
  rwa [hr] at hs

theorem Advances.map (h : r.Advances t) (f : α → β) : (r.map f).Advances t := by
  refine ⟨h.stays.map f, fun b rest heq => ?_⟩
  obtain ⟨a, hr, -⟩ := map_eq_found_iff.1 heq
  exact h.shorter a rest hr

theorem Advances.andThen (h : r.Advances t) {next : α → Text → Reading β}
    (hn : ∀ a rest, r = .found a rest → (next a rest).Stays rest) :
    (r.andThen next).Advances t := by
  cases r with
  | found a rest => exact (hn a rest rfl).advances (h.properSuffix rfl)
  | absent rest => exact advances_absent h.stays
  | fault o => exact ⟨h.stays, nofun⟩

/-- There is nothing to be found at the end of a text. -/
theorem Advances.eq_absent (h : r.Advances []) : r = .absent [] := by
  cases r with
  | found a rest => exact absurd (h.shorter a rest rfl) (Nat.not_lt_zero _)
  | absent rest => rw [List.suffix_nil.1 h.stays]
  | fault o =>
    obtain ⟨ds, -, hpart, hlong, -⟩ := h.stays
    rw [List.infix_nil.1 hpart] at hlong
    cases hlong

theorem ofOption_map (o : Option (α × Text)) (f : α → β) (rest : Text) :
    ofOption (o.map fun (a, r) => (f a, r)) rest = (ofOption o rest).map f := by
  cases o <;> rfl

end Reading

/-! ## Loops -/

/-- What a round of a loop does: it ends the loop, or it leaves a text to the next round, and adds
to what the rounds from there on find. -/
inductive Round (β : Type) where
  | ends (r : Reading β)
  | goesOn (add : β → β) (rest : Text)

namespace Round

variable {α β : Type} {t : Text}

/-- The outcome of a round, given the reader for the rounds behind it. -/
def play (next : Text → Reading β) : Round β → Reading β
  | ends r => r
  | goesOn add rest => (next rest).map add

/-- A round that reads something first, and ends the loop where it is not there. -/
def after (r : Reading α) (next : α → Text → Round β) : Round β :=
  match r with
  | .found a rest => next a rest
  | .absent rest => ends (.absent rest)
  | .fault o => ends (.fault o)

theorem play_after (r : Reading α) (next : α → Text → Round β) (run : Text → Reading β) :
    (after r next).play run = r.andThen fun a rest => (next a rest).play run := by
  cases r <;> rfl

/-- A round ends the loop inside the text, or it consumes a character. -/
def Moves (t : Text) : Round β → Prop
  | ends r => r.Stays t
  | goesOn _ rest => ProperSuffix rest t

theorem moves_after {r : Reading α} (h : r.Stays t) {next : α → Text → Round β}
    (hn : ∀ a rest, r = .found a rest → (next a rest).Moves t) : (after r next).Moves t := by
  cases r with
  | found a rest => exact hn a rest rfl
  | absent rest => exact h
  | fault o => exact h

end Round

section Loops

variable {β : Type} {round : Text → Round β} {reader : Text → Reading β} {t : Text} {r : Reading β}

/-- A loop plays rounds until one of them ends it or nothing is left of the text. -/
inductive Loop (round : Text → Round β) : Text → Reading β → Prop where
  | atEnd : Loop round [] (.absent [])
  | ends {t : Text} {r : Reading β} (ht : t ≠ []) (h : round t = .ends r) : Loop round t r
  | goesOn {t rest : Text} {add : β → β} {r : Reading β} (ht : t ≠ [])
      (h : round t = .goesOn add rest) (hr : Loop round rest r) : Loop round t (r.map add)

/-- The reader is the loop over the rounds, which comes to an end on every text since no round
stands still. -/
structure IsLoop (round : Text → Round β) (reader : Text → Reading β) : Prop where
  moves : ∀ t, (round t).Moves t
  loop_iff : ∀ t r, Loop round t r ↔ reader t = r

theorem Loop.stays (hm : ∀ t, (round t).Moves t) (h : Loop round t r) : r.Stays t := by
  induction h with
  | atEnd => exact List.suffix_rfl
  | @ends t r ht h =>
    have hmove := hm t
    rwa [h] at hmove
  | @goesOn t rest add r ht h hr ih =>
    have hmove := hm t
    rw [h] at hmove
    exact (ih.map add).mono hmove.1

theorem IsLoop.stays (h : IsLoop round reader) (t : Text) : (reader t).Stays t :=
  ((h.loop_iff t _).2 rfl).stays h.moves

theorem Loop.eq_reader (hnil : reader [] = .absent [])
    (hstep : ∀ t, t ≠ [] → reader t = (round t).play reader) (h : Loop round t r) :
    reader t = r := by
  induction h with
  | atEnd => exact hnil
  | ends ht h => rw [hstep _ ht, h, Round.play]
  | goesOn ht h hr ih => rw [hstep _ ht, h, Round.play, ih]

/-- The rounds that go on are fewer than the characters of the text. -/
theorem loop_reader (hm : ∀ t, (round t).Moves t) (hnil : reader [] = .absent [])
    (hstep : ∀ t, t ≠ [] → reader t = (round t).play reader) (t : Text) :
    Loop round t (reader t) := by
  by_cases ht : t = []
  · rw [ht, hnil]
    exact .atEnd
  · rw [hstep t ht]
    cases h : round t with
    | ends r => exact .ends ht h
    | goesOn add rest =>
      have hlt : rest.length < t.length := by
        have hmove := hm t
        rw [h] at hmove
        exact hmove.2
      exact .goesOn ht h (loop_reader hm hnil hstep rest)
termination_by t.length

theorem IsLoop.of_step (hm : ∀ t, (round t).Moves t) (hnil : reader [] = .absent [])
    (hstep : ∀ t, t ≠ [] → reader t = (round t).play reader) : IsLoop round reader := by
  refine ⟨hm, fun t r => ⟨fun h => h.eq_reader hnil hstep, ?_⟩⟩
  rintro rfl
  exact loop_reader hm hnil hstep t

section Bounded

variable {run : Nat → Text → Reading β}

/-- Rounds beyond the length of the text make no difference. -/
theorem rounds_eq (hm : ∀ t, (round t).Moves t)
    (hrun : ∀ n t, run (n + 1) t = (round t).play (run n)) {n m : Nat} (hn : t.length < n)
    (hm' : t.length < m) : run n t = run m t := by
  induction n generalizing m t with
  | zero => omega
  | succ n ih =>
    obtain ⟨m, rfl⟩ : ∃ k, m = k + 1 := ⟨m - 1, by omega⟩
    rw [hrun, hrun]
    have hmove := hm t
    cases h : round t with
    | ends r => rfl
    | goesOn add rest =>
      rw [h] at hmove
      have hlt := hmove.2
      rw [Round.play, Round.play, ih (by omega) (by omega : rest.length < m)]

/-- A reader with a bound on its rounds is a loop, given more rounds than the text has
characters. -/
theorem IsLoop.of_rounds (hm : ∀ t, (round t).Moves t)
    (hrun : ∀ n t, run (n + 1) t = (round t).play (run n)) (hnil : run 1 [] = .absent []) :
    IsLoop round fun t => run (t.length + 1) t := by
  refine .of_step hm hnil fun t _ => ?_
  have hmove := hm t
  rw [hrun]
  cases h : round t with
  | ends r => rfl
  | goesOn add rest =>
    rw [h] at hmove
    rw [Round.play, Round.play, rounds_eq hm hrun hmove.2 (Nat.lt_succ_self _)]

end Bounded

end Loops

namespace Literal

open Reading (advances_found advances_absent)

variable {t rest : Text}

/-! ## Strings and fences -/

/-- A round of a string: an escape, the closing quote or any other character. -/
def stringRound (quote : Char) : Text → Round Text
  | [] => .ends (.absent [])
  | c :: t =>
    if c = '\\' then
      match t with
      | [] => .ends (.absent [])
      | e :: u => .goesOn (unescape quote e ++ ·) u
    else if c = quote then .ends (.found [] t)
    else .goesOn (c :: ·) t

theorem moves_stringRound (quote : Char) (t : Text) : (stringRound quote t).Moves t := by
  cases t with
  | nil => exact List.suffix_rfl
  | cons c t =>
    simp only [stringRound]
    split
    · cases t with
      | nil => exact List.nil_suffix
      | cons e u => exact (Text.properSuffix_cons c _).of_suffix (List.suffix_cons e u)
    · split
      · exact List.suffix_cons c t
      · exact Text.properSuffix_cons c t

theorem isLoop_unquote? (quote : Char) :
    IsLoop (stringRound quote) fun t => .ofOption (unquote? quote t) [] := by
  refine .of_step (moves_stringRound quote) rfl fun t ht => ?_
  obtain ⟨c, t, rfl⟩ := List.exists_cons_of_ne_nil ht
  rw [unquote?.eq_def, stringRound.eq_def]
  dsimp only
  split
  · cases t with
    | nil => rfl
    | cons e u => exact Reading.ofOption_map _ _ _
  · split
    · rfl
    · exact Reading.ofOption_map _ _ _

/-- A round of a fence that began with `n` backticks: a whole run of backticks or any other
character. -/
def fenceRound (n : Nat) : Text → Round Text
  | [] => .ends (.absent [])
  | c :: t =>
    if c = tick then
      let run := tickRun (c :: t)
      if run = n then .ends (.found [] ((c :: t).drop run))
      else .goesOn (ticks run ++ ·) ((c :: t).drop run)
    else .goesOn (c :: ·) t

theorem moves_fenceRound (n : Nat) (t : Text) : (fenceRound n t).Moves t := by
  cases t with
  | nil => exact List.suffix_rfl
  | cons c t =>
    simp only [fenceRound]
    split
    · next hc =>
      split
      · exact List.drop_suffix _ _
      · rw [hc, tickRun_tick, List.drop_succ_cons]
        exact (Text.properSuffix_cons tick t).of_suffix (List.drop_suffix _ _)
    · exact Text.properSuffix_cons c t

theorem isLoop_cutAtRun {n : Nat} (hn : minTicks ≤ n) :
    IsLoop (fenceRound n) fun t => .ofOption (Fence.cutAtRun n 0 t) [] := by
  have hne : n ≠ 0 := Nat.ne_of_gt (Nat.lt_of_lt_of_le (by decide) hn)
  refine .of_step (moves_fenceRound n) ?_ fun t ht => ?_
  · simp [Fence.cutAtRun, hne.symm, Reading.ofOption]
  · obtain ⟨c, t, rfl⟩ := List.exists_cons_of_ne_nil ht
    simp only [fenceRound]
    split
    · next hc =>
      have hstop := Text.startsWith_dropWhile (· == tick) (c :: t)
      have hsplit := ticks_tickRun_append (c :: t)
      rw [← drop_tickRun] at hstop hsplit
      split
      · next hrun =>
        have hcut := Fence.cutAtRun_ticks hstop (tickRun (c :: t)) 0
        rw [Nat.zero_add, hsplit, hrun] at hcut
        rw [hcut, hrun]
        rfl
      · next hrun =>
        have hcut := Fence.cutAtRun_ticks_of_ne hne hrun hstop
        rw [hsplit] at hcut
        rw [hcut]
        exact Reading.ofOption_map _ _ _
    · next hc =>
      rw [Fence.cutAtRun, if_neg hc, if_neg hne.symm]
      exact Reading.ofOption_map _ _ _

/-! ## Rows -/

section Rows

variable {α : Type} {readPart : Text → Reading α}

/-- A round of a row: a part and the comma or the closing character behind it. -/
def listedRound (readPart : Text → Reading α) (close : Char) (t : Text) : Round (List α) :=
  .after (readPart t) fun a rest =>
    match skipBlank rest with
    | [] => .ends (.absent [])
    | c :: rest =>
      if c = close then .ends (.found [a] rest)
      else if c = ',' then .goesOn (a :: ·) rest
      else .ends (.absent (c :: rest))

theorem moves_listedRound (hpart : ∀ t, (readPart t).Advances t) (close : Char) (t : Text) :
    (listedRound readPart close t).Moves t := by
  refine Round.moves_after (hpart t).stays fun a rest hr => ?_
  have hrest : rest <:+ t := ((hpart t).properSuffix hr).1
  split
  · exact List.nil_suffix
  · next c u hskip =>
    have hu : ProperSuffix u t := (Text.properSuffix_of_skipBlank hskip).mono hrest
    split
    · exact hu.1
    · split
      · exact hu
      · rw [← hskip]
        exact (Text.skipBlank_suffix rest).trans hrest

theorem readListed_succ (readPart : Text → Reading α) (close : Char) (n : Nat) (t : Text) :
    readListed readPart close (n + 1) t =
      (listedRound readPart close t).play (readListed readPart close n) := by
  rw [readListed, listedRound, Round.play_after]
  congr 1
  funext a rest
  cases skipBlank rest with
  | nil => rfl
  | cons c u =>
    dsimp only
    split
    · rfl
    · split <;> rfl

theorem isLoop_readListed (hpart : ∀ t, (readPart t).Advances t) (close : Char) :
    IsLoop (listedRound readPart close) fun t => readListed readPart close (t.length + 1) t := by
  refine .of_rounds (moves_listedRound hpart close) (readListed_succ readPart close) ?_
  rw [readListed, (hpart []).eq_absent, Reading.andThen_absent]

theorem advances_readBracketed (hpart : ∀ t, (readPart t).Advances t) (opening closing : Char)
    (t : Text) : (readBracketed opening closing readPart t).Advances t := by
  unfold readBracketed
  split
  · exact advances_absent List.nil_suffix
  · next c body hskip =>
    have hbody : ProperSuffix body t := Text.properSuffix_of_skipBlank hskip
    -- the row behind the opening bracket, which has been consumed
    have row (inner : Text) (hinner : skipBlank body = inner) :
        ((readListed readPart closing (inner.length + 1) inner).andThen fun as rest =>
          .found (as, Text.before (c :: body) rest) rest).Advances t := by
      have hstays : Reading.Stays inner (readListed readPart closing (inner.length + 1) inner) :=
        (isLoop_readListed hpart closing).stays inner
      rw [← hinner] at hstays ⊢
      refine Reading.Stays.advances (Reading.Stays.andThen ?_ fun as rest _ => ?_) hbody
      · exact hstays.mono (Text.skipBlank_suffix body)
      · exact List.suffix_rfl
    split
    · split
      · next hinner => exact row [] hinner
      · next d inner hinner =>
        split
        · exact advances_found (hbody.of_suffix (Text.properSuffix_of_skipBlank hinner).1)
        · exact row (d :: inner) hinner
    · rw [← hskip]
      exact advances_absent (Text.skipBlank_suffix t)

end Rows

/-! ## Values -/

/-- Where the reader finds nothing, it has skipped blanks and nothing else. -/
def SkipsOnly {α : Type} (reader : Text → Reading α) : Prop :=
  ∀ t rest, reader t = .absent rest → rest = skipBlank t

theorem skipsOnly_readName : SkipsOnly readName := by
  intro t rest h
  simp only [readName] at h
  split at h
  · cases h
  · cases h
    rfl

theorem integerReading_ne_absent (negative : Bool) (ds t rest rest' : Text) :
    integerReading negative ds t rest ≠ .absent rest' := by
  simp only [integerReading]
  split <;> simp

theorem skipsOnly_readNumber : SkipsOnly readNumber := by
  intro t rest h
  simp only [readNumber] at h
  split at h
  · cases h
    rfl
  · split at h
    · split at h
      · cases h
      · exact absurd h (integerReading_ne_absent _ _ _ _ _)
    · exact absurd h (integerReading_ne_absent _ _ _ _ _)

theorem skipsOnly_readWord : SkipsOnly readWord := by
  intro t rest h
  unfold readWord at h
  split at h <;> cases h
  rfl

theorem skipsOnly_readBlock (dropsTag : Bool) : SkipsOnly (readBlock dropsTag) := by
  intro t rest h
  simp only [readBlock] at h
  split at h <;> cases h
  rfl

/-- A reader that finds literals only and skips nothing but blanks advances. -/
theorem SkipsOnly.advances {α : Type} {reader : Text → Reading α} (h : SkipsOnly reader)
    (hfound : ∀ a rest, reader t = .found a rest →
      ∃ b u, startsWith canStart u = true ∧ t = b ++ (u ++ rest))
    (hfault : ∀ o, reader t = .fault o → o.StandsIn t) : (reader t).Advances t := by
  cases hr : reader t with
  | found a rest =>
    obtain ⟨b, u, hu, rfl⟩ := hfound a rest hr
    refine advances_found (Text.properSuffix_append ?_ b rest)
    rintro rfl
    cases hu
  | absent rest =>
    rw [h t rest hr]
    exact advances_absent (Text.skipBlank_suffix t)
  | fault o => exact ⟨hfault o hr, nofun⟩

theorem advances_readName (t : Text) : (readName t).Advances t := by
  apply skipsOnly_readName.advances
  · intro name rest h
    obtain ⟨b, -, hn, ht, -⟩ := readName_eq_found_iff.1 h
    exact ⟨b, name, hn.canStart, ht⟩
  · intro o h
    exact absurd h (readName_ne_fault t o)

theorem advances_readNumber (t : Text) : (readNumber t).Advances t := by
  apply skipsOnly_readNumber.advances
  · intro v rest h
    obtain ⟨b, -, hf, -, ht⟩ := readNumber_sound true (fun _ => True) h
    exact ⟨b, v.raw, hf.canStart, ht⟩
  · intro o h
    exact (readNumber_oversized h).standsIn

theorem advances_readWord (t : Text) : (readWord t).Advances t := by
  apply skipsOnly_readWord.advances
  · intro v rest h
    obtain ⟨b, -, hf, -, ht⟩ := readWord_sound true (fun _ => True) h
    exact ⟨b, v.raw, hf.canStart, ht⟩
  · intro o h
    unfold readWord at h
    split at h <;> cases h

theorem advances_readBlock (dropsTag : Bool) (t : Text) : (readBlock dropsTag t).Advances t := by
  apply (skipsOnly_readBlock dropsTag).advances
  · intro v rest h
    obtain ⟨b, f, -, hw, -, -, ht⟩ := readBlock_eq_found_iff.1 h
    have hform : Form dropsTag (fun _ => True) _ := .block hw
    exact ⟨b, f.raw, hform.canStart, ht⟩
  · intro o h
    simp only [readBlock] at h
    split at h <;> cases h

theorem advances_readText (t : Text) : (readText t).Advances t := by
  unfold readText
  split
  · exact advances_absent List.nil_suffix
  · next quote body hskip =>
    split
    · exact ((isLoop_unquote? quote).stays body).advances (Text.properSuffix_of_skipBlank hskip)
    · rw [← hskip]
      exact advances_absent (Text.skipBlank_suffix t)

theorem advances_readString (t : Text) : (readString t).Advances t :=
  (advances_readText t).andThen fun _ _ _ => List.suffix_rfl

theorem advances_readKey (t : Text) : (readKey t).Advances t := by
  have hname := advances_readName t
  unfold readKey
  split
  · next rest h =>
    rw [h] at hname
    exact (advances_readText rest).mono hname.stays
  · exact hname

section Containers

variable {readItem : Text → Reading Value}

theorem advances_readMember (hitem : ∀ t, (readItem t).Advances t) (t : Text) :
    (readMember readItem t).Advances t := by
  refine (advances_readKey t).andThen fun key rest _ => ?_
  split
  · next u hu =>
    exact ((hitem u).stays.map _).mono (Text.properSuffix_of_skipBlank hu).1
  · exact Text.skipBlank_suffix rest

theorem advances_readArray (hitem : ∀ t, (readItem t).Advances t) (t : Text) :
    (readArray readItem t).Advances t := by
  rw [readArray_eq_readBracketed]
  exact (advances_readBracketed hitem '[' ']' t).map _

theorem advances_readObject (hitem : ∀ t, (readItem t).Advances t) (t : Text) :
    (readObject readItem t).Advances t := by
  rw [readObject_eq_readBracketed]
  exact (advances_readBracketed (advances_readMember hitem) '\x7b' '\x7d' t).map _

theorem isLoop_readElements (hitem : ∀ t, (readItem t).Advances t) :
    IsLoop (listedRound readItem ']') fun t => readElements readItem (t.length + 1) t := by
  simp only [readElements_eq_readListed]
  exact isLoop_readListed hitem ']'

theorem isLoop_readMembers (hitem : ∀ t, (readItem t).Advances t) :
    IsLoop (listedRound (readMember readItem) '\x7d') fun t =>
      readMembers readItem (t.length + 1) t := by
  simp only [readMembers_eq_readListed]
  exact isLoop_readListed (advances_readMember hitem) '\x7d'

end Containers

theorem advances_readNested (dropsTag : Bool) (levels : Nat) (t : Text) :
    (readNested dropsTag levels t).Advances t := by
  induction levels generalizing t with
  | zero => exact advances_absent (Text.skipBlank_suffix t)
  | succ levels ih =>
    have hskip := Text.skipBlank_suffix t
    rw [readNested]
    split
    · exact advances_absent List.nil_suffix
    · next c rest heq =>
      rw [heq] at hskip
      apply Reading.Advances.mono _ hskip
      dsimp only
      split
      · exact advances_readString _
      · split
        · exact advances_readNumber _
        · split
          · exact advances_readArray ih _
          · split
            · exact advances_readObject ih _
            · split
              · exact advances_readBlock dropsTag _
              · split
                · exact advances_readWord _
                · exact advances_absent List.suffix_rfl

end Literal

end ToolCalls

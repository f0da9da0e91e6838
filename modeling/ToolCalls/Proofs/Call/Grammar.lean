import ToolCalls.Call.Reader
import ToolCalls.Proofs.Literal.Reading

/-!
# The grammar of calls

How calls are written, and that reading finds exactly them.  `Head` is a call up to its closing
parenthesis and `Form` a whole call, with or without a block behind it, before the text that
follows.  An argument is named just where the longest name at its beginning has a colon behind it
(`startsNamed`), and arguments are separated by one comma or by blanks alone.  What holds of the
values of arguments is a parameter of the grammar.

`read_eq_found_iff` is the main statement: a call is found just where it is written, with all of its
source text.  `read_true_of_form` says what the rule about the end of the line adds to that.
-/

namespace ToolCalls.Call

open Literal (startsWith isNameStart isNameChar canStart isDelimiter IsName Spelled maxNesting)
open Text (AllOf isBlank isInline skipBlank skipInline before)

/-! ## Arguments -/

/-- Whether a text starts with a name and a colon behind it, blanks between the two apart. -/
def startsNamed (t : Text) : Bool :=
  startsWith isNameStart t && startsWith (· == ':') (skipBlank (t.dropWhile isNameChar))

/-- An argument as it is written, given what holds of its value. -/
inductive ArgumentForm (Item : Value → Prop) : Argument → Text → Prop where
  | named {name b b' : Text} {v : Value} (hn : IsName name) (hb : AllOf isBlank b)
      (hb' : AllOf isBlank b') (hv : Item v) :
      ArgumentForm Item ⟨some name, v⟩ (name ++ (b ++ ':' :: (b' ++ v.raw)))
  | bare {v : Value} (hv : Item v) : ArgumentForm Item ⟨none, v⟩ v.raw

/-- What stands behind an argument that is written as `u` neither makes its value longer nor gives
it a name. -/
structure Argument.Stops (a : Argument) (u rest : Text) : Prop where
  value : Literal.Stops a.value rest
  name : a.name? = none → startsNamed (u ++ rest) = false

/-- What stands between two arguments. -/
inductive Separator : Text → Prop where
  | blanks {b : Text} (hb : AllOf isBlank b) : Separator b
  | comma {b b' : Text} (hb : AllOf isBlank b) (hb' : AllOf isBlank b') : Separator (b ++ ',' :: b')

/-- One or more arguments up to the closing parenthesis, given what holds of their values. -/
inductive Arguments (Item : Value → Prop) : List Argument → Text → Prop where
  | last {a : Argument} {u b : Text} (h : ArgumentForm Item a u) (hb : AllOf isBlank b)
      (hs : a.Stops u (b ++ [')'])) : Arguments Item [a] (u ++ b)
  | more {a : Argument} {u sep w : Text} {as : List Argument} (h : ArgumentForm Item a u)
      (hsep : Separator sep) (hs : a.Stops u (sep ++ (w ++ [')'])))
      (hw : Arguments Item as w) : Arguments Item (a :: as) (u ++ (sep ++ w))

/-- All that stands between the parentheses of a call, given what holds of the values in it. -/
inductive ArgumentList (Item : Value → Prop) : List Argument → Text → Prop where
  | empty {b : Text} (hb : AllOf isBlank b) : ArgumentList Item [] b
  | row {b u : Text} {as : List Argument} (hb : AllOf isBlank b) (h : Arguments Item as u) :
      ArgumentList Item as (b ++ u)

theorem startsNamed_append_paren (t u w : Text) :
    startsNamed (t ++ ')' :: u) = startsNamed (t ++ ')' :: w) := by
  have hn : isNameChar ')' = false := rfl
  have hb : isBlank ')' = false := rfl
  simp only [startsNamed, skipBlank, Text.dropWhile_append_cons hn, Text.dropWhile_append_cons hb]
  rw [Text.startsWith_append_cons t u w, Text.startsWith_append_cons _ u w]

/-- What stands behind the closing parenthesis does not matter for the end of an argument. -/
theorem Argument.Stops.paren {a : Argument} {u t w : Text} (h : a.Stops u (t ++ ')' :: w))
    (w' : Text) : a.Stops u (t ++ ')' :: w') := by
  refine ⟨(Literal.stops_append_paren _ t w w').1 h.value, fun hn => ?_⟩
  have := h.name hn
  rw [← List.append_assoc] at this ⊢
  rwa [startsNamed_append_paren _ w' w]

section Start

variable {Item : Value → Prop} {as : List Argument} {u : Text}

theorem ArgumentForm.canStart {a : Argument} (h : ArgumentForm Item a u)
    (hi : ∀ v, Item v → startsWith canStart v.raw = true) : startsWith canStart u = true := by
  cases h with
  | named hn hb hb' hv => exact Text.startsWith_append_of_startsWith hn.canStart
  | bare hv => exact hi _ hv

theorem Arguments.canStart (h : Arguments Item as u)
    (hi : ∀ v, Item v → startsWith canStart v.raw = true) : startsWith canStart u = true := by
  cases h with
  | last h hb hs => exact Text.startsWith_append_of_startsWith (h.canStart hi)
  | more h hsep hs hw => exact Text.startsWith_append_of_startsWith (h.canStart hi)

theorem Arguments.length_le (h : Arguments Item as u)
    (hi : ∀ v, Item v → startsWith Literal.canStart v.raw = true) : as.length ≤ u.length := by
  induction h with
  | last h hb hs =>
    obtain ⟨c, u', rfl, -⟩ := Text.exists_cons_of_startsWith (h.canStart hi)
    simp
  | more h hsep hs hw ih =>
    obtain ⟨c, u', rfl, -⟩ := Text.exists_cons_of_startsWith (h.canStart hi)
    simp only [List.length_cons, List.length_append]
    omega

end Start

/-! ## Reading arguments -/

section Reading

variable {dropsTag : Bool} {t rest : Text}

theorem readValue_eq_found_iff {v : Value} :
    Literal.readValue dropsTag t = .found v rest ↔
      ∃ b, AllOf isBlank b ∧ Spelled dropsTag maxNesting v ∧ Literal.Stops v rest ∧
        t = b ++ (v.raw ++ rest) :=
  Literal.readNested_findsExactly dropsTag maxNesting t v rest

/-- Whether an argument has a name shows at its beginning. -/
theorem readArgument_eq (dropsTag : Bool) (t : Text) :
    readArgument dropsTag t =
      if startsNamed (skipBlank t) then
        (Literal.readValue dropsTag (skipBlank ((skipBlank t).dropWhile isNameChar)).tail).map
          (Argument.mk (some ((skipBlank t).takeWhile isNameChar)))
      else (Literal.readValue dropsTag (skipBlank t)).map (Argument.mk none) := by
  simp only [readArgument, Literal.readName, Text.skipBlank_skipBlank]
  by_cases hs : startsWith isNameStart (skipBlank t) = true
  · simp only [hs, if_true, startsNamed, Bool.true_and]
    split
    · next rest' hcolon =>
      rw [hcolon]
      rfl
    · next hne =>
      rw [if_neg]
      intro hcolon
      obtain ⟨c, u, hu, hc⟩ := Text.exists_cons_of_startsWith hcolon
      rw [beq_iff_eq] at hc
      exact hne u (by rw [hu, hc])
  · have hs' : startsWith isNameStart (skipBlank t) = false := by simpa using hs
    simp only [hs', startsNamed, Bool.false_and, Bool.false_eq_true, if_false]

theorem exists_of_startsNamed {u : Text} (h : startsNamed u = true) :
    ∃ b, Literal.IsName (u.takeWhile isNameChar) ∧ AllOf isBlank b ∧
      u = u.takeWhile isNameChar ++ (b ++ ':' :: (skipBlank (u.dropWhile isNameChar)).tail) := by
  rw [startsNamed, Bool.and_eq_true] at h
  obtain ⟨b, hafter, hb, -⟩ := Text.exists_blanks (u.dropWhile isNameChar)
  obtain ⟨c, w, hw, hc⟩ := Text.exists_cons_of_startsWith h.2
  have hname : Literal.IsName (u.takeWhile isNameChar) := by
    refine ⟨?_, Text.allOf_takeWhile _ _⟩
    obtain ⟨d, w', hw', hd⟩ := Text.exists_cons_of_startsWith h.1
    rw [hw', List.takeWhile_cons_of_pos (Literal.isNameChar_of_isNameStart hd)]
    exact hd
  refine ⟨b, hname, hb, ?_⟩
  rw [hw, eq_of_beq hc] at hafter
  rw [hw, List.tail_cons, ← hafter, List.takeWhile_append_dropWhile]

theorem argumentForm_of_readArgument {a : Argument} (h : readArgument dropsTag t = .found a rest) :
    ∃ b u, AllOf isBlank b ∧ ArgumentForm (Spelled dropsTag maxNesting) a u ∧ a.Stops u rest ∧
      t = b ++ (u ++ rest) := by
  rw [readArgument_eq] at h
  obtain ⟨b, ht, hb, hstart⟩ := Text.exists_blanks t
  split at h
  · next hnamed =>
    obtain ⟨v, hv, rfl⟩ := Reading.map_eq_found_iff.1 h
    obtain ⟨b'', hb'', hspelled, hstop, hvalue⟩ := readValue_eq_found_iff.1 hv
    obtain ⟨b', hname, hb', hsplit⟩ := exists_of_startsNamed hnamed
    refine ⟨b, _, hb, .named hname hb' hb'' hspelled, ⟨hstop, fun hn => by cases hn⟩, ?_⟩
    calc t = b ++ skipBlank t := ht
      _ = b ++ ((skipBlank t).takeWhile isNameChar ++ (b' ++ ':' :: (b'' ++ (v.raw ++ rest)))) := by
        rw [← hvalue, ← hsplit]
      _ = _ := by simp
  · next hnamed =>
    obtain ⟨v, hv, rfl⟩ := Reading.map_eq_found_iff.1 h
    obtain ⟨b', hb', hspelled, hstop, hvalue⟩ := readValue_eq_found_iff.1 hv
    have hskip : skipBlank t = v.raw ++ rest := by
      rw [← Text.skipBlank_eq_self hstart, hvalue]
      exact Literal.skipBlank_literal hb' hspelled.canStart rest
    refine ⟨b, v.raw, hb, .bare hspelled, ⟨hstop, fun _ => ?_⟩, by rw [← hskip]; exact ht⟩
    rw [← hskip]
    simpa using hnamed

/-- Behind a name and a colon the value of an argument is read. -/
theorem readArgument_named (dropsTag : Bool) {b name b₁ : Text} (hb : AllOf isBlank b)
    (hn : IsName name) (hb₁ : AllOf isBlank b₁) (z : Text) :
    readArgument dropsTag (b ++ (name ++ (b₁ ++ ':' :: z))) =
      (Literal.readValue dropsTag z).map (Argument.mk (some name)) := by
  have hafter : startsWith isNameChar (b₁ ++ ':' :: z) = false :=
    Literal.startsWith_nameChar_colon hb₁ z
  have hcolon : skipBlank (b₁ ++ ':' :: z) = ':' :: z := Text.skipBlank_run hb₁ rfl
  have hnamed : startsNamed (name ++ (b₁ ++ ':' :: z)) = true := by
    rw [startsNamed, Text.dropWhile_run hn.chars hafter, hcolon,
      Text.startsWith_append_of_startsWith hn.start]
    rfl
  rw [readArgument_eq, Literal.skipBlank_literal hb hn.canStart, if_pos hnamed,
    Text.dropWhile_run hn.chars hafter, Text.takeWhile_run hn.chars hafter, hcolon, List.tail_cons]

/-- Where no name with a colon stands, a bare value is read. -/
theorem readArgument_bare (dropsTag : Bool) {b u rest : Text} (hb : AllOf isBlank b)
    (hu : startsWith canStart u = true) (hn : startsNamed (u ++ rest) = false) :
    readArgument dropsTag (b ++ (u ++ rest)) =
      (Literal.readValue dropsTag (u ++ rest)).map (Argument.mk none) := by
  rw [readArgument_eq, Literal.skipBlank_literal hb hu, if_neg]
  rw [hn]
  exact Bool.false_ne_true

theorem readArgument_of_form {a : Argument} {u : Text}
    (hu : ArgumentForm (Spelled dropsTag maxNesting) a u) (hstop : a.Stops u rest) {b : Text}
    (hb : AllOf isBlank b) :
    readArgument dropsTag (b ++ (u ++ rest)) = .found a rest := by
  cases hu with
  | @named name b₁ b₂ v hn hb₁ hb₂ hv =>
    have hread : Literal.readValue dropsTag (b₂ ++ (v.raw ++ rest)) = .found v rest :=
      readValue_eq_found_iff.2 ⟨b₂, hb₂, hv, hstop.value, rfl⟩
    simp only [List.append_assoc, List.cons_append]
    rw [readArgument_named dropsTag hb hn hb₁, hread]
    rfl
  | @bare v hv =>
    have hread : Literal.readValue dropsTag (v.raw ++ rest) = .found v rest :=
      readValue_eq_found_iff.2 ⟨[], Text.allOf_nil, hv, hstop.value, rfl⟩
    rw [readArgument_bare dropsTag hb hv.canStart (hstop.name rfl), hread]
    rfl

theorem arguments_of_readArguments {rounds : Nat} {as : List Argument}
    (h : readArguments dropsTag rounds t = .found as rest) :
    ∃ b u r, AllOf isBlank b ∧ Arguments (Spelled dropsTag maxNesting) as u ∧ rest = ')' :: r ∧
      t = b ++ (u ++ ')' :: r) := by
  induction rounds generalizing t as with
  | zero => cases h
  | succ rounds ih =>
    rw [readArguments, Reading.andThen_eq_found_iff] at h
    obtain ⟨a, rest', hread, h⟩ := h
    obtain ⟨b, u, hb, hu, hstop, rfl⟩ := argumentForm_of_readArgument hread
    obtain ⟨b', hrest, hb', -⟩ := Text.exists_blanks rest'
    split at h
    · cases h
    · next c rest'' hskip =>
      rw [hskip] at hrest
      split at h
      · next hc =>
        subst hc
        cases h
        rw [hrest] at hstop
        exact ⟨b, u ++ b', rest'', hb, .last hu hb' (hstop.paren []), rfl, by
          rw [hrest, List.append_assoc]⟩
      · split at h
        · next hc =>
          subst hc
          obtain ⟨as', h', rfl⟩ := Reading.map_eq_found_iff.1 h
          obtain ⟨b'', w, r, hb'', hw, hr, rfl⟩ := ih h'
          have hsplit : rest' = (b' ++ ',' :: b'') ++ (w ++ ')' :: r) := by
            rw [hrest]
            simp
          rw [hsplit, ← List.append_assoc] at hstop
          have hstop' := hstop.paren []
          rw [List.append_assoc] at hstop'
          refine ⟨b, _, r, hb, .more hu (.comma hb' hb'') hstop' hw, hr, ?_⟩
          rw [hsplit]
          simp
        · split at h
          · obtain ⟨as', h', rfl⟩ := Reading.map_eq_found_iff.1 h
            obtain ⟨b'', w, r, hb'', hw, hr, hrest'⟩ := ih h'
            have hsplit : rest' = (b' ++ b'') ++ (w ++ ')' :: r) := by
              rw [hrest, hrest', List.append_assoc]
            rw [hsplit, ← List.append_assoc] at hstop
            have hstop' := hstop.paren []
            rw [List.append_assoc] at hstop'
            have hsep : Separator (b' ++ b'') := .blanks (Text.allOf_append.2 ⟨hb', hb''⟩)
            refine ⟨b, _, r, hb, .more hu hsep hstop' hw, hr, ?_⟩
            rw [hsplit]
            simp
          · cases h

/-- Behind an argument and a separator the next arguments are read, blanks before them apart. -/
theorem readArguments_more {a : Argument} {u sep w : Text}
    (h : ArgumentForm (Spelled dropsTag maxNesting) a u) (hsep : Separator sep)
    (hs : a.Stops u (sep ++ (w ++ [')']))) (hw : startsWith canStart w = true) {b : Text}
    (hb : AllOf isBlank b) (r : Text) (rounds : Nat) :
    ∃ b', AllOf isBlank b' ∧
      readArguments dropsTag (rounds + 1) (b ++ (u ++ (sep ++ w) ++ ')' :: r)) =
        (readArguments dropsTag rounds (b' ++ (w ++ ')' :: r))).map (a :: ·) := by
  rw [← List.append_assoc] at hs
  have hread := readArgument_of_form h (hs.paren r) hb
  simp only [List.append_assoc] at hread ⊢
  rw [readArguments, hread, Reading.andThen_found]
  cases hsep with
  | @comma b₁ b₂ hb₁ hb₂ =>
    have hskip : skipBlank (b₁ ++ ',' :: b₂ ++ (w ++ ')' :: r)) =
        ',' :: (b₂ ++ (w ++ ')' :: r)) := by
      rw [List.append_assoc]
      exact Text.skipBlank_run hb₁ rfl
    have hne : ',' ≠ ')' := by decide
    refine ⟨b₂, hb₂, ?_⟩
    rw [hskip]
    simp only [if_neg hne, if_true]
  | blanks hb₁ =>
    have hskip := Literal.skipBlank_literal hb₁ hw (')' :: r)
    obtain ⟨c, w', rfl, hc⟩ := Text.exists_cons_of_startsWith hw
    have hne (d : Char) (hd : isDelimiter d = true) : c ≠ d := by
      rintro rfl
      rw [Literal.canStart_eq_false hd] at hc
      cases hc
    refine ⟨[], Text.allOf_nil, ?_⟩
    rw [hskip]
    simp only [List.cons_append, List.nil_append, if_neg (hne ')' rfl), if_neg (hne ',' rfl),
      if_pos hc]

theorem readArguments_of_arguments {as : List Argument} {u : Text}
    (h : Arguments (Spelled dropsTag maxNesting) as u) {b : Text} (hb : AllOf isBlank b) (r : Text)
    {rounds : Nat} (hr : as.length ≤ rounds) :
    readArguments dropsTag rounds (b ++ (u ++ ')' :: r)) = .found as (')' :: r) := by
  induction h generalizing b rounds with
  | @last a u b' h hb' hs =>
    obtain ⟨n, rfl, -⟩ := Literal.exists_round hr
    have hread := readArgument_of_form h (hs.paren r) hb
    have hskip : skipBlank (b' ++ ')' :: r) = ')' :: r := Text.skipBlank_run hb' rfl
    rw [List.append_assoc, readArguments, hread, Reading.andThen_found, hskip]
    simp only [if_true]
  | @more a u sep w as h hsep hs hw ih =>
    obtain ⟨n, rfl, hn⟩ := Literal.exists_round hr
    have hstart := hw.canStart fun _ hv => hv.canStart
    obtain ⟨b', hb', hread⟩ := readArguments_more h hsep hs hstart hb r n
    rw [hread, ih hb' hn, Reading.map_found]

/-- Where an argument begins, arguments are read. -/
theorem readArgumentList_row (dropsTag : Bool) {b u : Text} (hb : AllOf isBlank b)
    (hu : startsWith canStart u = true) (z : Text) :
    readArgumentList dropsTag (b ++ (u ++ z)) =
      readArguments dropsTag ((u ++ z).length + 1) (u ++ z) := by
  rw [readArgumentList, Literal.skipBlank_literal hb hu]
  split
  · next r heq =>
    -- no argument begins with a parenthesis
    obtain ⟨c, u', rfl, hc⟩ := Text.exists_cons_of_startsWith hu
    rw [List.cons_append, List.cons.injEq] at heq
    rw [heq.1] at hc
    cases hc
  · rfl

/-- Reading finds the arguments of a call just where they are written up to the closing
parenthesis. -/
theorem readArgumentList_eq_found_iff {as : List Argument} :
    readArgumentList dropsTag t = .found as rest ↔
      ∃ u r, ArgumentList (Spelled dropsTag maxNesting) as u ∧ rest = ')' :: r ∧
        t = u ++ ')' :: r := by
  constructor
  · intro h
    unfold readArgumentList at h
    obtain ⟨b, ht, hb, -⟩ := Text.exists_blanks t
    split at h
    · next r hskip =>
      cases h
      exact ⟨b, r, .empty hb, rfl, by rw [← hskip]; exact ht⟩
    · obtain ⟨b', u, r, hb', hu, hr, hskip⟩ := arguments_of_readArguments h
      refine ⟨(b ++ b') ++ u, r, .row (Text.allOf_append.2 ⟨hb, hb'⟩) hu, hr, ?_⟩
      rw [hskip] at ht
      rw [ht]
      simp
  · rintro ⟨u, r, hu, rfl, rfl⟩
    cases hu with
    | empty hb =>
      rw [readArgumentList, Text.skipBlank_run hb rfl]
      rfl
    | @row b u as hb h =>
      have hlen : as.length ≤ (u ++ ')' :: r).length + 1 := by
        have := h.length_le fun _ hv => hv.canStart
        simp only [List.length_append]
        omega
      rw [List.append_assoc, readArgumentList_row dropsTag hb (h.canStart fun _ hv => hv.canStart)]
      exact readArguments_of_arguments h Text.allOf_nil r hlen

end Reading

/-! ## Calls -/

/-- A call up to its closing parenthesis, given what holds of the values in it. -/
inductive Head (Item : Value → Prop) : (name : Text) → List Argument → (raw : Text) → Prop where
  | mk {b name b' u : Text} {as : List Argument} (hb : AllOf isBlank b) (hn : IsName name)
      (hb' : AllOf isBlank b') (hu : ArgumentList Item as u) :
      Head Item name as (b ++ (name ++ (b' ++ '(' :: (u ++ [')']))))

/-- A call as it is written before `rest`. -/
inductive Form (dropsTag : Bool) : Call → (rest : Text) → Prop where
  | plain {name raw rest : Text} {as : List Argument}
      (h : Head (Spelled dropsTag maxNesting) name as raw)
      (hr : tickRun (skipInline rest) < minTicks) : Form dropsTag ⟨name, file as, [], raw⟩ rest
  | block {name raw gap rest : Text} {as : List Argument} {f : Fence}
      (h : Head (Spelled dropsTag maxNesting) name as raw) (hg : AllOf isInline gap)
      (hf : f.WellFormed) (hr : startsWith (· == tick) rest = false) :
      Form dropsTag ⟨name, file as, Block.clean dropsTag f.body, raw ++ (gap ++ f.raw)⟩ rest

theorem Head.getLast? {Item : Value → Prop} {name raw : Text} {as : List Argument}
    (h : Head Item name as raw) : raw.getLast? = some ')' := by
  obtain @⟨b, name, b', u, as, -, -, -, -⟩ := h
  have hsplit : b ++ (name ++ (b' ++ '(' :: (u ++ [')']))) =
      (b ++ (name ++ (b' ++ '(' :: u))) ++ [')'] := by simp
  rw [hsplit, List.getLast?_concat]

/-- A name with the opening parenthesis right behind it is the whole beginning of a call. -/
theorem Head.eq_of_append {Item : Value → Prop} {name raw : Text} {as : List Argument}
    (h : Head Item name as raw) (rest : Text) {name' p : Text} (hn : IsName name')
    (heq : raw ++ rest = name' ++ '(' :: p) :
    name = name' ∧ ∃ u, ArgumentList Item as u ∧ raw = name ++ '(' :: (u ++ [')']) := by
  obtain @⟨b, name, b', u, as, hb, hname, hb', hu⟩ := h
  have hblank (c : Char) (hc : isBlank c = true) : isNameChar c = false ∧ c ≠ '(' := by
    rcases Text.isBlank_iff.1 hc with rfl | rfl | rfl | rfl <;> decide
  obtain rfl : b = [] := by
    cases b with
    | nil => rfl
    | cons c b =>
      obtain ⟨d, n, rfl, hd⟩ := Text.exists_cons_of_startsWith hn.start
      simp only [List.cons_append, List.cons.injEq] at heq
      have hc := (hblank c (Text.allOf_cons.1 hb).1).1
      rw [heq.1, Literal.isNameChar_of_isNameStart hd] at hc
      cases hc
  have hafter : startsWith isNameChar (b' ++ '(' :: (u ++ ')' :: rest)) = false := by
    cases b' with
    | nil => rfl
    | cons c b' => exact (hblank c (Text.allOf_cons.1 hb').1).1
  have hparen : startsWith isNameChar ('(' :: p) = false := rfl
  have hsplit : name ++ (b' ++ '(' :: (u ++ ')' :: rest)) = name' ++ '(' :: p := by
    rw [← heq]
    simp
  have hname' : name = name' := by
    have htake := congrArg (List.takeWhile isNameChar) hsplit
    rwa [Text.takeWhile_run hname.chars hafter, Text.takeWhile_run hn.chars hparen] at htake
  subst hname'
  obtain rfl : b' = [] := by
    cases b' with
    | nil => rfl
    | cons c b' =>
      rw [List.append_cancel_left_eq, List.cons_append, List.cons.injEq] at hsplit
      exact absurd hsplit.1 (hblank c (Text.allOf_cons.1 hb').1).2
  exact ⟨rfl, u, hu, rfl⟩

theorem skipInline_block {gap : Text} (hg : AllOf isInline gap) {f : Fence} (hf : f.WellFormed)
    (rest : Text) : skipInline (gap ++ (f.raw ++ rest)) = f.raw ++ rest := by
  obtain ⟨c, u, hu, hc⟩ := Text.exists_cons_of_startsWith (Fence.startsWith_raw hf)
  apply Text.skipInline_run hg
  rw [hu, List.cons_append, Text.startsWith_cons, eq_of_beq hc]
  rfl

theorem endsLine_of_block {gap : Text} (hg : AllOf isInline gap) {f : Fence} (hf : f.WellFormed)
    (rest : Text) : endsLine (gap ++ (f.raw ++ rest)) = true := by
  obtain ⟨c, u, hu, -⟩ := Text.exists_cons_of_startsWith (Fence.startsWith_raw hf)
  have hrun := Fence.tickRun_raw hf rest
  have hw : minTicks ≤ f.width := hf.width
  rw [endsLine, skipInline_block hg hf]
  rw [hu, List.cons_append] at hrun ⊢
  simp only [hrun, hw, decide_true, Bool.or_true]

theorem getLast?_block {f : Fence} (hf : f.WellFormed) (raw gap : Text) :
    (raw ++ (gap ++ f.raw)).getLast? = some tick := by
  rw [← List.append_assoc, List.getLast?_append, Fence.getLast?_raw hf]
  rfl

/-- A call ends with its closing parenthesis or with a fence, and may stand before every text that
does not change which of the two it is or where it ends. -/
theorem Form.change_rest {dropsTag : Bool} {c : Call} {rest rest' : Text} (h : Form dropsTag c rest)
    (hp : c.raw.getLast? = some ')' → tickRun (skipInline rest') < minTicks)
    (ht : c.raw.getLast? = some tick → startsWith (· == tick) rest' = false) :
    Form dropsTag c rest' := by
  cases h with
  | plain h hr => exact .plain h (hp h.getLast?)
  | block h hg hf hr => exact .block h hg hf (ht (getLast?_block hf _ _))

theorem readContent_eq_found_iff {dropsTag : Bool} {t content rest : Text} :
    readContent dropsTag t = .found content rest ↔
      (content = [] ∧ t = rest ∧ tickRun (skipInline rest) < minTicks) ∨
        ∃ gap f, AllOf isInline gap ∧ Fence.WellFormed f ∧ startsWith (· == tick) rest = false ∧
          content = Block.clean dropsTag f.body ∧ t = gap ++ (f.raw ++ rest) := by
  simp only [readContent]
  constructor
  · intro h
    split at h
    · next hrun =>
      cases h
      exact Or.inl ⟨rfl, rfl, hrun⟩
    · split at h
      · next f rest' hf =>
        cases h
        obtain ⟨hw, ht, hr⟩ := Fence.read?_eq_some_iff.1 hf
        obtain ⟨gap, hgap, hg, -⟩ := Text.exists_run isInline t
        refine Or.inr ⟨gap, f, hg, hw, hr, rfl, ?_⟩
        rw [← ht]
        exact hgap
      · cases h
  · rintro (⟨rfl, rfl, hrun⟩ | ⟨gap, f, hg, hw, hr, rfl, rfl⟩)
    · rw [if_pos hrun]
    · have hle : minTicks ≤ f.width := hw.width
      rw [skipInline_block hg hw, Fence.tickRun_raw hw, if_neg (by omega),
        Fence.read?_eq_some_iff.2 ⟨hw, rfl, hr⟩]

/-- Reading at a name and an opening parenthesis goes on with the arguments. -/
theorem read_opening (requireLineEnd dropsTag : Bool) {b name b' : Text} (hb : AllOf isBlank b)
    (hn : IsName name) (hb' : AllOf isBlank b') (z : Text) :
    read requireLineEnd dropsTag (b ++ (name ++ (b' ++ '(' :: z))) =
      (readArgumentList dropsTag z).andThen fun arguments rest =>
        match skipBlank rest with
        | ')' :: rest =>
          if requireLineEnd && !endsLine rest then .absent rest
          else (readContent dropsTag rest).andThen fun content rest' =>
            .found ⟨name, file arguments, content,
              before (b ++ (name ++ (b' ++ '(' :: z))) rest'⟩ rest'
        | rest => .absent rest := by
  have hafter : startsWith isNameChar (b' ++ '(' :: z) = false := by
    cases b' with
    | nil => rfl
    | cons c b' =>
      have hc := (Text.allOf_cons.1 hb').1
      rcases Text.isBlank_iff.1 hc with rfl | rfl | rfl | rfl <;> rfl
  have hname : Literal.readName (b ++ (name ++ (b' ++ '(' :: z))) =
      .found name (b' ++ '(' :: z) :=
    Literal.readName_eq_found_iff.2 ⟨b, hb, hn, rfl, hafter⟩
  have hopen : skipBlank (b' ++ '(' :: z) = '(' :: z := Text.skipBlank_run hb' rfl
  rw [read, hname, Reading.andThen_found, hopen]
  rfl

/-- A name alone is no call. -/
theorem read_name (requireLineEnd dropsTag : Bool) {name : Text} (hn : IsName name) :
    read requireLineEnd dropsTag name = .absent [] := by
  have hname : Literal.readName name = .found name [] :=
    Literal.readName_eq_found_iff.2 ⟨[], Text.allOf_nil, hn, by simp, rfl⟩
  rw [read, hname]
  rfl

theorem parse?_name (requireLineEnd : Bool) (options : ReadOptions) {name : Text}
    (hn : IsName name) : parse? requireLineEnd options name = .ok none := by
  rw [parse?, read_name requireLineEnd options.dropTag hn]
  rfl

/-- Reading at a call goes on behind its closing parenthesis. -/
theorem read_head {dropsTag : Bool} {name raw : Text} {as : List Argument}
    (h : Head (Spelled dropsTag maxNesting) name as raw) (requireLineEnd : Bool) (rest : Text) :
    read requireLineEnd dropsTag (raw ++ rest) =
      if requireLineEnd && !endsLine rest then .absent rest
      else (readContent dropsTag rest).andThen fun content rest' =>
        .found ⟨name, file as, content, before (raw ++ rest) rest'⟩ rest' := by
  obtain @⟨b, name, b', u, as, hb, hn, hb', hu⟩ := h
  have hsplit : b ++ (name ++ (b' ++ '(' :: (u ++ [')']))) ++ rest =
      b ++ (name ++ (b' ++ '(' :: (u ++ ')' :: rest))) := by simp
  have hlist : readArgumentList dropsTag (u ++ ')' :: rest) = .found as (')' :: rest) :=
    readArgumentList_eq_found_iff.2 ⟨u, rest, hu, rfl, rfl⟩
  have hclose : skipBlank (')' :: rest) = ')' :: rest := Text.skipBlank_eq_self rfl
  rw [hsplit, read_opening requireLineEnd dropsTag hb hn hb', hlist, Reading.andThen_found]
  simp only [hclose]

/-- Where a call is found, it is written out up to the closing parenthesis. -/
theorem exists_head_of_read {requireLineEnd dropsTag : Bool} {t : Text} {c : Call} {rest : Text}
    (h : read requireLineEnd dropsTag t = .found c rest) :
    ∃ name as raw rest', Head (Spelled dropsTag maxNesting) name as raw ∧ t = raw ++ rest' := by
  rw [read, Reading.andThen_eq_found_iff] at h
  obtain ⟨name, rest₁, hname, h⟩ := h
  obtain ⟨b, hb, hn, rfl, -⟩ := Literal.readName_eq_found_iff.1 hname
  obtain ⟨b', hrest, hb', -⟩ := Text.exists_blanks rest₁
  split at h
  · next rest₂ hskip =>
    obtain ⟨as, rest₃, hlist, -⟩ := Reading.andThen_eq_found_iff.1 h
    obtain ⟨u, r, hu, -, rfl⟩ := readArgumentList_eq_found_iff.1 hlist
    refine ⟨name, as, _, r, .mk hb hn hb' hu, ?_⟩
    rw [hrest, hskip]
    simp
  · cases h

/-- Reading finds a call just where it is written, and with it the text it was written with. -/
theorem read_eq_found_iff {dropsTag : Bool} {t : Text} {c : Call} {rest : Text} :
    read false dropsTag t = .found c rest ↔ Form dropsTag c rest ∧ t = c.raw ++ rest := by
  constructor
  · intro h
    obtain ⟨name, as, raw, rest', hhead, rfl⟩ := exists_head_of_read h
    rw [read_head hhead, Bool.false_and, if_neg Bool.false_ne_true,
      Reading.andThen_eq_found_iff] at h
    obtain ⟨content, rest'', hcontent, h⟩ := h
    cases h
    obtain ⟨rfl, rfl, hrun⟩ | ⟨gap, f, hg, hf, hr, rfl, rfl⟩ := readContent_eq_found_iff.1 hcontent
    · rw [Text.before_append]
      exact ⟨.plain hhead hrun, rfl⟩
    · have hsplit : raw ++ (gap ++ (f.raw ++ rest)) = raw ++ (gap ++ f.raw) ++ rest := by simp
      rw [hsplit, Text.before_append]
      exact ⟨.block hhead hg hf hr, rfl⟩
  · rintro ⟨h, rfl⟩
    cases h with
    | plain h hr =>
      rw [read_head h, Bool.false_and, if_neg Bool.false_ne_true,
        readContent_eq_found_iff.2 (Or.inl ⟨rfl, rfl, hr⟩), Reading.andThen_found,
        Text.before_append]
    | @block name raw gap rest as f h hg hf hr =>
      have hsplit : raw ++ (gap ++ f.raw) ++ rest = raw ++ (gap ++ (f.raw ++ rest)) := by simp
      have hcontent : readContent dropsTag (gap ++ (f.raw ++ rest)) =
          .found (Block.clean dropsTag f.body) rest :=
        readContent_eq_found_iff.2 (Or.inr ⟨gap, f, hg, hf, hr, rfl, rfl⟩)
      rw [hsplit, read_head h, Bool.false_and, if_neg Bool.false_ne_true, hcontent,
        Reading.andThen_found, ← hsplit, Text.before_append]

/-- Nothing is lost in reading: the text of a call and what stands behind it make up the text. -/
theorem raw_append_of_read {dropsTag : Bool} {t : Text} {c : Call} {rest : Text}
    (h : read false dropsTag t = .found c rest) : c.raw ++ rest = t :=
  (read_eq_found_iff.1 h).2.symm

/-- The rule about the end of the line looks behind a call that has no block. -/
theorem read_true_of_form {dropsTag : Bool} {c : Call} {rest : Text} (h : Form dropsTag c rest) :
    read true dropsTag (c.raw ++ rest) =
      if c.raw.getLast? = some ')' ∧ endsLine rest = false then .absent rest
      else .found c rest := by
  have hfalse := read_eq_found_iff.2 ⟨h, rfl⟩
  cases h with
  | plain h hr =>
    rw [read_head h] at hfalse ⊢
    cases he : endsLine rest with
    | true => simpa using hfalse
    | false => simp [h.getLast?]
  | @block name raw gap rest as f h hg hf hr =>
    have hlast := getLast?_block hf raw gap
    have hsplit : raw ++ (gap ++ f.raw) ++ rest = raw ++ (gap ++ (f.raw ++ rest)) := by simp
    have hne : ¬ (some tick = some ')') := by decide
    rw [hlast, if_neg fun hand => hne hand.1]
    rw [hsplit, read_head h] at hfalse ⊢
    rw [endsLine_of_block hg hf]
    exact hfalse

theorem parse?_eq_some_iff {requireLineEnd : Bool} {options : ReadOptions} {t : Text} {c : Call} :
    parse? requireLineEnd options t = .ok (some c) ↔
      ∃ rest, read requireLineEnd options.dropTag t = .found c rest := by
  rw [parse?]
  cases read requireLineEnd options.dropTag t with
  | found c' rest => simp [Reading.result]
  | absent rest => simp [Reading.result]
  | fault o => simp [Reading.result]

/-- What is known of the call in an outcome by one view of it. -/
theorem exists_call_of_view {α : Type} {outcome : Except Decimal.Oversized (Option Call)}
    {view : Call → α} {a : α} (h : outcome.toOption.map (Option.map view) = some (some a)) :
    ∃ c, outcome = .ok (some c) ∧ view c = a := by
  match outcome with
  | .error o => cases h
  | .ok none => cases h
  | .ok (some c) => exact ⟨c, rfl, Option.some.inj (Option.some.inj h)⟩

theorem parse?_eq_error_iff {requireLineEnd : Bool} {options : ReadOptions} {t : Text}
    {o : Decimal.Oversized} :
    parse? requireLineEnd options t = .error o ↔
      read requireLineEnd options.dropTag t = .fault o := by
  rw [parse?]
  cases read requireLineEnd options.dropTag t with
  | found c rest => simp [Reading.result]
  | absent rest => simp [Reading.result]
  | fault o' => simp [Reading.result]

end ToolCalls.Call

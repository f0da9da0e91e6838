import ToolCalls.Proofs.Literal.Grammar

/-!
# Reading literals

The readers find exactly the literals of the grammar, and nothing of what stands behind them.  The
main statement is `readNested_findsExactly`: a value is found just where blanks, its literal and a
text that cannot lengthen the literal stand one after another.

Arrays and objects are read by the same loop (`readListed`), which takes the reader for the parts;
`readElements` and `readMembers` are instances of it.
-/

namespace ToolCalls.Literal

open Text (AllOf isBlank skipBlank before)

variable {t rest : Text} {v : Value}

/-- Blanks before a literal are skipped, and no more. -/
theorem skipBlank_literal {b u : Text} (hb : AllOf isBlank b) (hu : startsWith canStart u = true)
    (rest : Text) : skipBlank (b ++ (u ++ rest)) = u ++ rest :=
  Text.skipBlank_run hb (startsWith_blank_eq_false (Text.startsWith_append_of_startsWith hu))

/-! ## Names -/

theorem readName_eq_found_iff {name : Text} :
    readName t = .found name rest ↔
      ∃ b, AllOf isBlank b ∧ IsName name ∧ t = b ++ (name ++ rest) ∧
        startsWith isNameChar rest = false := by
  constructor
  · intro h
    obtain ⟨b, ht, hb, -⟩ := Text.exists_blanks t
    simp only [readName] at h
    split at h
    · next hs =>
      simp only [Reading.found.injEq] at h
      obtain ⟨rfl, rfl⟩ := h
      refine ⟨b, hb, ⟨?_, Text.allOf_takeWhile _ _⟩, ?_, Text.startsWith_dropWhile _ _⟩
      · obtain ⟨c, u, hu, hc⟩ := Text.exists_cons_of_startsWith hs
        rw [hu, List.takeWhile_cons_of_pos (isNameChar_of_isNameStart hc)]
        exact hc
      · rw [List.takeWhile_append_dropWhile]
        exact ht
    · cases h
  · rintro ⟨b, hb, hn, rfl, hr⟩
    simp only [readName, skipBlank_literal hb hn.canStart]
    rw [if_pos (Text.startsWith_append_of_startsWith hn.start), Text.takeWhile_run hn.chars hr,
      Text.dropWhile_run hn.chars hr]

/-! ## Strings -/

theorem isQuote_iff {c : Char} : isQuote c = true ↔ c = '\x22' ∨ c = '\x27' := by
  simp [isQuote]

/-- What is read for a backslash and a character is what they stand for. -/
theorem escape_unescape (quote e : Char) : Escape quote e (unescape quote e) := by
  unfold unescape
  by_cases hq : e = quote
  · rw [if_pos hq, hq]
    exact .quote
  · rw [if_neg hq]
    by_cases hspecial : e ∈ ['n', 't', 'r', '\\']
    · simp only [List.mem_cons, List.not_mem_nil, or_false] at hspecial
      rcases hspecial with rfl | rfl | rfl | rfl
      · exact .newline
      · exact .tab
      · exact .carriageReturn
      · exact .backslash
    · have hother : Escape quote e ['\\', e] := .other hq hspecial
      simp only [List.mem_cons, List.not_mem_nil, or_false, not_or] at hspecial
      obtain ⟨hn, ht, hr, hb⟩ := hspecial
      rwa [if_neg hn, if_neg ht, if_neg hr, if_neg hb]

/-- No quote is one of the letters with a meaning of their own, so an escape stands for one text
only. -/
theorem Escape.eq_unescape {quote e : Char} {u : Text} (h : Escape quote e u)
    (hq : isQuote quote = true) : u = unescape quote e := by
  cases h with
  | quote => simp [unescape]
  | newline => rcases isQuote_iff.1 hq with rfl | rfl <;> rfl
  | tab => rcases isQuote_iff.1 hq with rfl | rfl <;> rfl
  | carriageReturn => rcases isQuote_iff.1 hq with rfl | rfl <;> rfl
  | backslash => rcases isQuote_iff.1 hq with rfl | rfl <;> rfl
  | other hne he =>
    simp only [List.mem_cons, List.not_mem_nil, or_false, not_or] at he
    obtain ⟨hn, ht, hr, hb⟩ := he
    rw [unescape, if_neg hne, if_neg hn, if_neg ht, if_neg hr, if_neg hb]

theorem quoted_of_unquote? {quote : Char} {s : Text} (h : unquote? quote t = some (s, rest)) :
    ∃ body, Quoted quote s body ∧ t = body ++ quote :: rest := by
  fun_induction unquote? quote t generalizing s with
  | case1 => cases h
  | case2 => cases h
  | case3 e u ih =>
    simp only [Option.map_eq_some_iff, Prod.mk.injEq] at h
    obtain ⟨⟨s', rest'⟩, h', rfl, rfl⟩ := h
    obtain ⟨body, hb, rfl⟩ := ih h'
    exact ⟨'\\' :: e :: body, .escape (escape_unescape quote e) hb, rfl⟩
  | case4 t hc =>
    simp only [Option.some.injEq, Prod.mk.injEq] at h
    obtain ⟨rfl, rfl⟩ := h
    exact ⟨[], .nil, rfl⟩
  | case5 c t hc hq ih =>
    simp only [Option.map_eq_some_iff, Prod.mk.injEq] at h
    obtain ⟨⟨s', rest'⟩, h', rfl, rfl⟩ := h
    obtain ⟨body, hb, rfl⟩ := ih h'
    exact ⟨c :: body, .plain hc hq hb, rfl⟩

theorem unquote?_of_quoted {quote : Char} (hq : isQuote quote = true) {s body : Text}
    (h : Quoted quote s body) (rest : Text) :
    unquote? quote (body ++ quote :: rest) = some (s, rest) := by
  induction h with
  | nil =>
    have hne : quote ≠ '\\' := by
      rintro rfl
      cases hq
    rw [List.nil_append, unquote?.eq_def]
    simp only [if_neg hne, if_true]
  | escape he h ih =>
    rw [List.cons_append, List.cons_append, unquote?.eq_def]
    simp only [if_true, ih, Option.map_some, he.eq_unescape hq]
  | plain hc hq' h ih =>
    rw [List.cons_append, unquote?.eq_def]
    simp only [if_neg hc, if_neg hq', ih, Option.map_some]

theorem readText_eq_found_iff {s : Text} :
    readText t = .found s rest ↔
      ∃ b raw, AllOf isBlank b ∧ StringForm s raw ∧ t = b ++ (raw ++ rest) := by
  constructor
  · intro h
    obtain ⟨b, ht, hb, -⟩ := Text.exists_blanks t
    simp only [readText] at h
    split at h
    · cases h
    · next quote body hs =>
      split at h
      · next hq =>
        cases hu : unquote? quote body with
        | none =>
          rw [hu] at h
          cases h
        | some r =>
          obtain ⟨s', rest'⟩ := r
          rw [hu] at h
          simp only [Reading.ofOption, Reading.found.injEq] at h
          obtain ⟨rfl, rfl⟩ := h
          obtain ⟨body', hb', rfl⟩ := quoted_of_unquote? hu
          refine ⟨b, _, hb, .mk hq hb', ?_⟩
          rw [ht, hs]
          simp
      · cases h
  · rintro ⟨b, raw, hb, hf, rfl⟩
    have hs := skipBlank_literal hb hf.canStart rest
    obtain @⟨quote, s, body, hq, hf⟩ := hf
    have hu := unquote?_of_quoted hq hf rest
    rw [readText, hs, List.cons_append, List.append_assoc]
    simp only [List.cons_append, List.nil_append, if_pos hq, hu, Reading.ofOption]

theorem readString_eq_found_iff :
    readString t = .found v rest ↔
      ∃ b s raw, AllOf isBlank b ∧ StringForm s raw ∧ v = .string s raw ∧
        t = b ++ (raw ++ rest) := by
  simp only [readString, Reading.andThen_eq_found_iff, Reading.found.injEq]
  constructor
  · rintro ⟨s, rest', h, rfl, rfl⟩
    obtain ⟨b, raw, hb, hf, rfl⟩ := readText_eq_found_iff.1 h
    refine ⟨b, s, raw, hb, hf, ?_, rfl⟩
    rw [skipBlank_literal hb hf.canStart, Text.before_append]
  · rintro ⟨b, s, raw, hb, hf, rfl, rfl⟩
    refine ⟨s, rest, readText_eq_found_iff.2 ⟨b, raw, hb, hf, rfl⟩, ?_, rfl⟩
    rw [skipBlank_literal hb hf.canStart, Text.before_append]

/-! ## Numbers -/

theorem sign_splitSign (t : Text) : sign (splitSign t).1 ++ (splitSign t).2 = t := by
  unfold splitSign
  split <;> rfl

theorem splitSign_sign (negative : Bool) {ds : Text} (h : Digits ds) (rest : Text) :
    splitSign (sign negative ++ (ds ++ rest)) = (negative, ds ++ rest) := by
  cases negative with
  | true => rfl
  | false =>
    cases ds with
    | nil => exact absurd rfl h.nonempty
    | cons c ds =>
      have hc : c.isDigit = true := (Text.allOf_cons.1 h.digits).1
      show splitSign (c :: (ds ++ rest)) = _
      unfold splitSign
      split
      · next heq =>
        rw [List.cons.injEq] at heq
        rw [heq.1] at hc
        cases hc
      · rfl

theorem integerReading_eq_found_iff {negative : Bool} {ds t' rest' : Text} :
    integerReading negative ds t' rest' = .found v rest ↔
      ds.length ≤ Decimal.maxDigits ∧
        v = .integer
          (if negative then -(Nat.ofDigitChars 10 ds 0 : Int) else Nat.ofDigitChars 10 ds 0)
          (before t' rest') ∧ rest' = rest := by
  simp only [integerReading, Decimal.toNat_eq_ofDigitChars]
  cases hw : Decimal.within ds
      (if negative then -(Nat.ofDigitChars 10 ds 0 : Int) else Nat.ofDigitChars 10 ds 0) with
  | ok n =>
    obtain ⟨hl, rfl⟩ := Decimal.within_eq_ok_iff.1 hw
    simp only [Reading.found.injEq, hl, true_and, eq_comm]
  | error o =>
    have hl := (Decimal.within_eq_error_iff.1 hw).1
    simp only [reduceCtorEq, false_iff, not_and]
    omega

/-- A row of digits that the text behind it does not lengthen, with its sign, is an integer. -/
theorem integer_of_integerReading (dropsTag : Bool) (Item : Value → Prop) {negative : Bool}
    {ds : Text} (hd : Digits ds) (hr : startsWith Char.isDigit rest = false)
    (hf : startsFraction rest = false)
    (h : integerReading negative ds (sign negative ++ (ds ++ rest)) rest = .found v rest) :
    Form dropsTag Item v ∧ Stops v rest ∧ sign negative ++ (ds ++ rest) = v.raw ++ rest := by
  obtain ⟨hl, rfl, -⟩ := integerReading_eq_found_iff.1 h
  rw [← List.append_assoc, Text.before_append]
  exact ⟨.integer negative hd hl, ⟨hr, hf⟩, rfl⟩

theorem readNumber_sound (dropsTag : Bool) (Item : Value → Prop)
    (h : readNumber t = .found v rest) :
    ∃ b, AllOf isBlank b ∧ Form dropsTag Item v ∧ Stops v rest ∧ t = b ++ (v.raw ++ rest) := by
  obtain ⟨b, ht, hb, -⟩ := Text.exists_blanks t
  simp only [readNumber] at h
  generalize hneg : (splitSign (skipBlank t)).1 = negative at h
  generalize hbody : (splitSign (skipBlank t)).2 = body at h
  have hsplit : skipBlank t = sign negative ++ body := by
    rw [← hneg, ← hbody, sign_splitSign]
  have hwhole : body = body.takeWhile Char.isDigit ++ body.dropWhile Char.isDigit :=
    List.takeWhile_append_dropWhile.symm
  have hstop := Text.startsWith_dropWhile Char.isDigit body
  have hdigits := Text.allOf_takeWhile Char.isDigit body
  generalize body.takeWhile Char.isDigit = whole at h hwhole hdigits
  generalize body.dropWhile Char.isDigit = after at h hwhole hstop
  split at h
  · cases h
  · next hne =>
    have hw : Digits whole := ⟨by simpa using hne, hdigits⟩
    refine ⟨b, hb, ?_⟩
    rw [hsplit, hwhole] at h ht
    split at h
    · next tail =>
      split at h
      · next hplaces =>
        have htail : tail = tail.takeWhile Char.isDigit ++ tail.dropWhile Char.isDigit :=
          List.takeWhile_append_dropWhile.symm
        have hstop' := Text.startsWith_dropWhile Char.isDigit tail
        have hp : Digits (tail.takeWhile Char.isDigit) := by
          refine ⟨?_, Text.allOf_takeWhile _ _⟩
          obtain ⟨c, u, rfl, hc⟩ := Text.exists_cons_of_startsWith hplaces
          rw [List.takeWhile_cons_of_pos hc]
          exact List.cons_ne_nil _ _
        generalize tail.takeWhile Char.isDigit = places at h htail hp
        generalize tail.dropWhile Char.isDigit = rest' at h htail hstop'
        simp only [floatReading, Decimal.toNat_eq_ofDigitChars, Reading.found.injEq] at h
        obtain ⟨rfl, rfl⟩ := h
        have hraw : sign negative ++ (whole ++ '.' :: tail) =
            sign negative ++ (whole ++ '.' :: places) ++ rest' := by
          rw [htail]
          simp
        rw [hraw, Text.before_append]
        refine ⟨.float negative hw hp, hstop', ?_⟩
        rw [ht, hraw]
        rfl
      · next hplaces =>
        obtain rfl := (integerReading_eq_found_iff.1 h).2.2
        obtain ⟨hf, hs, hraw⟩ := integer_of_integerReading dropsTag Item hw hstop
          (by simpa [startsFraction] using hplaces) h
        exact ⟨hf, hs, by rw [ht, hraw]⟩
    · next hpoint =>
      obtain rfl := (integerReading_eq_found_iff.1 h).2.2
      have hfrac : startsFraction after = false := by
        unfold startsFraction
        split
        · next tail => exact absurd rfl (hpoint tail)
        · rfl
      obtain ⟨hf, hs, hraw⟩ := integer_of_integerReading dropsTag Item hw hstop hfrac h
      exact ⟨hf, hs, by rw [ht, hraw]⟩

/-- A row of digits that the text behind it does not lengthen is read as an integer, if it is not
too long. -/
theorem readNumber_digits (negative : Bool) {ds b : Text} (hb : AllOf isBlank b) (h : Digits ds)
    (hr : startsWith Char.isDigit rest = false) (hf : startsFraction rest = false) :
    readNumber (b ++ (sign negative ++ ds ++ rest)) =
      integerReading negative ds (sign negative ++ (ds ++ rest)) rest := by
  have hskip := skipBlank_literal hb (canStart_sign_append negative h.canStart) rest
  have hempty : ds.isEmpty = false := by simpa using h.nonempty
  simp only [readNumber]
  rw [hskip]
  simp only [List.append_assoc, splitSign_sign negative h rest, Text.takeWhile_run h.digits hr,
    Text.dropWhile_run h.digits hr, hempty]
  split
  · next heq => cases heq
  · split
    · next tail =>
      have htail : startsWith Char.isDigit tail = false := hf
      rw [if_neg (by simp [htail])]
    · rfl

theorem readNumber_integer (negative : Bool) {ds b : Text} (hb : AllOf isBlank b) (h : Digits ds)
    (hl : ds.length ≤ Decimal.maxDigits) (hr : startsWith Char.isDigit rest = false)
    (hf : startsFraction rest = false) :
    readNumber (b ++ (sign negative ++ ds ++ rest)) =
      .found (.integer
        (if negative then -(Nat.ofDigitChars 10 ds 0 : Int) else Nat.ofDigitChars 10 ds 0)
        (sign negative ++ ds)) rest := by
  rw [readNumber_digits negative hb h hr hf, integerReading_eq_found_iff, ← List.append_assoc,
    Text.before_append]
  exact ⟨hl, rfl, rfl⟩

theorem readNumber_float (negative : Bool) {whole places b : Text} (hb : AllOf isBlank b)
    (hw : Digits whole) (hp : Digits places) (hr : startsWith Char.isDigit rest = false) :
    readNumber (b ++ (sign negative ++ (whole ++ '.' :: places) ++ rest)) =
      .found (.float
        (Binary64.ofDecimal negative (Nat.ofDigitChars 10 (whole ++ places) 0) places.length)
        (sign negative ++ (whole ++ '.' :: places))) rest := by
  have hstart := canStart_sign_append negative
    (Text.startsWith_append_of_startsWith (u := '.' :: places) hw.canStart)
  have hskip := skipBlank_literal hb hstart rest
  have hempty : whole.isEmpty = false := by simpa using hw.nonempty
  have hplaces : startsWith Char.isDigit (places ++ rest) = true := by
    cases places with
    | nil => exact absurd rfl hp.nonempty
    | cons c places => exact (Text.allOf_cons.1 hp.digits).1
  have hpoint : startsWith Char.isDigit ('.' :: (places ++ rest)) = false := rfl
  simp only [readNumber]
  rw [hskip]
  simp only [List.append_assoc, List.cons_append, splitSign_sign negative hw,
    Text.takeWhile_run hw.digits hpoint, Text.dropWhile_run hw.digits hpoint, hempty, hplaces,
    if_true, Text.takeWhile_run hp.digits hr, Text.dropWhile_run hp.digits hr, floatReading,
    Decimal.toNat_eq_ofDigitChars]
  have hraw : sign negative ++ (whole ++ '.' :: (places ++ rest)) =
      sign negative ++ (whole ++ '.' :: places) ++ rest := by simp
  rw [hraw, Text.before_append]
  rfl

/-! ## Words and blocks -/

theorem readWord_sound (dropsTag : Bool) (Item : Value → Prop) (h : readWord t = .found v rest) :
    ∃ b, AllOf isBlank b ∧ Form dropsTag Item v ∧ Stops v rest ∧ t = b ++ (v.raw ++ rest) := by
  obtain ⟨b, ht, hb, -⟩ := Text.exists_blanks t
  refine ⟨b, hb, ?_⟩
  unfold readWord at h
  split at h
  · next heq =>
    rw [heq] at ht
    cases h
    exact ⟨.yes, trivial, ht⟩
  · next heq =>
    rw [heq] at ht
    cases h
    exact ⟨.no, trivial, ht⟩
  · next heq =>
    rw [heq] at ht
    cases h
    exact ⟨.null, trivial, ht⟩
  · cases h

theorem readBlock_eq_found_iff {dropsTag : Bool} :
    readBlock dropsTag t = .found v rest ↔
      ∃ b f, AllOf isBlank b ∧ Fence.WellFormed f ∧ startsWith (· == tick) rest = false ∧
        v = .string (Block.clean dropsTag f.body) f.raw ∧ t = b ++ (f.raw ++ rest) := by
  simp only [readBlock]
  constructor
  · intro h
    obtain ⟨b, ht, hb, -⟩ := Text.exists_blanks t
    split at h
    · next fence rest' hf =>
      obtain ⟨hw, hs, hr⟩ := Fence.read?_eq_some_iff.1 hf
      simp only [Reading.found.injEq] at h
      obtain ⟨rfl, rfl⟩ := h
      rw [hs] at ht ⊢
      rw [Text.before_append]
      exact ⟨b, fence, hb, hw, hr, rfl, ht⟩
    · cases h
  · rintro ⟨b, f, hb, hw, hr, rfl, rfl⟩
    have hform : Form dropsTag (fun _ => True) _ := .block hw
    have hs : skipBlank (b ++ (f.raw ++ rest)) = f.raw ++ rest :=
      skipBlank_literal hb hform.canStart rest
    rw [hs, Fence.read?_eq_some_iff.2 ⟨hw, rfl, hr⟩]
    simp

/-! ## Rows with commas -/

/-- Reads one or more parts with commas between them up to a closing character, in at most the given
number of rounds. -/
def readListed {α : Type} (readPart : Text → Reading α) (close : Char) :
    Nat → Text → Reading (List α)
  | 0, t => .absent t
  | rounds + 1, t =>
    (readPart t).andThen fun a rest =>
      match skipBlank rest with
      | [] => .absent []
      | c :: rest =>
        if c = close then .found [a] rest
        else if c = ',' then (readListed readPart close rounds rest).map (a :: ·)
        else .absent (c :: rest)

theorem readElements_eq_readListed (readItem : Text → Reading Value) (rounds : Nat) (t : Text) :
    readElements readItem rounds t = readListed readItem ']' rounds t := by
  induction rounds generalizing t with
  | zero => rfl
  | succ rounds ih =>
    simp only [readElements, readListed, ih]
    congr 1
    funext v rest
    cases skipBlank rest with
    | nil => rfl
    | cons c rest =>
      split
      · next heq => cases heq; rfl
      · next heq => cases heq; rfl
      · next h₁ h₂ =>
        have hclose : c ≠ ']' := fun h => h₁ rest (by rw [h])
        have hcomma : c ≠ ',' := fun h => h₂ rest (by rw [h])
        simp only [if_neg hclose, if_neg hcomma]

theorem readMembers_eq_readListed (readItem : Text → Reading Value) (rounds : Nat) (t : Text) :
    readMembers readItem rounds t = readListed (readMember readItem) '\x7d' rounds t := by
  induction rounds generalizing t with
  | zero => rfl
  | succ rounds ih =>
    simp only [readMembers, readListed, ih]
    congr 1
    funext m rest
    cases skipBlank rest with
    | nil => rfl
    | cons c rest =>
      split
      · next heq => cases heq; rfl
      · next heq => cases heq; rfl
      · next h₁ h₂ =>
        have hclose : c ≠ '\x7d' := fun h => h₁ rest (by rw [h])
        have hcomma : c ≠ ',' := fun h => h₂ rest (by rw [h])
        simp only [if_neg hclose, if_neg hcomma]

section Listed

variable {α : Type} {readPart : Text → Reading α} {Part : α → Text → Prop} {close : Char}

theorem listed_of_readListed
    (hp : ∀ t a rest, readPart t = .found a rest →
      ∃ b u, AllOf isBlank b ∧ Part a u ∧ t = b ++ (u ++ rest))
    {rounds : Nat} {as : List α} (h : readListed readPart close rounds t = .found as rest) :
    ∃ b u, AllOf isBlank b ∧ Listed Part as u ∧ t = b ++ (u ++ close :: rest) := by
  induction rounds generalizing t as with
  | zero => cases h
  | succ rounds ih =>
    rw [readListed, Reading.andThen_eq_found_iff] at h
    obtain ⟨a, rest', hread, h⟩ := h
    obtain ⟨b, u, hb, hu, rfl⟩ := hp _ _ _ hread
    obtain ⟨b', hrest, hb', -⟩ := Text.exists_blanks rest'
    split at h
    · cases h
    · next c rest'' hskip =>
      rw [hskip] at hrest
      split at h
      · next hc =>
        cases h
        exact ⟨b, u ++ b', hb, .last hu hb', by rw [hrest, hc, List.append_assoc]⟩
      · split at h
        · next hc =>
          obtain ⟨as', h', rfl⟩ := Reading.map_eq_found_iff.1 h
          obtain ⟨b'', w, hb'', hw, rfl⟩ := ih h'
          refine ⟨b, _, hb, .more hu hb' hb'' hw, ?_⟩
          rw [hrest, hc]
          simp
        · cases h

theorem Listed.length_le {as : List α} {u : Text} (h : Listed Part as u) :
    as.length ≤ u.length + 1 := by
  induction h with
  | last h hb => simp
  | more h hb hb' hw ih =>
    simp only [List.length_cons, List.length_append]
    omega

/-- Given a round for each part, one is left for the first and enough for the others. -/
theorem exists_round {a : α} {as : List α} {rounds : Nat} (h : (a :: as).length ≤ rounds) :
    ∃ n, rounds = n + 1 ∧ as.length ≤ n := by
  cases rounds with
  | zero => simp at h
  | succ n => exact ⟨n, rfl, by simpa using h⟩

/-- Behind a part and a comma the next parts are read. -/
theorem readListed_more (hcomma : close ≠ ',') {a : α} {u b b₁ b₂ w rest : Text}
    (hread : readPart (b ++ (u ++ (b₁ ++ ',' :: (b₂ ++ (w ++ close :: rest))))) =
      .found a (b₁ ++ ',' :: (b₂ ++ (w ++ close :: rest))))
    (hb₁ : AllOf isBlank b₁) (rounds : Nat) :
    readListed readPart close (rounds + 1)
        (b ++ (u ++ (b₁ ++ ',' :: (b₂ ++ w)) ++ close :: rest)) =
      (readListed readPart close rounds (b₂ ++ (w ++ close :: rest))).map (a :: ·) := by
  have hskip : skipBlank (b₁ ++ ',' :: (b₂ ++ (w ++ close :: rest))) =
      ',' :: (b₂ ++ (w ++ close :: rest)) := Text.skipBlank_run hb₁ rfl
  simp only [List.append_assoc, List.cons_append]
  rw [readListed, hread, Reading.andThen_found, hskip]
  simp only [if_neg hcomma.symm, if_true]

/-- Every row of the grammar is read, given enough rounds. -/
theorem readListed_of_listed (hclose : isDelimiter close = true) (hblank : isBlank close = false)
    (hcomma : close ≠ ',')
    (hp : ∀ a u, Part a u → ∀ b rest, AllOf isBlank b → startsWith isDelimiter rest = true →
      readPart (b ++ (u ++ rest)) = .found a rest)
    {as : List α} {u : Text} (h : Listed Part as u) {b : Text} (hb : AllOf isBlank b) (rest : Text)
    {rounds : Nat} (hr : as.length ≤ rounds) :
    readListed readPart close rounds (b ++ (u ++ close :: rest)) = .found as rest := by
  induction h generalizing b rounds with
  | @last a u b' h hb' =>
    obtain ⟨n, rfl, -⟩ := exists_round hr
    have hread := hp a u h b (b' ++ close :: rest) hb (startsWith_delimiter hb' hclose rest)
    have hskip : skipBlank (b' ++ close :: rest) = close :: rest := Text.skipBlank_run hb' hblank
    rw [List.append_assoc, readListed, hread, Reading.andThen_found, hskip]
    simp only [if_true]
  | @more a u b₁ b₂ as w h hb₁ hb₂ hw ih =>
    obtain ⟨n, rfl, hn⟩ := exists_round hr
    have hread := hp a u h b (b₁ ++ ',' :: (b₂ ++ (w ++ close :: rest))) hb
      (startsWith_delimiter hb₁ rfl _)
    rw [readListed_more hcomma hread hb₁, ih hb₂ hn, Reading.map_found]

theorem Listed.canStart (hp : ∀ a u, Part a u → startsWith canStart u = true) {as : List α}
    {u : Text} (h : Listed Part as u) : startsWith canStart u = true := by
  cases h with
  | last h hb => exact Text.startsWith_append_of_startsWith (hp _ _ h)
  | more h hb hb' hw => exact Text.startsWith_append_of_startsWith (hp _ _ h)

/-- Reads a row between brackets, for its parts and the text it was written with. -/
def readBracketed (opening closing : Char) (readPart : Text → Reading α) (t : Text) :
    Reading (List α × Text) :=
  match skipBlank t with
  | [] => .absent []
  | c :: body =>
    if c = opening then
      match skipBlank body with
      | [] => (readListed readPart closing 1 []).andThen fun as rest =>
          .found (as, before (c :: body) rest) rest
      | d :: inner =>
        if d = closing then .found ([], before (c :: body) inner) inner
        else (readListed readPart closing (inner.length + 2) (d :: inner)).andThen fun as rest =>
          .found (as, before (c :: body) rest) rest
    else .absent (c :: body)

theorem bracketed_of_readBracketed {opening closing : Char}
    (hp : ∀ t a rest, readPart t = .found a rest →
      ∃ b u, AllOf isBlank b ∧ Part a u ∧ t = b ++ (u ++ rest))
    {as : List α} {raw : Text}
    (h : readBracketed opening closing readPart t = .found (as, raw) rest) :
    ∃ b, AllOf isBlank b ∧ Bracketed opening closing Part as raw ∧ t = b ++ (raw ++ rest) := by
  obtain ⟨b, ht, hb, -⟩ := Text.exists_blanks t
  unfold readBracketed at h
  split at h
  · cases h
  · next c body hskip =>
    rw [hskip] at ht
    obtain ⟨b', hbody, hb', -⟩ := Text.exists_blanks body
    refine ⟨b, hb, ?_⟩
    split at h
    · next hc =>
      subst hc
      -- a row read from the inner text, in either of the two cases without a closing bracket
      have row (rounds : Nat) (inner : Text) (hinner : skipBlank body = inner)
          (h : ((readListed readPart closing rounds inner).andThen fun as rest =>
            .found (as, before (c :: body) rest) rest) = .found (as, raw) rest) :
          Bracketed c closing Part as raw ∧ t = b ++ (raw ++ rest) := by
        obtain ⟨as', rest', hread, h⟩ := Reading.andThen_eq_found_iff.1 h
        cases h
        obtain ⟨b'', u, hb'', hu, hinner'⟩ := listed_of_readListed hp hread
        have hraw : c :: body = c :: ((b' ++ b'') ++ (u ++ [closing])) ++ rest := by
          rw [hbody, hinner, hinner']
          simp
        rw [ht, hraw, Text.before_append]
        exact ⟨.row (Text.allOf_append.2 ⟨hb', hb''⟩) hu, rfl⟩
      split at h
      · next hskip' => exact row _ _ hskip' h
      · next d inner hskip' =>
        split at h
        · next hd =>
          cases h
          have hraw : c :: body = c :: (b' ++ [closing]) ++ rest := by
            rw [hbody, hskip', hd]
            simp
          rw [ht, hraw, Text.before_append]
          exact ⟨.empty hb', rfl⟩
        · exact row _ _ hskip' h
    · cases h

/-- A row between brackets is read up to its closing bracket. -/
theorem readBracketed_row (readPart : Text → Reading α) {opening closing : Char}
    (hopen : isBlank opening = false) (hclose : isDelimiter closing = true) {b b' u : Text}
    (hb : AllOf isBlank b) (hb' : AllOf isBlank b') (hu : startsWith canStart u = true)
    (rest : Text) :
    readBracketed opening closing readPart
        (b ++ (opening :: (b' ++ (u ++ [closing])) ++ rest)) =
      (readListed readPart closing ((u ++ closing :: rest).length + 1)
        (u ++ closing :: rest)).andThen fun as rest' =>
          .found (as, before (opening :: (b' ++ (u ++ [closing])) ++ rest) rest') rest' := by
  have hskip : skipBlank (b ++ (opening :: (b' ++ (u ++ [closing])) ++ rest)) =
      opening :: (b' ++ (u ++ [closing])) ++ rest := Text.skipBlank_run hb hopen
  have hskip' : skipBlank (b' ++ (u ++ [closing]) ++ rest) = u ++ closing :: rest := by
    rw [List.append_assoc, List.append_assoc]
    exact skipBlank_literal hb' hu _
  obtain ⟨d, u', rfl, hd⟩ := Text.exists_cons_of_startsWith hu
  have hne : d ≠ closing := by
    rintro rfl
    rw [canStart_eq_false hclose] at hd
    cases hd
  rw [readBracketed, hskip]
  simp only [List.cons_append] at hskip' ⊢
  simp only [if_true, hskip', if_neg hne, List.length_cons]

theorem readBracketed_of_bracketed {opening closing : Char} (hopen : isBlank opening = false)
    (hclose : isDelimiter closing = true) (hblank : isBlank closing = false)
    (hcomma : closing ≠ ',')
    (hp : ∀ a u, Part a u → ∀ b rest, AllOf isBlank b → startsWith isDelimiter rest = true →
      readPart (b ++ (u ++ rest)) = .found a rest)
    (hstart : ∀ a u, Part a u → startsWith canStart u = true)
    {as : List α} {raw : Text} (h : Bracketed opening closing Part as raw) {b : Text}
    (hb : AllOf isBlank b) (rest : Text) :
    readBracketed opening closing readPart (b ++ (raw ++ rest)) = .found (as, raw) rest := by
  cases h with
  | @empty b' hb' =>
    have hskip : skipBlank (b ++ (opening :: (b' ++ [closing]) ++ rest)) =
        opening :: (b' ++ [closing]) ++ rest := Text.skipBlank_run hb hopen
    have hskip' : skipBlank (b' ++ [closing] ++ rest) = closing :: rest := by
      rw [List.append_assoc]
      exact Text.skipBlank_run hb' hblank
    have hraw : before (opening :: (b' ++ [closing] ++ rest)) rest = opening :: (b' ++ [closing]) :=
      Text.before_append (opening :: (b' ++ [closing])) rest
    rw [readBracketed, hskip]
    simp only [List.cons_append, if_true, hskip', hraw]
  | @row b' u as hb' h =>
    have hlen : as.length ≤ (u ++ closing :: rest).length + 1 := by
      have := h.length_le
      simp only [List.length_cons, List.length_append] at this ⊢
      omega
    have hread := readListed_of_listed hclose hblank hcomma hp h Text.allOf_nil rest hlen
    rw [List.nil_append] at hread
    rw [readBracketed_row readPart hopen hclose hb hb' (h.canStart hstart), hread,
      Reading.andThen_found, Text.before_append]

end Listed

/-! ## Arrays and objects -/

theorem readArray_eq_readBracketed (readItem : Text → Reading Value) (t : Text) :
    readArray readItem t =
      (readBracketed '[' ']' readItem t).map fun r => .ofElements r.1 r.2 := by
  unfold readArray readBracketed
  cases skipBlank t with
  | nil => rfl
  | cons c body =>
    split
    · next heq =>
      cases heq
      simp only [if_true, readElements_eq_readListed]
      cases skipBlank body with
      | nil =>
        simp only [Reading.map_andThen]
        rfl
      | cons d inner =>
        split
        · next heq =>
          cases heq
          rfl
        · next hne =>
          have hd : d ≠ ']' := fun h => hne inner (by rw [h])
          simp only [if_neg hd, Reading.map_andThen]
          rfl
    · next hne =>
      have hc : c ≠ '[' := fun h => hne body (by rw [h])
      simp only [if_neg hc, Reading.map_absent]

theorem readObject_eq_readBracketed (readItem : Text → Reading Value) (t : Text) :
    readObject readItem t =
      (readBracketed '\x7b' '\x7d' (readMember readItem) t).map fun r =>
        .ofMembers (Fields.ofList r.1) r.2 := by
  unfold readObject readBracketed
  cases skipBlank t with
  | nil => rfl
  | cons c body =>
    split
    · next heq =>
      cases heq
      simp only [if_true, readMembers_eq_readListed]
      cases skipBlank body with
      | nil =>
        simp only [Reading.map_andThen]
        rfl
      | cons d inner =>
        split
        · next heq =>
          cases heq
          rfl
        · next hne =>
          have hd : d ≠ '\x7d' := fun h => hne inner (by rw [h])
          simp only [if_neg hd, Reading.map_andThen]
          rfl
    · next hne =>
      have hc : c ≠ '\x7b' := fun h => hne body (by rw [h])
      simp only [if_neg hc, Reading.map_absent]

/-- A reader that finds the literals of the values with a property, and nothing else. -/
def FindsExactly (readItem : Text → Reading Value) (Item : Value → Prop) : Prop :=
  ∀ t v rest, readItem t = .found v rest ↔
    ∃ b, AllOf isBlank b ∧ Item v ∧ Stops v rest ∧ t = b ++ (v.raw ++ rest)

section Containers

variable {readItem : Text → Reading Value} {Item : Value → Prop}

theorem FindsExactly.element (hi : FindsExactly readItem Item) (t : Text) (v : Value) (rest : Text)
    (h : readItem t = .found v rest) :
    ∃ b u, AllOf isBlank b ∧ Element Item v u ∧ t = b ++ (u ++ rest) := by
  obtain ⟨b, hb, hv, -, ht⟩ := (hi t v rest).1 h
  exact ⟨b, v.raw, hb, ⟨hv, rfl⟩, ht⟩

theorem FindsExactly.element_suffix (hi : FindsExactly readItem Item) (t : Text) (v : Value)
    (rest : Text) (h : readItem t = .found v rest) : rest <:+ t := by
  obtain ⟨b, u, -, -, rfl⟩ := hi.element t v rest h
  exact (List.suffix_append u rest).trans (List.suffix_append b _)

theorem FindsExactly.of_element (hi : FindsExactly readItem Item) (v : Value) (u : Text)
    (h : Element Item v u) (b rest : Text) (hb : AllOf isBlank b)
    (hd : startsWith isDelimiter rest = true) : readItem (b ++ (u ++ rest)) = .found v rest := by
  obtain ⟨hv, rfl⟩ := h
  exact (hi _ v rest).2 ⟨b, hb, hv, stops_of_delimiter v hd, rfl⟩

theorem startsWith_nameChar_colon {b : Text} (hb : AllOf isBlank b) (rest : Text) :
    startsWith isNameChar (b ++ ':' :: rest) = false := by
  cases b with
  | nil => rfl
  | cons c b =>
    have hc := (Text.allOf_cons.1 hb).1
    rcases Text.isBlank_iff.1 hc with rfl | rfl | rfl | rfl <;> rfl

theorem readKey_sound {key : Text} (h : readKey t = .found key rest) :
    ∃ b raw, AllOf isBlank b ∧ Key key raw ∧ t = b ++ (raw ++ rest) := by
  unfold readKey at h
  split at h
  · next rest' hn =>
    obtain ⟨b, ht, hb, -⟩ := Text.exists_blanks t
    obtain rfl : skipBlank t = rest' := by
      simp only [readName] at hn
      split at hn
      · cases hn
      · simpa using hn
    obtain ⟨b', raw, hb', hs, hraw⟩ := readText_eq_found_iff.1 h
    refine ⟨b ++ b', raw, Text.allOf_append.2 ⟨hb, hb'⟩, .string hs, ?_⟩
    rw [ht, hraw, List.append_assoc]
  · obtain ⟨b, hb, hn, ht, -⟩ := readName_eq_found_iff.1 h
    exact ⟨b, key, hb, .name hn, ht⟩

theorem readKey_of_key {key raw : Text} (h : Key key raw) {b : Text} (hb : AllOf isBlank b)
    (hr : startsWith isNameChar rest = false) : readKey (b ++ (raw ++ rest)) = .found key rest := by
  cases h with
  | name h =>
    rw [readKey, readName_eq_found_iff.2 ⟨b, hb, h, rfl, hr⟩]
  | string h =>
    have hskip := skipBlank_literal hb h.canStart rest
    have hread : readText (raw ++ rest) = .found key rest :=
      readText_eq_found_iff.2 ⟨[], raw, Text.allOf_nil, h, rfl⟩
    have hname : readName (b ++ (raw ++ rest)) = .absent (raw ++ rest) := by
      obtain @⟨quote, s, body, hq, h⟩ := h
      have hstart : isNameStart quote = false := by
        rcases isQuote_iff.1 hq with rfl | rfl <;> decide
      simp only [readName]
      rw [hskip, List.cons_append, Text.startsWith_cons, hstart]
      rfl
    rw [readKey, hname]
    exact hread

theorem FindsExactly.member (hi : FindsExactly readItem Item) (t : Text) (m : Text × Value)
    (rest : Text) (h : readMember readItem t = .found m rest) :
    ∃ b u, AllOf isBlank b ∧ Member Item m u ∧ t = b ++ (u ++ rest) := by
  rw [readMember, Reading.andThen_eq_found_iff] at h
  obtain ⟨key, rest', hk, h⟩ := h
  obtain ⟨b, raw, hb, hkey, rfl⟩ := readKey_sound hk
  obtain ⟨b', hrest, hb', -⟩ := Text.exists_blanks rest'
  split at h
  · next rest'' hskip =>
    obtain ⟨v, hv, rfl⟩ := Reading.map_eq_found_iff.1 h
    obtain ⟨b'', hb'', hitem, -, rfl⟩ := (hi _ _ _).1 hv
    refine ⟨b, _, hb, .mk hkey hb' hb'' hitem, ?_⟩
    rw [hrest, hskip]
    simp
  · cases h

theorem FindsExactly.member_suffix (hi : FindsExactly readItem Item) (t : Text) (m : Text × Value)
    (rest : Text) (h : readMember readItem t = .found m rest) : rest <:+ t := by
  obtain ⟨b, u, -, -, rfl⟩ := hi.member t m rest h
  exact (List.suffix_append u rest).trans (List.suffix_append b _)

/-- Behind a key and a colon the value of a member is read. -/
theorem readMember_key (readItem : Text → Reading Value) {key raw b b₁ : Text} (hk : Key key raw)
    (hb : AllOf isBlank b) (hb₁ : AllOf isBlank b₁) (z : Text) :
    readMember readItem (b ++ (raw ++ (b₁ ++ ':' :: z))) = (readItem z).map (key, ·) := by
  have hkey := readKey_of_key hk hb (startsWith_nameChar_colon hb₁ z)
  have hskip : skipBlank (b₁ ++ ':' :: z) = ':' :: z := Text.skipBlank_run hb₁ rfl
  rw [readMember, hkey, Reading.andThen_found, hskip]
  rfl

theorem FindsExactly.of_member (hi : FindsExactly readItem Item) (m : Text × Value) (u : Text)
    (h : Member Item m u) (b rest : Text) (hb : AllOf isBlank b)
    (hd : startsWith isDelimiter rest = true) :
    readMember readItem (b ++ (u ++ rest)) = .found m rest := by
  obtain @⟨key, raw, b₁, b₂, v, hk, hb₁, hb₂, hv⟩ := h
  have hread : readItem (b₂ ++ (v.raw ++ rest)) = .found v rest :=
    (hi _ v rest).2 ⟨b₂, hb₂, hv, stops_of_delimiter v hd, rfl⟩
  simp only [List.append_assoc, List.cons_append]
  rw [readMember_key readItem hk hb hb₁, hread, Reading.map_found]

theorem readArray_sound (dropsTag : Bool) (hi : FindsExactly readItem Item)
    (h : readArray readItem t = .found v rest) :
    ∃ b, AllOf isBlank b ∧ Form dropsTag Item v ∧ Stops v rest ∧ t = b ++ (v.raw ++ rest) := by
  rw [readArray_eq_readBracketed, Reading.map_eq_found_iff] at h
  obtain ⟨⟨vs, raw⟩, h, rfl⟩ := h
  obtain ⟨b, hb, hf, ht⟩ := bracketed_of_readBracketed hi.element h
  exact ⟨b, hb, .array hf, trivial, ht⟩

theorem readObject_sound (dropsTag : Bool) (hi : FindsExactly readItem Item)
    (h : readObject readItem t = .found v rest) :
    ∃ b, AllOf isBlank b ∧ Form dropsTag Item v ∧ Stops v rest ∧ t = b ++ (v.raw ++ rest) := by
  rw [readObject_eq_readBracketed, Reading.map_eq_found_iff] at h
  obtain ⟨⟨ms, raw⟩, h, rfl⟩ := h
  obtain ⟨b, hb, hf, ht⟩ := bracketed_of_readBracketed hi.member h
  exact ⟨b, hb, .object hf (Fields.collects_ofList ms), trivial, ht⟩

end Containers

/-! ## Values -/

theorem readNested_sound {dropsTag : Bool} {levels : Nat}
    (hi : FindsExactly (readNested dropsTag levels) (Spelled dropsTag levels))
    (h : readNested dropsTag (levels + 1) t = .found v rest) :
    ∃ b, AllOf isBlank b ∧ Spelled dropsTag (levels + 1) v ∧ Stops v rest ∧
      t = b ++ (v.raw ++ rest) := by
  obtain ⟨b, ht, hb, -⟩ := Text.exists_blanks t
  suffices hs : ∃ b', AllOf isBlank b' ∧ Spelled dropsTag (levels + 1) v ∧ Stops v rest ∧
      skipBlank t = b' ++ (v.raw ++ rest) by
    obtain ⟨b', hb', hv, hstop, ht'⟩ := hs
    refine ⟨b ++ b', Text.allOf_append.2 ⟨hb, hb'⟩, hv, hstop, ?_⟩
    rw [ht, ht', List.append_assoc]
  simp only [readNested] at h
  split at h
  · cases h
  · next c u hskip =>
    rw [hskip]
    split at h
    · obtain ⟨b', s, raw, hb', hf, rfl, ht'⟩ := readString_eq_found_iff.1 h
      refine ⟨b', hb', .string hf, fun hraw => ?_, ht'⟩
      -- a quote is no backtick
      obtain ⟨hq, -⟩ := hf
      rw [Text.startsWith_cons, beq_iff_eq] at hraw
      rw [hraw] at hq
      cases hq
    · split at h
      · exact readNumber_sound dropsTag _ h
      · split at h
        · exact readArray_sound dropsTag hi h
        · split at h
          · exact readObject_sound dropsTag hi h
          · split at h
            · obtain ⟨b', f, hb', hf, hr, rfl, ht'⟩ := readBlock_eq_found_iff.1 h
              exact ⟨b', hb', .block hf, fun _ => hr, ht'⟩
            · split at h
              · exact readWord_sound dropsTag _ h
              · cases h

theorem isQuote_eq_false_of_isDigit {c : Char} (h : c.isDigit = true) : isQuote c = false := by
  rw [Bool.eq_false_iff]
  intro hq
  rcases isQuote_iff.1 hq with rfl | rfl <;> cases h

theorem isNameStart_eq_false_of_isDigit {c : Char} (h : c.isDigit = true) :
    isNameStart c = false := by
  have hval : 48 ≤ c.toNat ∧ c.toNat ≤ 57 := by
    simpa [Char.isDigit, UInt32.le_iff_toNat_le] using h
  have halpha : c.isAlpha = false := by
    rw [Bool.eq_false_iff]
    intro ha
    have hrange : 65 ≤ c.toNat ∧ c.toNat ≤ 90 ∨ 97 ≤ c.toNat ∧ c.toNat ≤ 122 := by
      change (decide (c.val ≥ 'A'.val ∧ c.val ≤ 'Z'.val) ||
        (decide (c.val ≥ 'a'.val) && decide (c.val ≤ 'z'.val))) = true at ha
      simpa [UInt32.le_iff_toNat_le] using ha
    omega
  have hunderscore : c ≠ '_' := by
    rintro rfl
    cases h
  have hascii : c.toNat < 0x80 := by omega
  simp [isNameStart, Text.isLetter, hascii, halpha, hunderscore]

/-- A number is read as such, whatever its sign. -/
theorem readNested_number {dropsTag : Bool} {levels : Nat} (negative : Bool) {ds : Text}
    (h : Digits ds) {b : Text} (hb : AllOf isBlank b) (rest : Text) :
    readNested dropsTag (levels + 1) (b ++ (sign negative ++ (ds ++ rest))) =
      readNumber (sign negative ++ (ds ++ rest)) := by
  obtain ⟨c, ds', rfl⟩ : ∃ c ds', ds = c :: ds' := List.exists_cons_of_ne_nil h.nonempty
  have hc : c.isDigit = true := (Text.allOf_cons.1 h.digits).1
  have hstart := canStart_sign_append negative h.canStart
  have hskip := skipBlank_literal hb hstart rest
  rw [List.append_assoc] at hskip
  rw [readNested, hskip]
  cases negative with
  | true =>
    have hcond : ('-'.isDigit || ('-' == '-' && startsWith Char.isDigit (c :: ds' ++ rest))) =
        true := by
      rw [List.cons_append, Text.startsWith_cons, hc]
      rfl
    have hq : isQuote '-' = false := rfl
    simp only [sign, if_true, List.cons_append, List.nil_append, hq] at hcond ⊢
    simp only [hcond, if_true, Bool.false_eq_true, if_false]
  | false =>
    have hcond : (c.isDigit || (c == '-' && startsWith Char.isDigit (ds' ++ rest))) = true := by
      rw [hc]
      rfl
    have hq := isQuote_eq_false_of_isDigit hc
    simp only [sign, Bool.false_eq_true, if_false, List.cons_append, List.nil_append, hq, hcond,
      if_true]

theorem readNested_of_spelled {dropsTag : Bool} {levels : Nat}
    (hi : FindsExactly (readNested dropsTag levels) (Spelled dropsTag levels))
    (h : Spelled dropsTag (levels + 1) v) (hstop : Stops v rest) {b : Text}
    (hb : AllOf isBlank b) : readNested dropsTag (levels + 1) (b ++ (v.raw ++ rest)) =
      .found v rest := by
  have hskip := skipBlank_literal hb h.canStart rest
  cases h with
  | @string s raw h =>
    have hread : readString (raw ++ rest) = .found (.string s raw) rest :=
      readString_eq_found_iff.2 ⟨[], s, raw, Text.allOf_nil, h, rfl, rfl⟩
    obtain @⟨quote, s, body, hq, h⟩ := h
    rw [readNested]
    simp only [Value.raw, List.cons_append] at hskip hread ⊢
    simp only [hskip, hq, if_true, hread]
  | @integer negative ds h hl =>
    have hread := readNumber_integer negative Text.allOf_nil h hl hstop.1 hstop.2
    simp only [Value.raw, List.append_assoc, List.nil_append] at hread ⊢
    rw [readNested_number negative h hb, hread]
  | @float negative whole places hw hp =>
    have hread := readNumber_float negative Text.allOf_nil hw hp hstop
    simp only [Value.raw, List.append_assoc, List.nil_append] at hread ⊢
    rw [readNested_number negative hw hb, hread]
  | yes =>
    rw [readNested, hskip]
    rfl
  | no =>
    rw [readNested, hskip]
    rfl
  | null =>
    rw [readNested, hskip]
    rfl
  | @block f h =>
    have hr : startsWith (· == tick) rest = false := hstop (Fence.startsWith_raw h)
    have hread : readBlock dropsTag (f.raw ++ rest) =
        .found (.string (Block.clean dropsTag f.body) f.raw) rest :=
      readBlock_eq_found_iff.2 ⟨[], f, Text.allOf_nil, h, hr, rfl, rfl⟩
    obtain ⟨c, u, hu, hc⟩ := Text.exists_cons_of_startsWith (Fence.startsWith_raw h)
    obtain rfl : c = tick := eq_of_beq hc
    rw [readNested]
    simp only [Value.raw, hu, List.cons_append] at hskip hread ⊢
    rw [hskip]
    exact hread
  | @array vs raw h =>
    have hread : readArray (readNested dropsTag levels) (raw ++ rest) =
        .found (.ofElements vs raw) rest := by
      rw [readArray_eq_readBracketed, Reading.map_eq_found_iff]
      exact ⟨(vs, raw), readBracketed_of_bracketed rfl rfl rfl (by decide) hi.of_element
        (fun v u hv => by rw [hv.2]; exact hv.1.canStart) h Text.allOf_nil rest, rfl⟩
    rw [readNested, hskip]
    cases h <;> exact hread
  | @object ms fields raw h hf =>
    obtain rfl := hf.eq_ofList
    have hread : readObject (readNested dropsTag levels) (raw ++ rest) =
        .found (.ofMembers (Fields.ofList ms) raw) rest := by
      rw [readObject_eq_readBracketed, Reading.map_eq_found_iff]
      exact ⟨(ms, raw), readBracketed_of_bracketed rfl rfl rfl (by decide) hi.of_member
        (fun m u hm => hm.canStart) h Text.allOf_nil rest, rfl⟩
    rw [readNested, hskip]
    cases h <;> exact hread

/-- Reading finds a value just where blanks, its literal and a text that cannot lengthen the literal
stand one after another. -/
theorem readNested_findsExactly (dropsTag : Bool) (levels : Nat) :
    FindsExactly (readNested dropsTag levels) (Spelled dropsTag levels) := by
  induction levels with
  | zero =>
    intro t v rest
    constructor
    · intro h
      cases h
    · rintro ⟨b, hb, hv, -⟩
      exact absurd hv id
  | succ levels ih =>
    intro t v rest
    constructor
    · exact readNested_sound ih
    · rintro ⟨b, hb, hv, hstop, rfl⟩
      exact readNested_of_spelled ih hv hstop hb

end ToolCalls.Literal

import ToolCalls.Cursor
import ToolCalls.Proofs.Literal.Reading

/-!
# Integers with too many digits

`Spelled` leaves out the integers that have too many digits to be converted.  `Written` is the same
grammar with integers of any length.  At a literal of it a reader finds the value or ends with a
fault (`spelled_or_faults`), and it ends with a fault only in a text in which an integer with too
many digits is written (`readNested_oversized`).

`Cursor.read_readValue_eq_some_iff` says of reading at a position which values are found and where
reading stops.
-/

namespace ToolCalls

open Text (AllOf isBlank skipBlank before)

namespace Reading

variable {α β : Type} {r : Reading α}

/-- Reading met an integer with too many digits. -/
def Faults (r : Reading α) : Prop := ∃ o, r = .fault o

theorem Faults.andThen (h : r.Faults) (next : α → Text → Reading β) : (r.andThen next).Faults := by
  obtain ⟨o, rfl⟩ := h
  exact ⟨o, rfl⟩

theorem Faults.map (h : r.Faults) (f : α → β) : (r.map f).Faults := by
  obtain ⟨o, rfl⟩ := h
  exact ⟨o, rfl⟩

end Reading

/-- The row of digits stands in the text and is too long. -/
def Decimal.Oversized.StandsIn (o : Decimal.Oversized) (t : Text) : Prop :=
  ∃ ds, AllOf Char.isDigit ds ∧ ds <:+: t ∧ Decimal.maxDigits < ds.length ∧ o.digits = ds.length

theorem Decimal.Oversized.StandsIn.mono {o : Decimal.Oversized} {t u : Text} (h : o.StandsIn u)
    (hu : u <:+: t) : o.StandsIn t := by
  obtain ⟨ds, hds, hpart, hlong, hlen⟩ := h
  exact ⟨ds, hds, hpart.trans hu, hlong, hlen⟩

namespace Literal

variable {t rest : Text} {v : Value} {o : Decimal.Oversized}

/-! ## The grammar with integers of any length -/

/-- An integer with any number of digits. -/
inductive IsInteger : Value → Prop where
  | mk (negative : Bool) {ds : Text} (h : Digits ds) :
      IsInteger
        (.integer
          (if negative then -(Nat.ofDigitChars 10 ds 0 : Int) else Nat.ofDigitChars 10 ds 0)
          (sign negative ++ ds))

/-- A value that is nested at most as deep as the given number of levels and written as a literal
for it, its integers with any number of digits. -/
def Written (dropsTag : Bool) : (levels : Nat) → Value → Prop
  | 0, _ => False
  | levels + 1, v => IsInteger v ∨ Form dropsTag (Written dropsTag levels) v

section Mono

variable {α : Type} {Part Part' : α → Text → Prop}

theorem Listed.mono (hp : ∀ a u, Part a u → Part' a u) {as : List α} {u : Text}
    (h : Listed Part as u) : Listed Part' as u := by
  induction h with
  | last h hb => exact .last (hp _ _ h) hb
  | more h hb hb' hw ih => exact .more (hp _ _ h) hb hb' ih

theorem Bracketed.mono (hp : ∀ a u, Part a u → Part' a u) {opening closing : Char} {as : List α}
    {raw : Text} (h : Bracketed opening closing Part as raw) :
    Bracketed opening closing Part' as raw := by
  cases h with
  | empty hb => exact .empty hb
  | row hb h => exact .row hb (h.mono hp)

theorem Form.mono {dropsTag : Bool} {Item Item' : Value → Prop} (hi : ∀ v, Item v → Item' v)
    (h : Form dropsTag Item v) : Form dropsTag Item' v := by
  cases h with
  | string h => exact .string h
  | integer negative h hl => exact .integer negative h hl
  | float negative hw hp => exact .float negative hw hp
  | yes => exact .yes
  | no => exact .no
  | null => exact .null
  | block h => exact .block h
  | array h => exact .array (h.mono fun v u hv => ⟨hi v hv.1, hv.2⟩)
  | object h hf =>
    refine .object (h.mono fun m u hm => ?_) hf
    obtain ⟨hk, hb, hb', hv⟩ := hm
    exact .mk hk hb hb' (hi _ hv)

end Mono

theorem Spelled.written {dropsTag : Bool} {levels : Nat} (h : Spelled dropsTag levels v) :
    Written dropsTag levels v := by
  induction levels generalizing v with
  | zero => exact absurd h id
  | succ levels ih => exact Or.inr (Form.mono (fun _ hv => ih hv) h)

theorem Written.canStart {dropsTag : Bool} {levels : Nat} (h : Written dropsTag levels v) :
    startsWith canStart v.raw = true := by
  cases levels with
  | zero => exact absurd h id
  | succ levels =>
    rcases h with ⟨negative, h⟩ | h
    · exact canStart_sign_append negative h.canStart
    · exact h.canStart

/-! ## Reading what is written -/

section Rows

variable {α : Type} {readPart : Text → Reading α} {Part Part' : α → Text → Prop}

/-- Reading a part that is written as `u` meets an integer with too many digits. -/
def FaultsAt (readPart : Text → Reading α) (u : Text) : Prop :=
  ∀ b rest, AllOf isBlank b → startsWith isDelimiter rest = true →
    (readPart (b ++ (u ++ rest))).Faults

theorem Listed.or_faults {close : Char} (hclose : isDelimiter close = true) (hcomma : close ≠ ',')
    (hread : ∀ a u, Part' a u → ∀ b rest, AllOf isBlank b → startsWith isDelimiter rest = true →
      readPart (b ++ (u ++ rest)) = .found a rest)
    (hor : ∀ a u, Part a u → Part' a u ∨ FaultsAt readPart u) {as : List α} {u : Text}
    (h : Listed Part as u) :
    Listed Part' as u ∨ ∀ b rest rounds, AllOf isBlank b → as.length ≤ rounds →
      (readListed readPart close rounds (b ++ (u ++ close :: rest))).Faults := by
  induction h with
  | @last a u b' h hb' =>
    rcases hor a u h with hpart | hfault
    · exact Or.inl (.last hpart hb')
    · right
      intro b rest rounds hb hr
      obtain ⟨n, rfl, -⟩ := exists_round hr
      rw [List.append_assoc, readListed]
      exact (hfault b _ hb (startsWith_delimiter hb' hclose rest)).andThen _
  | @more a u b₁ b₂ as w h hb₁ hb₂ hw ih =>
    rcases hor a u h with hpart | hfault
    · rcases ih with hrow | hfault
      · exact Or.inl (.more hpart hb₁ hb₂ hrow)
      · right
        intro b rest rounds hb hr
        obtain ⟨n, rfl, hn⟩ := exists_round hr
        have hfirst := hread a u hpart b (b₁ ++ ',' :: (b₂ ++ (w ++ close :: rest))) hb
          (startsWith_delimiter hb₁ rfl _)
        rw [readListed_more hcomma hfirst hb₁]
        exact (hfault b₂ rest n hb₂ hn).map _
    · right
      intro b rest rounds hb hr
      obtain ⟨n, rfl, -⟩ := exists_round hr
      have hfirst := hfault b (b₁ ++ ',' :: (b₂ ++ (w ++ close :: rest))) hb
        (startsWith_delimiter hb₁ rfl _)
      simp only [List.append_assoc, List.cons_append]
      rw [readListed]
      exact hfirst.andThen _

theorem Bracketed.or_faults {opening closing : Char} (hopen : isBlank opening = false)
    (hclose : isDelimiter closing = true) (hcomma : closing ≠ ',')
    (hread : ∀ a u, Part' a u → ∀ b rest, AllOf isBlank b → startsWith isDelimiter rest = true →
      readPart (b ++ (u ++ rest)) = .found a rest)
    (hor : ∀ a u, Part a u → Part' a u ∨ FaultsAt readPart u)
    (hstart : ∀ a u, Part a u → startsWith canStart u = true) {as : List α} {raw : Text}
    (h : Bracketed opening closing Part as raw) :
    Bracketed opening closing Part' as raw ∨ ∀ b rest, AllOf isBlank b →
      (readBracketed opening closing readPart (b ++ (raw ++ rest))).Faults := by
  cases h with
  | empty hb => exact Or.inl (.empty hb)
  | @row b' u as hb' h =>
    rcases h.or_faults hclose hcomma hread hor with hrow | hfault
    · exact Or.inl (.row hb' hrow)
    · right
      intro b rest hb
      have hlen : as.length ≤ (u ++ closing :: rest).length + 1 := by
        have := h.length_le
        simp only [List.length_append, List.length_cons]
        omega
      rw [readBracketed_row readPart hopen hclose hb hb' (h.canStart hstart)]
      exact (hfault [] rest _ Text.allOf_nil hlen).andThen _

end Rows

/-- Every value with the property `Any` has the property `Item` too, or reading at its literal meets
an integer with too many digits. -/
def OrFaults (readItem : Text → Reading Value) (Any Item : Value → Prop) : Prop :=
  ∀ v, Any v → Item v ∨ ∀ b rest, AllOf isBlank b → Stops v rest →
    (readItem (b ++ (v.raw ++ rest))).Faults

section Containers

variable {readItem : Text → Reading Value} {Any Item : Value → Prop}

theorem OrFaults.element (hor : OrFaults readItem Any Item) (v : Value) (u : Text)
    (h : Element Any v u) : Element Item v u ∨ FaultsAt readItem u := by
  obtain ⟨hv, rfl⟩ := h
  rcases hor v hv with hitem | hfault
  · exact Or.inl ⟨hitem, rfl⟩
  · exact Or.inr fun b rest hb hd => hfault b rest hb (stops_of_delimiter v hd)

theorem OrFaults.member (hor : OrFaults readItem Any Item) (m : Text × Value) (u : Text)
    (h : Member Any m u) : Member Item m u ∨ FaultsAt (readMember readItem) u := by
  obtain @⟨key, raw, b₁, b₂, v, hk, hb₁, hb₂, hv⟩ := h
  rcases hor v hv with hitem | hfault
  · exact Or.inl (.mk hk hb₁ hb₂ hitem)
  · right
    intro b rest hb hd
    simp only [List.append_assoc, List.cons_append]
    rw [readMember_key readItem hk hb hb₁]
    exact (hfault b₂ rest hb₂ (stops_of_delimiter v hd)).map _

theorem OrFaults.array (hor : OrFaults readItem Any Item) (hi : FindsExactly readItem Item)
    (hstart : ∀ v, Any v → startsWith canStart v.raw = true) {vs : List Value} {raw : Text}
    (h : Bracketed '[' ']' (Element Any) vs raw) :
    Bracketed '[' ']' (Element Item) vs raw ∨
      ∀ rest, (readArray readItem (raw ++ rest)).Faults := by
  have hstart' (v : Value) (u : Text) (hv : Element Any v u) : startsWith canStart u = true := by
    rw [hv.2]
    exact hstart v hv.1
  rcases h.or_faults rfl rfl (by decide) hi.of_element hor.element hstart' with hrow | hfault
  · exact Or.inl hrow
  · right
    intro rest
    rw [readArray_eq_readBracketed]
    exact (hfault [] rest Text.allOf_nil).map _

theorem OrFaults.object (hor : OrFaults readItem Any Item) (hi : FindsExactly readItem Item)
    {ms : List (Text × Value)} {raw : Text} (h : Bracketed '\x7b' '\x7d' (Member Any) ms raw) :
    Bracketed '\x7b' '\x7d' (Member Item) ms raw ∨
      ∀ rest, (readObject readItem (raw ++ rest)).Faults := by
  have hstart (m : Text × Value) (u : Text) (hm : Member Any m u) : startsWith canStart u = true :=
    hm.canStart
  rcases h.or_faults rfl rfl (by decide) hi.of_member hor.member hstart with hrow | hfault
  · exact Or.inl hrow
  · right
    intro rest
    rw [readObject_eq_readBracketed]
    exact (hfault [] rest Text.allOf_nil).map _

end Containers

theorem integerReading_eq_fault_iff {negative : Bool} {ds t' rest' : Text} :
    integerReading negative ds t' rest' = .fault o ↔
      Decimal.maxDigits < ds.length ∧ o = ⟨ds.length⟩ := by
  simp only [integerReading]
  cases hw : Decimal.within ds
      (if negative then -(Decimal.toNat ds : Int) else Decimal.toNat ds) with
  | ok n =>
    have hl := (Decimal.within_eq_ok_iff.1 hw).1
    simp only [reduceCtorEq, false_iff, not_and]
    omega
  | error e =>
    obtain ⟨hl, rfl⟩ := Decimal.within_eq_error_iff.1 hw
    simp [hl, eq_comm]

theorem readNested_long (dropsTag : Bool) (levels : Nat) (negative : Bool) {ds b : Text}
    (hb : AllOf isBlank b) (h : Digits ds) (hl : Decimal.maxDigits < ds.length)
    (hr : startsWith Char.isDigit rest = false) (hf : startsFraction rest = false) :
    readNested dropsTag (levels + 1) (b ++ (sign negative ++ (ds ++ rest))) =
      .fault ⟨ds.length⟩ := by
  have hread := readNumber_digits negative Text.allOf_nil h hr hf
  rw [List.nil_append, List.append_assoc] at hread
  rw [readNested_number negative h hb, hread, integerReading_eq_fault_iff]
  exact ⟨hl, rfl⟩

/-- Reading at a literal finds its value or meets an integer with too many digits. -/
theorem spelled_or_faults (dropsTag : Bool) (levels : Nat) :
    OrFaults (readNested dropsTag levels) (Written dropsTag levels) (Spelled dropsTag levels) := by
  induction levels with
  | zero => exact fun v h => absurd h id
  | succ levels ih =>
    intro v h
    have hskip (b rest : Text) (hb : AllOf isBlank b) := skipBlank_literal hb h.canStart rest
    have hi := readNested_findsExactly dropsTag levels
    rcases h with @⟨negative, ds, h⟩ | h
    · by_cases hl : ds.length ≤ Decimal.maxDigits
      · exact Or.inl (.integer negative h hl)
      · right
        intro b rest hb hstop
        rw [Value.raw, List.append_assoc]
        exact ⟨_, readNested_long dropsTag levels negative hb h (by omega) hstop.1 hstop.2⟩
    · cases h with
      | string h => exact Or.inl (.string h)
      | integer negative h hl => exact Or.inl (.integer negative h hl)
      | float negative hw hp => exact Or.inl (.float negative hw hp)
      | yes => exact Or.inl .yes
      | no => exact Or.inl .no
      | null => exact Or.inl .null
      | block h => exact Or.inl (.block h)
      | array h =>
        rcases ih.array hi (fun _ hv => hv.canStart) h with hrow | hfault
        · exact Or.inl (.array hrow)
        · right
          intro b rest hb _
          have hread := hfault rest
          rw [readNested, hskip b rest hb]
          cases h <;> exact hread
      | object h hf =>
        rcases ih.object hi h with hrow | hfault
        · exact Or.inl (.object hrow hf)
        · right
          intro b rest hb _
          have hread := hfault rest
          rw [readNested, hskip b rest hb]
          cases h <;> exact hread

/-! ## What a fault means

A `Front` is the part of a literal that stands before an integer in it: blanks, or brackets that are
open, with the parts of the row up to the one that the integer is in. -/

/-- The parts of a row up to one that is read as far as `Front` says. -/
inductive RowFront {α : Type} (Part : α → Text → Prop) (Front : Text → Prop) : Text → Prop where
  | here {u : Text} (h : Front u) : RowFront Part Front u
  | more {a : α} {b u b' w : Text} (hb : AllOf isBlank b) (h : Part a u) (hb' : AllOf isBlank b')
      (hw : RowFront Part Front w) : RowFront Part Front (b ++ (u ++ (b' ++ ',' :: w)))

/-- An open bracket and the parts of the row behind it up to one. -/
inductive BracketedFront {α : Type} (opening : Char) (Part : α → Text → Prop)
    (Front : Text → Prop) : Text → Prop where
  | mk {b b' u : Text} (hb : AllOf isBlank b) (hb' : AllOf isBlank b')
      (h : RowFront Part Front u) : BracketedFront opening Part Front (b ++ opening :: (b' ++ u))

/-- The key of a member and its value up to an integer. -/
inductive MemberFront (Front : Text → Prop) : Text → Prop where
  | mk {b key raw b' u : Text} (hb : AllOf isBlank b) (hk : Key key raw) (hb' : AllOf isBlank b')
      (h : Front u) : MemberFront Front (b ++ (raw ++ (b' ++ ':' :: u)))

/-- A literal, nested at most as deep as the given number of levels, up to an integer that it is or
that is in it. -/
def Front (dropsTag : Bool) : (levels : Nat) → Text → Prop
  | 0, _ => False
  | levels + 1, u =>
    AllOf isBlank u ∨
      BracketedFront '[' (Element (Spelled dropsTag levels)) (Front dropsTag levels) u ∨
      BracketedFront '\x7b' (Member (Spelled dropsTag levels))
        (MemberFront (Front dropsTag levels)) u

/-- The text goes on with an integer that has too many digits.  What stands before the integer is a
`First`, given the text from the integer on. -/
inductive LongBehind (First : Text → Text → Prop) : Decimal.Oversized → Text → Prop where
  | mk {u ds rest : Text} (negative : Bool) (hu : First (sign negative ++ (ds ++ rest)) u)
      (h : Digits ds) (hl : Decimal.maxDigits < ds.length)
      (hr : startsWith Char.isDigit rest = false) (hf : startsFraction rest = false) :
      LongBehind First ⟨ds.length⟩ (u ++ (sign negative ++ (ds ++ rest)))

section LongBehind

variable {First Second : Text → Text → Prop}

theorem LongBehind.append (h : LongBehind First o t) (w : Text)
    (hw : ∀ z u, t = u ++ z → First z u → Second z (w ++ u)) : LongBehind Second o (w ++ t) := by
  obtain ⟨negative, hu, h, hl, hr, hf⟩ := h
  rw [← List.append_assoc]
  exact .mk negative (hw _ _ rfl hu) h hl hr hf

theorem LongBehind.mono (h : LongBehind First o t) (hw : ∀ z u, First z u → Second z u) :
    LongBehind Second o t :=
  h.append [] fun z u _ => hw z u

theorem LongBehind.standsIn (h : LongBehind First o t) : o.StandsIn t := by
  obtain @⟨u, ds, rest, negative, hu, h, hl, hr, hf⟩ := h
  exact ⟨ds, h.digits, ⟨u ++ sign negative, rest, by simp⟩, hl, rfl⟩

end LongBehind

theorem BracketedFront.blanks {α : Type} {opening : Char} {Part : α → Text → Prop}
    {First : Text → Prop} {b u : Text} (hb : AllOf isBlank b)
    (h : BracketedFront opening Part First u) : BracketedFront opening Part First (b ++ u) := by
  obtain ⟨hb₁, hb₂, h⟩ := h
  rw [← List.append_assoc]
  exact .mk (Text.allOf_append.2 ⟨hb, hb₁⟩) hb₂ h

theorem Front.blanks {dropsTag : Bool} {levels : Nat} {b u : Text} (hb : AllOf isBlank b)
    (h : Front dropsTag levels u) : Front dropsTag levels (b ++ u) := by
  cases levels with
  | zero => exact h
  | succ levels =>
    rcases h with h | h | h
    · exact .inl (Text.allOf_append.2 ⟨hb, h⟩)
    · exact .inr (.inl (h.blanks hb))
    · exact .inr (.inr (h.blanks hb))

theorem startsFraction_of_ne (h : ∀ tail, rest ≠ '.' :: tail) : startsFraction rest = false := by
  unfold startsFraction
  split
  · next tail => exact absurd rfl (h tail)
  · rfl

theorem readNumber_oversized (h : readNumber t = .fault o) :
    LongBehind (fun _ => AllOf isBlank) o t := by
  obtain ⟨b, ht, hb, -⟩ := Text.exists_blanks t
  -- both branches for integers convert the same digits
  have long (hempty : ¬ ((splitSign (skipBlank t)).2.takeWhile Char.isDigit).isEmpty = true)
      (hf : startsFraction ((splitSign (skipBlank t)).2.dropWhile Char.isDigit) = false)
      (h : integerReading (splitSign (skipBlank t)).1
        ((splitSign (skipBlank t)).2.takeWhile Char.isDigit) (skipBlank t)
        ((splitSign (skipBlank t)).2.dropWhile Char.isDigit) = .fault o) :
      LongBehind (fun _ => AllOf isBlank) o t := by
    obtain ⟨hl, rfl⟩ := integerReading_eq_fault_iff.1 h
    have hds : Digits ((splitSign (skipBlank t)).2.takeWhile Char.isDigit) :=
      ⟨fun hnil => hempty (by rw [hnil]; rfl), Text.allOf_takeWhile _ _⟩
    have hlong : LongBehind (fun _ => AllOf isBlank) _ _ :=
      .mk (splitSign (skipBlank t)).1 hb hds hl (Text.startsWith_dropWhile _ _) hf
    rwa [List.takeWhile_append_dropWhile, sign_splitSign, ← ht] at hlong
  simp only [readNumber] at h
  split at h
  · cases h
  · next hempty =>
    split at h
    · next tail htail =>
      split at h
      · cases h
      · next hdigit => exact long hempty (by rw [htail]; simpa [startsFraction] using hdigit) h
    · next hpoint => exact long hempty (startsFraction_of_ne hpoint) h

section Rows

variable {α : Type} {readPart : Text → Reading α} {Part : α → Text → Prop} {First : Text → Prop}

theorem readListed_oversized
    (hpart : ∀ t a rest, readPart t = .found a rest →
      ∃ b u, AllOf isBlank b ∧ Part a u ∧ t = b ++ (u ++ rest))
    (hfault : ∀ t o, readPart t = .fault o → LongBehind (fun _ => First) o t) {close : Char}
    {rounds : Nat} (h : readListed readPart close rounds t = .fault o) :
    LongBehind (fun _ => RowFront Part First) o t := by
  induction rounds generalizing t with
  | zero => cases h
  | succ rounds ih =>
    rw [readListed, Reading.andThen_eq_fault_iff] at h
    rcases h with h | ⟨a, rest, hread, h⟩
    · exact (hfault t o h).mono fun _ _ => .here
    · obtain ⟨b, u, hb, hu, rfl⟩ := hpart t a rest hread
      obtain ⟨b', hrest, hb', -⟩ := Text.exists_blanks rest
      split at h
      · cases h
      · next c rest' hskip =>
        split at h
        · cases h
        · split at h
          · next hcomma =>
            rw [hrest, hskip, hcomma]
            have hnext : LongBehind (fun _ => RowFront Part First) o _ :=
              (ih (Reading.map_eq_fault_iff.1 h)).append (b ++ (u ++ (b' ++ [','])))
                fun _ _ _ hw => by simpa using RowFront.more hb hu hb' hw
            simpa using hnext
          · cases h

theorem readBracketed_oversized
    (hpart : ∀ t a rest, readPart t = .found a rest →
      ∃ b u, AllOf isBlank b ∧ Part a u ∧ t = b ++ (u ++ rest))
    (hfault : ∀ t o, readPart t = .fault o → LongBehind (fun _ => First) o t)
    {opening closing : Char} (h : readBracketed opening closing readPart t = .fault o) :
    LongBehind (fun _ => BracketedFront opening Part First) o t := by
  obtain ⟨b, ht, hb, -⟩ := Text.exists_blanks t
  unfold readBracketed at h
  split at h
  · cases h
  · next c body hskip =>
    split at h
    · next hopen =>
      obtain ⟨b', hbody, hb', -⟩ := Text.exists_blanks body
      -- the row is all that can meet a fault
      have row (rounds : Nat) (inner : Text) (hinner : skipBlank body = inner)
          (h : ((readListed readPart closing rounds inner).andThen fun as rest =>
            .found (as, before (c :: body) rest) rest) = .fault o) :
          LongBehind (fun _ => BracketedFront opening Part First) o t := by
        rcases Reading.andThen_eq_fault_iff.1 h with h | ⟨as, rest, -, h⟩
        · have hrow : LongBehind (fun _ => BracketedFront opening Part First) o _ :=
            (readListed_oversized hpart hfault h).append (b ++ opening :: b') fun _ _ _ hu => by
              simpa using BracketedFront.mk hb hb' hu
          rw [ht, hskip, hopen, hbody, hinner]
          simpa using hrow
        · cases h
      split at h
      · next hinner => exact row _ _ hinner h
      · next d inner hinner =>
        split at h
        · cases h
        · exact row _ _ hinner h
    · cases h

end Rows

theorem readName_ne_fault (t : Text) (o : Decimal.Oversized) : readName t ≠ .fault o := by
  simp only [readName]
  split <;> simp

theorem readText_ne_fault (t : Text) (o : Decimal.Oversized) : readText t ≠ .fault o := by
  unfold readText
  split
  · simp
  · split
    · unfold Reading.ofOption
      split <;> simp
    · simp

theorem readKey_ne_fault (t : Text) (o : Decimal.Oversized) : readKey t ≠ .fault o := by
  unfold readKey
  split
  · exact readText_ne_fault _ o
  · exact readName_ne_fault t o

theorem readMember_oversized {readItem : Text → Reading Value} {First : Text → Prop}
    (hfault : ∀ t o, readItem t = .fault o → LongBehind (fun _ => First) o t)
    (h : readMember readItem t = .fault o) : LongBehind (fun _ => MemberFront First) o t := by
  rw [readMember, Reading.andThen_eq_fault_iff] at h
  rcases h with h | ⟨key, rest, hkey, h⟩
  · exact absurd h (readKey_ne_fault t o)
  · obtain ⟨b, raw, hb, hk, rfl⟩ := readKey_sound hkey
    obtain ⟨b', hrest, hb', -⟩ := Text.exists_blanks rest
    split at h
    · next rest' hskip =>
      rw [hrest, hskip]
      have hvalue : LongBehind (fun _ => MemberFront First) o _ :=
        (hfault _ o (Reading.map_eq_fault_iff.1 h)).append (b ++ (raw ++ (b' ++ [':'])))
          fun _ _ _ hu => by simpa using MemberFront.mk hb hk hb' hu
      simpa using hvalue
    · cases h

/-- A fault means that an integer with too many digits is written where a value is read. -/
theorem readNested_oversized {dropsTag : Bool} {levels : Nat}
    (h : readNested dropsTag levels t = .fault o) :
    LongBehind (fun _ => Front dropsTag levels) o t := by
  induction levels generalizing t o with
  | zero => cases h
  | succ levels ih =>
    have hi := readNested_findsExactly dropsTag levels
    obtain ⟨b, ht, hb, -⟩ := Text.exists_blanks t
    rw [ht]
    rw [readNested] at h
    suffices hlong : LongBehind (fun _ => Front dropsTag (levels + 1)) o (skipBlank t) from
      hlong.append b fun _ _ _ hu => hu.blanks hb
    split at h
    · cases h
    · next c u hskip =>
      rw [hskip]
      dsimp only at h
      split at h
      · rw [readString, Reading.andThen_eq_fault_iff] at h
        rcases h with h | ⟨s, rest, -, h⟩
        · exact absurd h (readText_ne_fault _ o)
        · cases h
      · split at h
        · exact (readNumber_oversized h).mono fun _ _ => .inl
        · split at h
          · rw [readArray_eq_readBracketed, Reading.map_eq_fault_iff] at h
            exact (readBracketed_oversized hi.element (fun t o => ih) h).mono
              fun _ _ hu => .inr (.inl hu)
          · split at h
            · rw [readObject_eq_readBracketed, Reading.map_eq_fault_iff] at h
              exact (readBracketed_oversized hi.member
                (fun t o => readMember_oversized fun t o => ih) h).mono fun _ _ hu => .inr (.inr hu)
            · split at h
              · simp only [readBlock] at h
                split at h <;> cases h
              · split at h
                · unfold readWord at h
                  split at h <;> cases h
                · cases h

end Literal

/-! ## Values at a position -/

namespace Cursor

open Literal (Digits Key Listed Member Quoted readValue Written Stops maxNesting)

theorem read_eq_some_iff {α : Type} {c : Cursor} {reader : Text → Reading α} {a : α} {e : Nat} :
    c.read reader = .ok (some a, { c with pos := e }) ↔
      ∃ rest, reader c.rest = .found a rest ∧ c.text.length - rest.length = e := by
  unfold read
  cases reader c.rest with
  | found a' rest' => simp [moveTo, and_assoc]
  | absent rest' => simp
  | fault o => simp

/-- The text between the end of a run at the cursor and another position. -/
theorem span_skip_eq_iff {c : Cursor} {p : Char → Bool} {u : Text} {e : Nat} (hne : u ≠ [])
    (hu : Literal.startsWith p u = false) :
    ((c.skip p).pos ≤ e ∧ e ≤ c.text.length ∧
        ({ c with pos := e } : Cursor).span (c.skip p).pos = u) ↔
      e ≤ c.text.length ∧ ∃ b, AllOf p b ∧ c.rest = b ++ (u ++ c.text.drop e) := by
  constructor
  · rintro ⟨hle, hend, hspan⟩
    have hskip : c.text.drop (c.skip p).pos = c.rest.dropWhile p := by
      have hrun := congrArg (List.drop (c.rest.takeWhile p).length)
        (List.takeWhile_append_dropWhile (p := p) (l := c.rest))
      rw [List.drop_left] at hrun
      rw [skip, ← List.drop_drop]
      exact hrun.symm
    have hlen : (c.skip p).pos ≤ (c.text.take e).length := by
      rw [List.length_take]
      omega
    have hsplit : c.text.drop (c.skip p).pos = u ++ c.text.drop e := by
      rw [← hspan, span, ← List.drop_append_of_le_length hlen, List.take_append_drop]
    refine ⟨hend, c.rest.takeWhile p, Text.allOf_takeWhile p c.rest, ?_⟩
    rw [← hsplit, hskip, List.takeWhile_append_dropWhile]
  · rintro ⟨hend, b, hb, hrest⟩
    have hpos : (c.skip p).pos = c.pos + b.length := by
      rw [skip, hrest, Text.takeWhile_run hb]
      rwa [Text.startsWith_append_of_ne_nil hne]
    have hdrop : c.text.drop (c.skip p).pos = u ++ c.text.drop e := by
      rw [hpos, ← List.drop_drop]
      exact (congrArg (List.drop b.length) hrest).trans List.drop_left
    have hlen := congrArg List.length hrest
    have hpositive := List.length_pos_iff.2 hne
    simp only [rest, List.length_append, List.length_drop] at hlen
    have hwidth : e - (c.skip p).pos = u.length := by omega
    refine ⟨by omega, hend, ?_⟩
    rw [span, List.drop_take, hdrop, hwidth, List.take_left]

/-- A value is read at a position and reading stops at another just if the text between the first
character that is no blank and that other position is the literal of the value, as long as it can
be.  This is said of reading that meets no integer with too many digits. -/
theorem read_readValue_eq_some_iff (dropsTag : Bool) (c : Cursor)
    (hf : ∀ o, c.read (readValue dropsTag) ≠ .error o) (v : Value) (e : Nat) :
    c.read (readValue dropsTag) = .ok (some v, { c with pos := e }) ↔
      (c.skip isBlank).pos ≤ e ∧ e ≤ c.text.length ∧
        ({ c with pos := e } : Cursor).span (c.skip isBlank).pos = v.raw ∧
        Written dropsTag maxNesting v ∧ Stops v (c.text.drop e) := by
  have hi := Literal.readNested_findsExactly dropsTag maxNesting
  have hspan (hv : Written dropsTag maxNesting v) := span_skip_eq_iff (c := c) (e := e)
    (fun hnil => by have := hv.canStart; rw [hnil] at this; cases this)
    (Literal.startsWith_blank_eq_false hv.canStart)
  rw [read_eq_some_iff]
  constructor
  · rintro ⟨rest, hread, rfl⟩
    obtain ⟨b, hb, hv, hstop, hrest⟩ := (hi _ _ _).1 hread
    have hsuffix : rest <:+ c.text := by
      have hpart : rest <:+ c.rest := by
        rw [hrest]
        exact (List.suffix_append v.raw rest).trans (List.suffix_append b _)
      exact hpart.trans (List.drop_suffix c.pos c.text)
    have hdrop : c.text.drop (c.text.length - rest.length) = rest :=
      (List.suffix_iff_eq_drop.1 hsuffix).symm
    obtain ⟨hle, hend, hraw⟩ := (hspan hv.written).2 ⟨by omega, b, hb, by rw [hdrop]; exact hrest⟩
    exact ⟨hle, hend, hraw, hv.written, by rwa [hdrop]⟩
  · rintro ⟨hle, hend, hraw, hv, hstop⟩
    obtain ⟨-, b, hb, hrest⟩ := (hspan hv).1 ⟨hle, hend, hraw⟩
    have hlen : c.text.length - (c.text.drop e).length = e := by
      rw [List.length_drop]
      omega
    rcases Literal.spelled_or_faults dropsTag maxNesting v hv with hspelled | hfault
    · exact ⟨_, (hi _ _ _).2 ⟨b, hb, hspelled, hstop, hrest⟩, hlen⟩
    · obtain ⟨o, ho⟩ := hfault b _ hb hstop
      rw [← hrest] at ho
      exact absurd (by rw [read, readValue, ho]) (hf o)

/-- An array of a number with several digits and an object that has the same key twice and, under
another one, a string with two escapes and a backslash that is none: what it denotes is put together
by the rules of the grammar, and reading finds it. -/
theorem read_readValue_nested :
    let c : Cursor :=
      { text := "x: [-120, \x7bk: 1, 'j': 'a\\n\\'\\q', \x22k\x22: 3075\x7d].5".toList, pos := 2 }
    let s : Value := .string "a\n'\\q".toList "'a\\n\\'\\q'".toList
    let n : Value := .integer 3075 "3075".toList
    let o : Value := .object [("k".toList, .integer 3075), ("j".toList, .string "a\n'\\q".toList)]
      "\x7bk: 1, 'j': 'a\\n\\'\\q', \x22k\x22: 3075\x7d".toList [("k".toList, n), ("j".toList, s)]
    let v : Value := .array [.integer (-120), o.datum]
      "[-120, \x7bk: 1, 'j': 'a\\n\\'\\q', \x22k\x22: 3075\x7d]".toList
      [.integer (-120) "-120".toList, o]
    (∀ e, c.read (readValue true) ≠ .error e) ∧ Written true maxNesting v ∧
      c.read (readValue true) = .ok (some v, { c with pos := 44 }) := by
  intro c s n o v
  have hread : (c.read (readValue true)).toOption.isSome = true := by decide +kernel
  have hf (e : Decimal.Oversized) : c.read (readValue true) ≠ .error e := by
    intro he
    rw [he] at hread
    cases hread
  have hblank : AllOf isBlank [' '] := by decide
  have hj : Key "j".toList "'j'".toList := .string (.mk rfl (.plain (by decide) (by decide) .nil))
  have hk : Key "k".toList "k".toList := .name ⟨rfl, by decide⟩
  have hk' : Key "k".toList "\x22k\x22".toList :=
    .string (.mk rfl (.plain (by decide) (by decide) .nil))
  have hquoted : Quoted '\x27' "a\n'\\q".toList "a\\n\\'\\q".toList :=
    .plain (by decide) (by decide) (.escape .newline (.escape .quote
      (.escape (.other (by decide) (by decide)) .nil)))
  have hs : Written true 126 s := .inr (.string (.mk rfl hquoted))
  have hdigits : Digits "1".toList ∧ Digits "120".toList ∧ Digits "3075".toList :=
    ⟨⟨by decide, by decide⟩, ⟨by decide, by decide⟩, ⟨by decide, by decide⟩⟩
  have hone : Written true 126 (.integer 1 "1".toList) := .inl (.mk false hdigits.1)
  have hn : Written true 126 n := .inl (.mk false hdigits.2.2)
  have hfields : Fields.Collects
      [("k".toList, .integer 1 "1".toList), ("j".toList, s), ("k".toList, n)]
      [("k".toList, n), ("j".toList, s)] := Fields.collects_ofList _
  have hmembers := Listed.more (Member.mk hk Text.allOf_nil hblank hone) Text.allOf_nil hblank
    (.more (.mk hj Text.allOf_nil hblank hs) Text.allOf_nil hblank
      (.last (.mk hk' Text.allOf_nil hblank hn) Text.allOf_nil))
  have ho : Written true 127 o := .inr (.object (.row Text.allOf_nil hmembers) hfields)
  have hv : Written true maxNesting v := .inr (.array (.row Text.allOf_nil
    (.more ⟨.inl (.mk true hdigits.2.1), rfl⟩ Text.allOf_nil hblank
      (.last ⟨ho, rfl⟩ Text.allOf_nil))))
  exact ⟨hf, hv, (read_readValue_eq_some_iff true c hf v 44).2
    ⟨by decide, by decide, rfl, hv, trivial⟩⟩

end Cursor

end ToolCalls

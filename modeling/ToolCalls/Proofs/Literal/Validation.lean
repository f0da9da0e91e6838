import ToolCalls.Value.Draft
import ToolCalls.Proofs.Literal.Reading

/-!
# Checking values as they are made

A value is put together from parts: its kind, what it denotes, its source text and the values
inside it.  The readers in `Literal.Checked` follow those in `Literal` step by step, but hand the
parts of every value to `Draft.check` where the others take the value for granted, keys of objects
included.  A value that does not pass ends reading with its defects.  `Checked.readNested_eq` is the
main statement: there is never such a value.
-/

namespace ToolCalls

open Text (skipBlank before)

/-- A reading in which everything that is made is checked: the defects of the first thing that does
not pass, or what reading gives. -/
abbrev Checked (α : Type) := Except (List Defect) (Reading α)

theorem Reading.map_eq_andThen {α β : Type} (f : α → β) (r : Reading α) :
    r.map f = r.andThen fun a rest => .found (f a) rest := by
  cases r <;> rfl

namespace Checked

variable {α β : Type}

/-- Goes on reading with what was found and the text behind it. -/
def andThen (r : Checked α) (next : α → Text → Checked β) : Checked β :=
  match r with
  | .ok (.found a rest) => next a rest
  | .ok (.absent rest) => .ok (.absent rest)
  | .ok (.fault o) => .ok (.fault o)
  | .error defects => .error defects

/-- What was found, with a function applied to it. -/
def map (f : α → β) (r : Checked α) : Checked β := Except.map (Reading.map f) r

/-- The reading of something that is checked, before `rest`. -/
def found (made : Except (List Defect) α) (rest : Text) : Checked α :=
  Except.map (Reading.found · rest) made

@[simp] theorem map_ok (f : α → β) (r : Reading α) : map f (.ok r) = .ok (r.map f) := rfl

@[simp] theorem found_ok (a : α) (rest : Text) : found (.ok a) rest = .ok (.found a rest) := rfl

theorem andThen_ok {next : α → Text → Checked β} {next' : α → Text → Reading β} (r : Reading α)
    (h : ∀ a rest, r = .found a rest → next a rest = .ok (next' a rest)) :
    andThen (.ok r) next = .ok (r.andThen next') := by
  cases r with
  | found a rest => exact h a rest rfl
  | absent rest => rfl
  | fault o => rfl

end Checked

/-- The value with the given parts. -/
def Value.make (kind : Kind) (datum : Datum) (raw : Text) (elements : List Value := [])
    (members : Fields Value := []) : Except (List Defect) Value :=
  Draft.check
    { kind := .string kind.name, datum := datum, raw := .string raw, elements := elements,
      members := members }

theorem Value.make_parts (v : Value) : make v.kind v.datum v.raw v.elements v.members = .ok v :=
  Draft.check_toDraft v

namespace Literal

namespace Checked

/-- Reads a string, for what it denotes and its value. -/
def readText (t : Text) : Checked (Text × Value) :=
  Checked.andThen (.ok (Literal.readText t)) fun s rest =>
    Checked.found ((Value.make .string (.string s) (before (skipBlank t) rest)).map (s, ·)) rest

/-- The reading of an integer with the given digits. -/
def integerReading (negative : Bool) (digits t rest : Text) : Checked Value :=
  let n : Int := Decimal.toNat digits
  match Decimal.within digits (if negative then -n else n) with
  | .ok n => Checked.found (Value.make .integer (.integer n) (before t rest)) rest
  | .error o => .ok (.fault o)

/-- The reading of a number with the given digits before and behind the point. -/
def floatReading (negative : Bool) (whole places t rest : Text) : Checked Value :=
  let x := Binary64.ofDecimal negative (Decimal.toNat (whole ++ places)) places.length
  Checked.found (Value.make .float (.float x) (before t rest)) rest

/-- Reads a number. -/
def readNumber (t : Text) : Checked Value :=
  let t := skipBlank t
  let negative := (splitSign t).1
  let body := (splitSign t).2
  let whole := body.takeWhile Char.isDigit
  let rest := body.dropWhile Char.isDigit
  if whole.isEmpty then .ok (.absent t)
  else match rest with
    | '.' :: tail =>
      if startsWith Char.isDigit tail then
        floatReading negative whole (tail.takeWhile Char.isDigit) t (tail.dropWhile Char.isDigit)
      else integerReading negative whole t rest
    | _ => integerReading negative whole t rest

/-- Reads one of the words `true`, `false` and `null`. -/
def readWord (t : Text) : Checked Value :=
  match skipBlank t with
  | 't' :: 'r' :: 'u' :: 'e' :: rest =>
    Checked.found (Value.make .boolean (.boolean true) (Value.booleanRaw true)) rest
  | 'f' :: 'a' :: 'l' :: 's' :: 'e' :: rest =>
    Checked.found (Value.make .boolean (.boolean false) (Value.booleanRaw false)) rest
  | 'n' :: 'u' :: 'l' :: 'l' :: rest =>
    Checked.found (Value.make .null .null Value.nullRaw) rest
  | rest => .ok (.absent rest)

/-- Reads a fenced block. -/
def readBlock (dropsTag : Bool) (t : Text) : Checked Value :=
  let t := skipBlank t
  match Fence.read? t with
  | some (fence, rest) =>
    let s := Block.clean dropsTag fence.body
    Checked.found (Value.make .string (.string s) (before t rest)) rest
  | none => .ok (.absent t)

section Rows

variable {α : Type}

/-- Reads one or more parts with commas between them up to a closing character. -/
def readListed (readPart : Text → Checked α) (close : Char) : Nat → Text → Checked (List α)
  | 0, t => .ok (.absent t)
  | rounds + 1, t =>
    Checked.andThen (readPart t) fun a rest =>
      match skipBlank rest with
      | [] => .ok (.absent [])
      | c :: rest =>
        if c = close then .ok (.found [a] rest)
        else if c = ',' then (readListed readPart close rounds rest).map (a :: ·)
        else .ok (.absent (c :: rest))

/-- Reads a row between brackets, for its parts and the text it was written with. -/
def readBracketed (opening closing : Char) (readPart : Text → Checked α) (t : Text) :
    Checked (List α × Text) :=
  match skipBlank t with
  | [] => .ok (.absent [])
  | c :: body =>
    if c = opening then
      match skipBlank body with
      | [] => Checked.andThen (readListed readPart closing 1 []) fun as rest =>
          .ok (.found (as, before (c :: body) rest) rest)
      | d :: inner =>
        if d = closing then .ok (.found ([], before (c :: body) inner) inner)
        else Checked.andThen (readListed readPart closing (inner.length + 2) (d :: inner))
          fun as rest => .ok (.found (as, before (c :: body) rest) rest)
    else .ok (.absent (c :: body))

end Rows

/-- Reads an array. -/
def readArray (readItem : Text → Checked Value) (t : Text) : Checked Value :=
  Checked.andThen (readBracketed '[' ']' readItem t) fun r rest =>
    Checked.found (Value.make .array (.list (r.1.map Value.datum)) r.2 r.1) rest

/-- Reads the key of a member.  The value of a key that is a string is made, and checked, too. -/
def readKey (t : Text) : Checked Text :=
  match readName t with
  | .absent rest => (readText rest).map (·.1)
  | r => .ok r

/-- Reads a member of an object. -/
def readMember (readItem : Text → Checked Value) (t : Text) : Checked (Text × Value) :=
  Checked.andThen (readKey t) fun key rest =>
    match skipBlank rest with
    | ':' :: rest => (readItem rest).map (key, ·)
    | rest => .ok (.absent rest)

/-- Reads an object. -/
def readObject (readItem : Text → Checked Value) (t : Text) : Checked Value :=
  Checked.andThen (readBracketed '\x7b' '\x7d' (readMember readItem) t) fun r rest =>
    let members := Fields.ofList r.1
    Checked.found (Value.make .object (.object (members.mapValues Value.datum)) r.2 [] members) rest

/-- Reads a value of any kind, nested at most as deep as the given number of levels. -/
def readNested (dropsTag : Bool) : (levels : Nat) → Text → Checked Value
  | 0, t => .ok (.absent (skipBlank t))
  | levels + 1, t =>
    match skipBlank t with
    | [] => .ok (.absent [])
    | c :: rest =>
      let t := c :: rest
      if isQuote c then (readText t).map (·.2)
      else if c.isDigit || (c == '-' && startsWith Char.isDigit rest) then readNumber t
      else if c = '[' then readArray (readNested dropsTag levels) t
      else if c = '\x7b' then readObject (readNested dropsTag levels) t
      else if c = tick then readBlock dropsTag t
      else if c = 't' ∨ c = 'f' ∨ c = 'n' then readWord t
      else .ok (.absent t)

/-! ## Everything passes

The parts in every place are those of the value that is made there, so that `found_parts` closes
each case. -/

theorem found_parts (v : Value) (rest : Text) :
    Checked.found (Value.make v.kind v.datum v.raw v.elements v.members) rest =
      .ok (.found v rest) := by
  rw [Value.make_parts, Checked.found_ok]

theorem readText_eq (t : Text) :
    readText t = .ok ((Literal.readText t).andThen fun s rest =>
      .found (s, .string s (before (skipBlank t) rest)) rest) := by
  refine Checked.andThen_ok _ fun s rest _ => ?_
  have hmake := Value.make_parts (.string s (before (skipBlank t) rest))
  exact congrArg (fun made => Checked.found (Except.map (s, ·) made) rest) hmake

theorem integerReading_eq (negative : Bool) (digits t rest : Text) :
    integerReading negative digits t rest =
      .ok (Literal.integerReading negative digits t rest) := by
  simp only [integerReading, Literal.integerReading]
  cases Decimal.within digits
      (if negative then -(Decimal.toNat digits : Int) else Decimal.toNat digits) with
  | ok n => exact found_parts (.integer n (before t rest)) rest
  | error o => rfl

theorem floatReading_eq (negative : Bool) (whole places t rest : Text) :
    floatReading negative whole places t rest =
      .ok (Literal.floatReading negative whole places t rest) :=
  found_parts (.float _ (before t rest)) rest

theorem readNumber_eq (t : Text) : readNumber t = .ok (Literal.readNumber t) := by
  simp only [readNumber, Literal.readNumber, integerReading_eq, floatReading_eq]
  generalize (splitSign (skipBlank t)).2.dropWhile Char.isDigit = rest
  split
  · rfl
  · split
    · exact (apply_ite Except.ok _ _ _).symm
    · simp only

theorem readWord_eq (t : Text) : readWord t = .ok (Literal.readWord t) := by
  unfold readWord Literal.readWord
  generalize skipBlank t = u
  split
  · exact found_parts (.ofBool true) _
  · exact found_parts (.ofBool false) _
  · exact found_parts .ofNull _
  · simp only

theorem readBlock_eq (dropsTag : Bool) (t : Text) :
    readBlock dropsTag t = .ok (Literal.readBlock dropsTag t) := by
  simp only [readBlock, Literal.readBlock]
  cases Fence.read? (skipBlank t) with
  | none => rfl
  | some p => exact found_parts (.string (Block.clean dropsTag p.1.body) _) p.2

section Rows

variable {α : Type} {readPart : Text → Checked α} {readPart' : Text → Reading α}

theorem readListed_eq (h : ∀ t, readPart t = .ok (readPart' t)) (close : Char) (rounds : Nat)
    (t : Text) :
    readListed readPart close rounds t = .ok (Literal.readListed readPart' close rounds t) := by
  induction rounds generalizing t with
  | zero => rfl
  | succ rounds ih =>
    rw [readListed, Literal.readListed, h]
    refine Checked.andThen_ok _ fun a rest _ => ?_
    cases skipBlank rest with
    | nil => rfl
    | cons c rest =>
      dsimp only
      split
      · rfl
      · split
        · rw [ih, Checked.map_ok]
        · rfl

theorem readBracketed_eq (h : ∀ t, readPart t = .ok (readPart' t)) (opening closing : Char)
    (t : Text) :
    readBracketed opening closing readPart t =
      .ok (Literal.readBracketed opening closing readPart' t) := by
  simp only [readBracketed, Literal.readBracketed, readListed_eq h]
  cases skipBlank t with
  | nil => rfl
  | cons c body =>
    dsimp only
    split
    · cases skipBlank body with
      | nil => exact Checked.andThen_ok _ fun _ _ _ => rfl
      | cons d inner =>
        dsimp only
        split
        · rfl
        · exact Checked.andThen_ok _ fun _ _ _ => rfl
    · rfl

end Rows

theorem readKey_eq (t : Text) : readKey t = .ok (Literal.readKey t) := by
  unfold readKey Literal.readKey
  cases readName t with
  | found name rest => rfl
  | absent rest =>
    dsimp only
    rw [readText_eq, Checked.map_ok, Reading.map_andThen]
    cases Literal.readText rest <;> rfl
  | fault o => rfl

section Containers

variable {readItem : Text → Checked Value} {readItem' : Text → Reading Value}

theorem readArray_eq (h : ∀ t, readItem t = .ok (readItem' t)) (t : Text) :
    readArray readItem t = .ok (Literal.readArray readItem' t) := by
  rw [readArray, readBracketed_eq h, readArray_eq_readBracketed, Reading.map_eq_andThen]
  exact Checked.andThen_ok _ fun r rest _ => found_parts (.ofElements r.1 r.2) rest

theorem readMember_eq (h : ∀ t, readItem t = .ok (readItem' t)) (t : Text) :
    readMember readItem t = .ok (Literal.readMember readItem' t) := by
  rw [readMember, Literal.readMember, readKey_eq]
  refine Checked.andThen_ok _ fun key rest _ => ?_
  generalize skipBlank rest = u
  split
  · simp only [h, Checked.map_ok]
  · simp only

theorem readObject_eq (h : ∀ t, readItem t = .ok (readItem' t)) (t : Text) :
    readObject readItem t = .ok (Literal.readObject readItem' t) := by
  rw [readObject, readBracketed_eq (readMember_eq h), readObject_eq_readBracketed,
    Reading.map_eq_andThen]
  exact Checked.andThen_ok _ fun r rest _ => found_parts (.ofMembers (Fields.ofList r.1) r.2) rest

end Containers

theorem readString_eq (t : Text) :
    (readText t).map (·.2) = .ok (Literal.readString t) := by
  rw [readText_eq, Checked.map_ok, Reading.map_andThen]
  rfl

/-- No value that is made on the way is refused, in whatever way reading ends. -/
theorem readNested_eq (dropsTag : Bool) (levels : Nat) (t : Text) :
    readNested dropsTag levels t = .ok (Literal.readNested dropsTag levels t) := by
  induction levels generalizing t with
  | zero => rfl
  | succ levels ih =>
    rw [readNested, Literal.readNested]
    cases skipBlank t with
    | nil => rfl
    | cons c rest =>
      simp only [readString_eq, readNumber_eq, readArray_eq ih, readObject_eq ih, readBlock_eq,
        readWord_eq]
      split
      · rfl
      · split
        · rfl
        · split
          · rfl
          · split
            · rfl
            · split
              · rfl
              · split <;> rfl

end Checked

end Literal

end ToolCalls

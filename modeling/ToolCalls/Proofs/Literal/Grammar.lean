import ToolCalls.Proofs.Text.Fences

/-!
# The grammar of literals

How values are written and what they denote, said without a reader.  Every value keeps the literal
it was written with, so the grammar is a property of the value alone: `Spelled dropsTag levels v`
says that `v.raw` is a literal for `v`, nested at most `levels` deep.  `Form` has a rule for each
kind of literal and takes what is known of the values inside as a parameter, and `Bracketed` is a
row of parts with commas between them and brackets around it, for arrays and objects alike.

What a literal denotes is part of its rule: `Escape` has a rule for each escape in a string, a row
of digits denotes its number in base ten, and the members of an object are what `Fields.Collects`
makes of them.

Numbers and fences go on as long as they can.  `Stops v rest` says that `rest`, standing behind the
literal of `v`, does not belong to it.
-/

namespace ToolCalls.Literal

open Text (AllOf isBlank)

/-! ## Names and strings -/

/-- A name as it is written. -/
structure IsName (name : Text) : Prop where
  start : startsWith isNameStart name = true
  chars : AllOf isNameChar name

/-- A backslash and the character `e` behind it stand for `s`.  A pair that means nothing special
stays as it is. -/
inductive Escape (quote : Char) : (e : Char) → (s : Text) → Prop where
  | quote : Escape quote quote [quote]
  | newline : Escape quote 'n' ['\n']
  | tab : Escape quote 't' ['\t']
  | carriageReturn : Escape quote 'r' ['\r']
  | backslash : Escape quote '\\' ['\\']
  | other {e : Char} (hq : e ≠ quote) (he : e ∉ ['n', 't', 'r', '\\']) :
      Escape quote e ['\\', e]

/-- The text `body` between two quotes stands for `s`. -/
inductive Quoted (quote : Char) : (s body : Text) → Prop where
  | nil : Quoted quote [] []
  | escape {e : Char} {s u body : Text} (he : Escape quote e u) (h : Quoted quote s body) :
      Quoted quote (u ++ s) ('\\' :: e :: body)
  | plain {c : Char} {s body : Text} (hc : c ≠ '\\') (hq : c ≠ quote) (h : Quoted quote s body) :
      Quoted quote (c :: s) (c :: body)

/-- A string as it is written. -/
inductive StringForm : (s raw : Text) → Prop where
  | mk {quote : Char} {s body : Text} (hq : isQuote quote = true) (h : Quoted quote s body) :
      StringForm s (quote :: (body ++ [quote]))

/-! ## Rows with commas -/

/-- One or more parts with commas between them and blanks around the commas and at the end. -/
inductive Listed {α : Type} (Part : α → Text → Prop) : List α → Text → Prop where
  | last {a : α} {u b : Text} (h : Part a u) (hb : AllOf isBlank b) : Listed Part [a] (u ++ b)
  | more {a : α} {u b b' : Text} {as : List α} {w : Text} (h : Part a u) (hb : AllOf isBlank b)
      (hb' : AllOf isBlank b') (hw : Listed Part as w) :
      Listed Part (a :: as) (u ++ (b ++ ',' :: (b' ++ w)))

/-- A row between two brackets, or nothing but blanks between them. -/
inductive Bracketed {α : Type} (opening closing : Char) (Part : α → Text → Prop) :
    List α → Text → Prop where
  | empty {b : Text} (hb : AllOf isBlank b) :
      Bracketed opening closing Part [] (opening :: (b ++ [closing]))
  | row {b u : Text} {as : List α} (hb : AllOf isBlank b) (h : Listed Part as u) :
      Bracketed opening closing Part as (opening :: (b ++ (u ++ [closing])))

/-- An element of an array. -/
def Element (Item : Value → Prop) (v : Value) (u : Text) : Prop := Item v ∧ u = v.raw

/-- The key of a member. -/
inductive Key : (key raw : Text) → Prop where
  | name {name : Text} (h : IsName name) : Key name name
  | string {s raw : Text} (h : StringForm s raw) : Key s raw

/-- A member of an object. -/
inductive Member (Item : Value → Prop) : Text × Value → Text → Prop where
  | mk {key raw b b' : Text} {v : Value} (hk : Key key raw) (hb : AllOf isBlank b)
      (hb' : AllOf isBlank b') (hv : Item v) :
      Member Item (key, v) (raw ++ (b ++ ':' :: (b' ++ v.raw)))

/-! ## Values -/

/-- A row of digits. -/
structure Digits (ds : Text) : Prop where
  nonempty : ds ≠ []
  digits : AllOf Char.isDigit ds

/-- The minus sign of a negative number. -/
def sign (negative : Bool) : Text := if negative then ['-'] else []

/-- The rules for literals, given what holds of the values inside. -/
inductive Form (dropsTag : Bool) (Item : Value → Prop) : Value → Prop where
  | string {s raw : Text} (h : StringForm s raw) : Form dropsTag Item (.string s raw)
  | integer (negative : Bool) {ds : Text} (h : Digits ds) (hl : ds.length ≤ Decimal.maxDigits) :
      Form dropsTag Item
        (.integer
          (if negative then -(Nat.ofDigitChars 10 ds 0 : Int) else Nat.ofDigitChars 10 ds 0)
          (sign negative ++ ds))
  | float (negative : Bool) {whole places : Text} (hw : Digits whole) (hp : Digits places) :
      Form dropsTag Item
        (.float
          (Binary64.ofDecimal negative (Nat.ofDigitChars 10 (whole ++ places) 0) places.length)
          (sign negative ++ (whole ++ '.' :: places)))
  | yes : Form dropsTag Item (.boolean true ['t', 'r', 'u', 'e'])
  | no : Form dropsTag Item (.boolean false ['f', 'a', 'l', 's', 'e'])
  | null : Form dropsTag Item (.null ['n', 'u', 'l', 'l'] [] [])
  | block {f : Fence} (h : f.WellFormed) :
      Form dropsTag Item (.string (Block.clean dropsTag f.body) f.raw)
  | array {vs : List Value} {raw : Text} (h : Bracketed '[' ']' (Element Item) vs raw) :
      Form dropsTag Item (.array (vs.map Value.datum) raw vs)
  | object {ms : List (Text × Value)} {fields : Fields Value} {raw : Text}
      (h : Bracketed '\x7b' '\x7d' (Member Item) ms raw) (hf : Fields.Collects ms fields) :
      Form dropsTag Item (.object (fields.map fun e => (e.1, e.2.datum)) raw fields)

/-- A value that is nested at most as deep as the given number of levels and written as a literal
for it. -/
def Spelled (dropsTag : Bool) : (levels : Nat) → Value → Prop
  | 0, _ => False
  | levels + 1, v => Form dropsTag (Spelled dropsTag levels) v

/-! ## Where a literal ends -/

/-- Whether a text starts with a point and a digit. -/
def startsFraction : Text → Bool
  | '.' :: t => startsWith Char.isDigit t
  | _ => false

/-- What stands behind the literal of a value does not make it longer. -/
def Stops : Value → Text → Prop
  | .integer .., rest => startsWith Char.isDigit rest = false ∧ startsFraction rest = false
  | .float .., rest => startsWith Char.isDigit rest = false
  | .string _ raw, rest =>
    startsWith (· == tick) raw = true → startsWith (· == tick) rest = false
  | _, _ => True

/-- A character that no literal goes on with. -/
def isDelimiter (c : Char) : Bool := isBlank c || c == ',' || c == ']' || c == '\x7d' || c == ')'

theorem isDelimiter_iff {c : Char} :
    isDelimiter c = true ↔ (c = ' ' ∨ c = '\t' ∨ c = '\n' ∨ c = '\r') ∨ c = ',' ∨ c = ']' ∨
      c = '\x7d' ∨ c = ')' := by
  simp [isDelimiter, ← Text.isBlank_iff, or_assoc]

theorem startsWith_delimiter {b : Text} (hb : AllOf isBlank b) {c : Char}
    (hc : isDelimiter c = true) (rest : Text) : startsWith isDelimiter (b ++ c :: rest) = true := by
  cases b with
  | nil => exact hc
  | cons d b =>
    have hd := (Text.allOf_cons.1 hb).1
    simp [isDelimiter, hd]

theorem stops_of_delimiter (v : Value) {rest : Text} (h : startsWith isDelimiter rest = true) :
    Stops v rest := by
  obtain ⟨c, t, rfl, hc⟩ := Text.exists_cons_of_startsWith h
  have hd : c.isDigit = false ∧ (c == tick) = false ∧ c ≠ '.' := by
    rcases isDelimiter_iff.1 hc with (rfl | rfl | rfl | rfl) | rfl | rfl | rfl | rfl <;> decide
  have hp : startsFraction (c :: t) = false := by
    unfold startsFraction
    split
    · next heq =>
      rw [List.cons.injEq] at heq
      exact absurd heq.1 hd.2.2
    · rfl
  cases v with
  | integer n raw => exact ⟨hd.1, hp⟩
  | float x raw => exact hd.1
  | string s raw => exact fun _ => hd.2.1
  | boolean b raw => trivial
  | null raw es ms => trivial
  | array items raw es => trivial
  | object fields raw ms => trivial

/-- What stands behind a closing parenthesis does not matter for the end of a literal. -/
theorem stops_append_paren (v : Value) (t u w : Text) :
    Stops v (t ++ ')' :: u) ↔ Stops v (t ++ ')' :: w) := by
  have hs (p : Char → Bool) : startsWith p (t ++ ')' :: u) = startsWith p (t ++ ')' :: w) :=
    Text.startsWith_append_cons t u w
  have hf : startsFraction (t ++ ')' :: u) = startsFraction (t ++ ')' :: w) := by
    match t with
    | [] => rfl
    | c :: t =>
      have ht : startsWith Char.isDigit (t ++ ')' :: u) = startsWith Char.isDigit (t ++ ')' :: w) :=
        Text.startsWith_append_cons t u w
      simp only [List.cons_append, startsFraction]
      split <;> simp_all
  cases v <;> simp only [Stops, hs, hf]

/-! ## Where a literal starts -/

/-- No delimiter starts an argument. -/
theorem canStart_eq_false {c : Char} (h : isDelimiter c = true) : canStart c = false := by
  rcases isDelimiter_iff.1 h with (rfl | rfl | rfl | rfl) | rfl | rfl | rfl | rfl <;> decide

theorem startsWith_blank_eq_false {t : Text} (h : startsWith canStart t = true) :
    startsWith isBlank t = false := by
  obtain ⟨c, u, rfl, hc⟩ := Text.exists_cons_of_startsWith h
  rw [Text.startsWith_cons, Bool.eq_false_iff]
  intro hb
  rw [canStart_eq_false (by simp [isDelimiter, hb])] at hc
  cases hc

theorem IsName.canStart {name : Text} (h : IsName name) : startsWith canStart name = true := by
  obtain ⟨c, u, rfl, hc⟩ := Text.exists_cons_of_startsWith h.start
  simp [Literal.canStart, hc]

theorem StringForm.canStart {s raw : Text} (h : StringForm s raw) :
    startsWith canStart raw = true := by
  obtain ⟨hq, -⟩ := h
  simp [Literal.canStart, hq]

theorem Digits.canStart {ds : Text} (h : Digits ds) : startsWith canStart ds = true := by
  cases ds with
  | nil => exact absurd rfl h.nonempty
  | cons c ds =>
    have hc := (Text.allOf_cons.1 h.digits).1
    simp [Literal.canStart, hc]

theorem canStart_sign_append (negative : Bool) {t : Text} (h : startsWith canStart t = true) :
    startsWith canStart (sign negative ++ t) = true := by
  cases negative with
  | false => exact h
  | true => rfl

/-- The first character of a literal may begin an argument. -/
theorem Form.canStart {dropsTag : Bool} {Item : Value → Prop} {v : Value}
    (h : Form dropsTag Item v) : startsWith canStart v.raw = true := by
  cases h with
  | string h => exact h.canStart
  | integer negative h hl => exact canStart_sign_append negative h.canStart
  | float negative hw hp =>
    exact canStart_sign_append negative (Text.startsWith_append_of_startsWith hw.canStart)
  | yes => decide
  | no => decide
  | null => decide
  | block h =>
    obtain ⟨c, u, hu, hc⟩ := Text.exists_cons_of_startsWith (Fence.startsWith_raw h)
    have hs : Literal.canStart c = true := by
      rw [eq_of_beq hc]
      decide
    show startsWith Literal.canStart _ = true
    rw [Value.raw, hu]
    exact hs
  | array h => cases h <;> rfl
  | object h hf => cases h <;> rfl

theorem Spelled.canStart {dropsTag : Bool} {levels : Nat} {v : Value}
    (h : Spelled dropsTag levels v) : startsWith canStart v.raw = true := by
  cases levels with
  | zero => exact absurd h id
  | succ levels => exact Form.canStart h

theorem Key.canStart {key raw : Text} (h : Key key raw) : startsWith canStart raw = true := by
  cases h with
  | name h => exact h.canStart
  | string h => exact h.canStart

theorem Member.canStart {Item : Value → Prop} {m : Text × Value} {u : Text} (h : Member Item m u) :
    startsWith canStart u = true := by
  obtain ⟨hk, -, -, -⟩ := h
  exact Text.startsWith_append_of_startsWith hk.canStart

end ToolCalls.Literal

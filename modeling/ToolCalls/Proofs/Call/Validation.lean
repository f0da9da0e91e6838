import ToolCalls.Proofs.Call.Attempts
import ToolCalls.Proofs.Call.Limits
import ToolCalls.Proofs.Literal.Validation

/-!
# Checking calls as they are made

The readers in `Call.Checked` follow those in `Call`, but read values with the checks of
`Literal.Checked` and hand the parts of the call to `Draft.check`.  They are never refused
(`Checked.read_eq`): the name of a call is not empty, since it starts with a character of a name.
`errors_only_of_long_integers` puts together what can keep reading from coming to its end: nothing
but an integer with too many digits.
-/

namespace ToolCalls.Call

open Literal (startsWith maxNesting)
open Text (AllOf isBlank skipBlank before)

/-- The call with the given parts. -/
def make (name : Text) (arguments : Fields Value) (content raw : Text) :
    Except (List Defect) Call :=
  Draft.check
    { name := .string name, arguments := arguments, content := .string content,
      raw := .string raw }

theorem make_parts {c : Call} (h : c.name ≠ []) :
    make c.name c.arguments c.content c.raw = .ok c :=
  check_toDraft h

namespace Checked

/-- Reads one argument. -/
def readArgument (dropsTag : Bool) (t : Text) : Checked Argument :=
  let t := skipBlank t
  let readValue := Literal.Checked.readNested dropsTag maxNesting
  let bare := (readValue t).map (Argument.mk none)
  match Literal.readName t with
  | .found name rest =>
    match skipBlank rest with
    | ':' :: rest => (readValue rest).map (Argument.mk (some name))
    | _ => bare
  | _ => bare

/-- Reads one or more arguments up to the closing parenthesis, which is left. -/
def readArguments (dropsTag : Bool) : Nat → Text → Checked (List Argument)
  | 0, t => .ok (.absent t)
  | rounds + 1, t =>
    Checked.andThen (readArgument dropsTag t) fun a rest =>
      match skipBlank rest with
      | [] => .ok (.absent [])
      | c :: rest =>
        if c = ')' then .ok (.found [a] (c :: rest))
        else if c = ',' then (readArguments dropsTag rounds rest).map (a :: ·)
        else if Literal.canStart c then (readArguments dropsTag rounds (c :: rest)).map (a :: ·)
        else .ok (.absent (c :: rest))

/-- Reads the arguments of a call up to the closing parenthesis, which is left. -/
def readArgumentList (dropsTag : Bool) (t : Text) : Checked (List Argument) :=
  match skipBlank t with
  | ')' :: rest => .ok (.found [] (')' :: rest))
  | t => readArguments dropsTag (t.length + 1) t

/-- Reads a call at the front of a text. -/
def read (requireLineEnd dropsTag : Bool) (t : Text) : Checked Call :=
  Checked.andThen (.ok (Literal.readName t)) fun name rest =>
    match skipBlank rest with
    | '(' :: rest =>
      Checked.andThen (readArgumentList dropsTag rest) fun arguments rest =>
        match skipBlank rest with
        | ')' :: rest =>
          if requireLineEnd && !endsLine rest then .ok (.absent rest)
          else Checked.andThen (.ok (readContent dropsTag rest)) fun content rest =>
            Checked.found (make name (file arguments) content (before t rest)) rest
        | rest => .ok (.absent rest)
    | rest => .ok (.absent rest)

/-- The call at the front of a text. -/
def parse? (requireLineEnd : Bool) (options : ReadOptions) (t : Text) :
    Except (List Defect) (Except Decimal.Oversized (Option Call)) :=
  Except.map Reading.result (read requireLineEnd options.dropTag t)

/-- Looks for a call of a known tool at the front of a text, blanks before it apart. -/
def attempt (known : List Text) (options : ReadOptions) (t : Text) :
    Except (List Defect) (Except Decimal.Oversized Attempt) :=
  let start := skipBlank t
  match Literal.readName start with
  | .found name rest =>
    if known.contains name && startsWith (· == '(') (skipBlank rest) then
      match read true options.dropTag start with
      | .ok (.found call rest) => .ok (.ok ⟨some call, rest, []⟩)
      | .ok (.absent _) => .ok (.ok ⟨none, t, [unreadableNote name]⟩)
      | .ok (.fault o) => .ok (.error o)
      | .error defects => .error defects
    else .ok (.ok ⟨none, t, []⟩)
  | _ => .ok (.ok ⟨none, t, []⟩)

/-! ## Everything passes -/

theorem readArgument_eq (dropsTag : Bool) (t : Text) :
    readArgument dropsTag t = .ok (Call.readArgument dropsTag t) := by
  simp only [readArgument, Call.readArgument, Literal.readValue, Literal.Checked.readNested_eq,
    Checked.map_ok]
  cases Literal.readName (skipBlank t) with
  | found name rest =>
    dsimp only
    generalize skipBlank rest = u
    split <;> simp only
  | absent rest => rfl
  | fault o => rfl

theorem readArguments_eq (dropsTag : Bool) (rounds : Nat) (t : Text) :
    readArguments dropsTag rounds t = .ok (Call.readArguments dropsTag rounds t) := by
  induction rounds generalizing t with
  | zero => rfl
  | succ rounds ih =>
    rw [readArguments, Call.readArguments, readArgument_eq]
    refine Checked.andThen_ok _ fun a rest _ => ?_
    cases skipBlank rest with
    | nil => rfl
    | cons c rest =>
      simp only [ih, Checked.map_ok]
      split
      · rfl
      · split
        · rfl
        · split <;> rfl

theorem readArgumentList_eq (dropsTag : Bool) (t : Text) :
    readArgumentList dropsTag t = .ok (Call.readArgumentList dropsTag t) := by
  simp only [readArgumentList, Call.readArgumentList, readArguments_eq]
  generalize skipBlank t = u
  split <;> simp only

theorem ne_nil_of_readName {t name rest : Text} (h : Literal.readName t = .found name rest) :
    name ≠ [] := by
  obtain ⟨-, -, hname, -⟩ := Literal.readName_eq_found_iff.1 h
  rintro rfl
  cases hname.start

/-- Neither the call nor a value that is made on the way is refused, in whatever way reading
ends. -/
theorem read_eq (requireLineEnd dropsTag : Bool) (t : Text) :
    read requireLineEnd dropsTag t = .ok (Call.read requireLineEnd dropsTag t) := by
  rw [read, Call.read]
  refine Checked.andThen_ok _ fun name rest hname => ?_
  have hname' : name ≠ [] := ne_nil_of_readName hname
  generalize skipBlank rest = u
  split
  · simp only [readArgumentList_eq]
    refine Checked.andThen_ok _ fun arguments rest _ => ?_
    generalize skipBlank rest = u
    split
    · show (if _ then _ else _) = Except.ok (if _ then _ else _)
      split
      · rfl
      · refine Checked.andThen_ok _ fun content rest _ => ?_
        have hmake := make_parts (c := ⟨name, file arguments, content, before t rest⟩) hname'
        exact congrArg (Checked.found · rest) hmake
    · simp only
  · simp only

theorem parse?_eq (requireLineEnd : Bool) (options : ReadOptions) (t : Text) :
    parse? requireLineEnd options t = .ok (Call.parse? requireLineEnd options t) := by
  rw [parse?, read_eq]
  rfl

theorem attempt_eq (known : List Text) (options : ReadOptions) (t : Text) :
    attempt known options t = .ok (Call.attempt known options t) := by
  simp only [attempt, Call.attempt, read_eq]
  cases Literal.readName (skipBlank t) with
  | found name rest =>
    dsimp only
    split
    · cases Call.read true options.dropTag (skipBlank t) <;> rfl
    · rfl
  | absent rest => rfl
  | fault o => rfl

end Checked

/-! ## What keeps reading from coming to its end -/

theorem attempt_oversized {known : List Text} {options : ReadOptions} {t : Text}
    {o : Decimal.Oversized} (h : attempt known options t = .error o) :
    Literal.LongBehind (Front options.dropTag) o t := by
  obtain ⟨b, ht, hb, -⟩ := Text.exists_blanks t
  rw [ht]
  exact (read_oversized (read_of_attempt_error h)).append b fun _ _ _ hu => hu.blanks hb

/-- Reading a call comes to its end, with or without a call, unless it meets an integer with too
many digits.  Nothing that it makes on the way is refused, numbers with a point may have any number
of digits, and in a text without too many digits in a row reading always comes to its end. -/
theorem errors_only_of_long_integers (requireLineEnd : Bool) (options : ReadOptions)
    (known : List Text) (t : Text) :
    (Checked.parse? requireLineEnd options t = .ok (parse? requireLineEnd options t) ∧
      Checked.attempt known options t = .ok (attempt known options t)) ∧
    (∀ o, parse? requireLineEnd options t = .error o ∨ attempt known options t = .error o →
      Literal.LongBehind (Front options.dropTag) o t) ∧
    (∀ (levels : Nat) (negative : Bool) (b whole places rest : Text), AllOf isBlank b →
      Literal.Digits whole → Literal.Digits places → startsWith Char.isDigit rest = false →
      let raw := Literal.sign negative ++ (whole ++ '.' :: places)
      Literal.readNested options.dropTag (levels + 1) (b ++ (raw ++ rest)) = .found
        (.float (Binary64.ofDecimal negative (Decimal.toNat (whole ++ places)) places.length) raw)
        rest) ∧
    ((∀ ds, AllOf Char.isDigit ds → ds <:+: t → ds.length ≤ Decimal.maxDigits) →
      (∃ call?, parse? requireLineEnd options t = .ok call?) ∧
        ∃ a, attempt known options t = .ok a) := by
  have hlong : ∀ o, parse? requireLineEnd options t = .error o ∨
      attempt known options t = .error o → Literal.LongBehind (Front options.dropTag) o t := by
    rintro o (h | h)
    · exact read_oversized (parse?_eq_error_iff.1 h)
    · exact attempt_oversized h
  refine ⟨⟨Checked.parse?_eq _ _ _, Checked.attempt_eq _ _ _⟩, hlong, ?_, fun hshort => ?_⟩
  · intro levels negative b whole places rest hb hwhole hplaces hrest raw
    exact (Literal.readNested_findsExactly options.dropTag (levels + 1) _ _ _).2
      ⟨b, hb, .float negative hwhole hplaces, hrest, rfl⟩
  · have hnone : ∀ o, ¬ (parse? requireLineEnd options t = .error o ∨
        attempt known options t = .error o) := by
      intro o ho
      obtain ⟨ds, hds, hpart, hl, -⟩ := (hlong o ho).standsIn
      have hle := hshort ds hds hpart
      omega
    constructor
    · cases hparse : parse? requireLineEnd options t with
      | ok call? => exact ⟨call?, rfl⟩
      | error o => exact absurd (Or.inl hparse) (hnone o)
    · cases hattempt : attempt known options t with
      | ok a => exact ⟨a, rfl⟩
      | error o => exact absurd (Or.inr hattempt) (hnone o)

/-- A call with values of all kinds comes to its end; one with an integer of one digit too many does
not, while as many digits before a point do no harm. -/
theorem errors_only_of_long_integers_edge :
    let t := " f(-12, k: [1.5, \x7b'a': true\x7d], ```b```) x".toList
    let ds := List.replicate 4301 '7'
    (∀ ds, AllOf Char.isDigit ds → ds <:+: t → ds.length ≤ Decimal.maxDigits) ∧
      (∃ call?, parse? false {} t = .ok call?) ∧ (∃ a, attempt ["f".toList] {} t = .ok a) ∧
      parse? false {} ('f' :: '(' :: (ds ++ [')'])) = .error ⟨4301⟩ ∧
      Literal.LongBehind (Front true) ⟨4301⟩ ('f' :: '(' :: (ds ++ [')'])) ∧
      ∃ x, Literal.readNested true 1 (ds ++ ".5)".toList) =
        .found (.float x (ds ++ ".5".toList)) [')'] := by
  intro t ds
  have hshort : ∀ ds, AllOf Char.isDigit ds → ds <:+: t → ds.length ≤ Decimal.maxDigits := by
    intro ds _ hpart
    have hle : ds.length ≤ t.length := hpart.length_le
    have hlen : t.length ≤ Decimal.maxDigits := by decide
    omega
  have hlen : ds.length = 4301 := List.length_replicate
  have hds : Literal.Digits ds := by
    refine ⟨List.ne_nil_of_length_pos (by omega), fun c hc => ?_⟩
    rw [List.eq_of_mem_replicate hc]
    rfl
  have hl : Decimal.maxDigits < ds.length := by
    rw [hlen]
    decide
  have hname : Literal.IsName "f".toList := ⟨by decide, by decide⟩
  have herror : parse? false {} ('f' :: '(' :: (ds ++ [')'])) = .error ⟨4301⟩ := by
    have hread : read false true ("f".toList ++ '(' :: (ds ++ [')'])) = .fault ⟨ds.length⟩ :=
      read_long false true hname hds hl rfl rfl
    rw [hlen] at hread
    exact parse?_eq_error_iff.2 hread
  obtain ⟨-, -, -, hends⟩ := errors_only_of_long_integers false {} ["f".toList] t
  obtain ⟨-, hlong, hfloat, -⟩ :=
    errors_only_of_long_integers false {} ["f".toList] ('f' :: '(' :: (ds ++ [')']))
  have hplaces : Literal.Digits ['5'] := ⟨by decide, by decide⟩
  have hfound := hfloat 0 false [] ds ['5'] [')'] Text.allOf_nil hds hplaces rfl
  simp only [Literal.sign, List.nil_append, List.append_assoc, List.cons_append] at hfound
  exact ⟨hshort, (hends hshort).1, (hends hshort).2, herror, hlong _ (.inl herror), _, hfound⟩

end ToolCalls.Call

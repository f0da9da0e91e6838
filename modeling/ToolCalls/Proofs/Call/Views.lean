import Mathlib.Algebra.Group.Nat.Defs
import ToolCalls.Proofs.Call.Grammar

/-!
# The two views of the arguments of a call

Arguments without a name are filed under their positions, `_0`, `_1` and so on, among those that
have a name.  As long as no argument has a name of that form, the views `positional` and `named`
take the two sorts apart again as they were written (`views_recover_arguments`): filing keeps the
sorts apart (`filter_fileFrom`), positions are read back from their names in the order in which they
were given, so that sorting changes nothing, and of arguments with the same name the last one
counts.
-/

namespace ToolCalls

namespace Text

/-- No letter is a digit of any script. -/
theorem digitValue?_of_isLetter {c : Char} (h : isLetter c = true) : digitValue? c = none := by
  have hapart : (letterRanges.all fun r =>
      zeroPoints.all fun z => r.2.blt z || (z + 10).ble r.1) = true := by decide +kernel
  have hdigit : c.isDigit = false := by
    rw [Bool.eq_false_iff]
    intro hd
    have hstart := Literal.isNameStart_eq_false_of_isDigit hd
    rw [Literal.isNameStart, h] at hstart
    cases hstart
  rw [digitValue?, hdigit, if_neg Bool.false_ne_true]
  split
  · rfl
  · next hascii =>
    rw [isLetter, if_neg hascii, inRanges_iff] at h
    obtain ⟨r, hr, hlow, hhigh⟩ := h
    rw [Option.map_eq_none_iff, List.find?_eq_none]
    intro z hz
    have hrz := List.all_eq_true.1 (List.all_eq_true.1 hapart r hr) z hz
    simp only [Bool.or_eq_true, Nat.blt_eq, Nat.ble_eq] at hrz
    simp only [decide_eq_true_eq, not_and]
    omega

theorem digitsValueFrom?_eq {ds : Text} (h : AllOf Char.isDigit ds) (n : Nat) :
    digitsValueFrom? n ds = some (Nat.ofDigitChars 10 ds n) := by
  induction ds generalizing n with
  | nil => rfl
  | cons c ds ih =>
    obtain ⟨hc, hds⟩ := allOf_cons.1 h
    rw [digitsValueFrom?, digitValue?, if_pos hc, Option.bind_some, ih hds]
    rfl

end Text

namespace Call

open Literal (Digits IsName isNameChar maxNesting Spelled)
open Text (AllOf)

/-! ## Names for positions -/

theorem digits_ofNat (n : Nat) : Digits (Decimal.ofNat n) :=
  ⟨Nat.toDigits_ne_nil, fun _ hc => Nat.isDigit_of_mem_toDigits (by decide) (by decide) hc⟩

theorem ofDigitChars_ofNat (n : Nat) : Nat.ofDigitChars 10 (Decimal.ofNat n) 0 = n :=
  Nat.ofDigitChars_toDigits (by decide) (by decide)

theorem positionDigits?_of_digits {ds : Text} (h : Digits ds) :
    positionDigits? ('_' :: ds) = some ds := by
  obtain ⟨c, ds, rfl⟩ := List.exists_cons_of_ne_nil h.nonempty
  have hall : ((c :: ds).all fun d => (Text.digitValue? d).isSome) = true := by
    rw [List.all_eq_true]
    intro d hd
    rw [Text.digitValue?, if_pos (h.digits d hd)]
    rfl
  rw [positionDigits?, if_pos hall]

theorem isPositionKey_positionKey (n : Nat) : isPositionKey (positionKey n) = true := by
  rw [isPositionKey, positionKey, positionDigits?_of_digits (digits_ofNat n)]
  rfl

/-- A position is read back from its name, if it can be written with as many digits as are
converted. -/
theorem position?_positionKey {n : Nat} (h : n < 10 ^ Decimal.maxDigits) :
    position? (positionKey n) = .ok (some n) := by
  have hds := digits_ofNat n
  have hvalue : Text.digitsValue? (Decimal.ofNat n) = some n := by
    have hfrom := Text.digitsValueFrom?_eq hds.digits 0
    rw [ofDigitChars_ofNat] at hfrom
    obtain ⟨c, ds, hcons⟩ := List.exists_cons_of_ne_nil hds.nonempty
    rw [hcons] at hfrom ⊢
    exact hfrom
  have hlength : (Decimal.ofNat n).length ≤ Decimal.maxDigits :=
    (Nat.length_toDigits_le_iff (by decide) (by decide)).2 h
  rw [positionKey, position?, positionDigits?_of_digits hds]
  exact Decimal.within_eq_ok_iff.2 ⟨hlength, hvalue⟩

theorem positionKey_injective {m n : Nat} (h : positionKey m = positionKey n) : m = n := by
  have hdigits : Decimal.ofNat m = Decimal.ofNat n := List.tail_eq_of_cons_eq h
  calc m = Nat.ofDigitChars 10 (Decimal.ofNat m) 0 := (ofDigitChars_ofNat m).symm
    _ = Nat.ofDigitChars 10 (Decimal.ofNat n) 0 := by rw [hdigits]
    _ = n := ofDigitChars_ofNat n

/-- A name that can be written before a colon stands for a position only if it is an underscore and
ASCII digits. -/
theorem exists_digits_of_isPositionKey {name : Text} (hn : IsName name)
    (h : isPositionKey name = true) : ∃ ds, Digits ds ∧ name = '_' :: ds := by
  have hdigit (c : Char) (hc : isNameChar c = true) (hv : (Text.digitValue? c).isSome = true) :
      c.isDigit = true := by
    rw [← Bool.not_eq_false]
    intro hd
    simp only [isNameChar, hd, Bool.or_false, Bool.or_eq_true, beq_iff_eq] at hc
    rcases hc with hc | rfl
    · rw [Text.digitValue?_of_isLetter hc] at hv
      cases hv
    · exact absurd hv (by decide)
  unfold isPositionKey positionDigits? at h
  split at h
  · next c t =>
    split at h
    · next hall =>
      refine ⟨c :: t, ⟨List.cons_ne_nil c t, fun d hd => ?_⟩, rfl⟩
      exact hdigit d (hn.chars d (List.mem_cons_of_mem '_' hd)) (List.all_eq_true.1 hall d hd)
    · cases h
  · cases h

/-! ## Filing -/

/-- The values of the arguments without a name. -/
def unnamed (as : List Argument) : List Value := (as.filter (·.name?.isNone)).map (·.value)

/-- The arguments with a name, as entries. -/
def namedEntries (as : List Argument) : List (Text × Value) :=
  as.filterMap fun a => a.name?.map (·, a.value)

/-- Values under their positions, which are counted from `next` on. -/
def positionEntries (next : Nat) (vs : List Value) : List (Text × Value) :=
  (vs.zipIdx next).map fun e => (positionKey e.2, e.1)

theorem positionEntries_cons (next : Nat) (v : Value) (vs : List Value) :
    positionEntries next (v :: vs) = (positionKey next, v) :: positionEntries (next + 1) vs := rfl

/-- No argument has a name that stands for a position. -/
def Unambiguous (as : List Argument) : Prop :=
  ∀ a ∈ as, ∀ name, a.name? = some name → isPositionKey name = false

theorem filter_fileFrom {as : List Argument} (h : Unambiguous as) (next : Nat)
    (fields : Fields Value) :
    (fileFrom next fields as).filter (fun e => isPositionKey e.1) =
        Fields.merge (fields.filter fun e => isPositionKey e.1)
          (positionEntries next (unnamed as)) ∧
      (fileFrom next fields as).filter (fun e => !isPositionKey e.1) =
        Fields.merge (fields.filter fun e => !isPositionKey e.1) (namedEntries as) := by
  -- the position is counted on only past arguments without a name, so it is not the index in `as`
  induction as generalizing next fields with
  | nil => exact ⟨rfl, rfl⟩
  | cons a as ih =>
    obtain ⟨name?, v⟩ := a
    have has : Unambiguous as := fun a ha => h a (List.mem_cons_of_mem _ ha)
    cases name? with
    | some name =>
      have hname : isPositionKey name = false := h _ List.mem_cons_self name rfl
      obtain ⟨hposition, hnamed⟩ := ih has next (fields.put name v)
      rw [Fields.filter_put isPositionKey, if_neg (by simp [hname])] at hposition
      rw [Fields.filter_put (fun k => !isPositionKey k), if_pos (by simp [hname])] at hnamed
      exact ⟨hposition, hnamed⟩
    | none =>
      have hkey := isPositionKey_positionKey next
      obtain ⟨hposition, hnamed⟩ := ih has (next + 1) (fields.put (positionKey next) v)
      rw [Fields.filter_put isPositionKey, if_pos hkey] at hposition
      rw [Fields.filter_put (fun k => !isPositionKey k), if_neg (by simp [hkey])] at hnamed
      exact ⟨hposition, hnamed⟩

theorem pairwise_zipIdx (next : Nat) (vs : List Value) :
    (vs.zipIdx next).Pairwise fun a b => a.2 < b.2 := by
  have hrange : ((vs.zipIdx next).map (·.2)).Pairwise (· < ·) := by
    rw [List.zipIdx_map_snd]
    exact List.pairwise_lt_range' 1
  rwa [List.pairwise_map] at hrange

theorem nodup_keys_positionEntries (next : Nat) (vs : List Value) :
    ((positionEntries next vs).map (·.1)).Nodup := by
  rw [positionEntries, List.map_map, List.nodup_iff_pairwise_ne, List.pairwise_map]
  refine (pairwise_zipIdx next vs).imp fun hlt heq => ?_
  exact absurd (positionKey_injective heq) (Nat.ne_of_lt hlt)

/-- The arguments without a name are filed in the order in which they are written. -/
theorem filter_file_position {as : List Argument} (h : Unambiguous as) :
    (file as).filter (fun e => isPositionKey e.1) = positionEntries 0 (unnamed as) := by
  rw [file, (filter_fileFrom h 0 []).1]
  exact Fields.ofList_of_nodup (nodup_keys_positionEntries 0 (unnamed as))

theorem filter_file_named {as : List Argument} (h : Unambiguous as) :
    (file as).filter (fun e => !isPositionKey e.1) = Fields.ofList (namedEntries as) :=
  (filter_fileFrom h 0 []).2

/-! ## The views -/

/-- Only the fields under positions matter for the positional view. -/
theorem withPosition_filter (fields : Fields Value) :
    withPosition (fields.filter fun e => isPositionKey e.1) = withPosition fields := by
  induction fields with
  | nil => rfl
  | cons e fields ih =>
    obtain ⟨key, v⟩ := e
    cases hkey : positionDigits? key with
    | none =>
      have hposition : isPositionKey key = false := by rw [isPositionKey, hkey]; rfl
      rw [List.filter_cons_of_neg (by simp [hposition]), ih, withPosition, position?, hkey]
    | some digits =>
      have hposition : isPositionKey key = true := by rw [isPositionKey, hkey]; rfl
      rw [List.filter_cons_of_pos (by simpa using hposition), withPosition, withPosition, ih]

theorem withPosition_positionEntries {next : Nat} {vs : List Value}
    (h : next + vs.length ≤ 10 ^ Decimal.maxDigits) :
    withPosition (positionEntries next vs) = .ok ((vs.zipIdx next).map Prod.swap) := by
  induction vs generalizing next with
  | nil => rfl
  | cons v vs ih =>
    rw [List.length_cons] at h
    have hrest : withPosition (positionEntries (next + 1) vs) =
        .ok ((vs.zipIdx (next + 1)).map Prod.swap) := ih (by omega)
    rw [positionEntries_cons, withPosition, position?_positionKey (by omega)]
    simp only [hrest]
    rfl

theorem positional_of_filter {c : Call} {vs : List Value}
    (hc : c.arguments.filter (fun e => isPositionKey e.1) = positionEntries 0 vs)
    (h : vs.length ≤ 10 ^ Decimal.maxDigits) : c.positional = .ok vs := by
  have hpositions : withPosition c.arguments = .ok ((vs.zipIdx 0).map Prod.swap) := by
    rw [← withPosition_filter, hc]
    exact withPosition_positionEntries (by omega)
  have hsorted : ((vs.zipIdx 0).map Prod.swap).Pairwise fun a b => decide (a.1 ≤ b.1) = true := by
    rw [List.pairwise_map]
    exact (pairwise_zipIdx 0 vs).imp fun hlt => by simpa using Nat.le_of_lt hlt
  rw [positional, hpositions, Except.map, List.mergeSort_of_pairwise hsorted, List.map_map]
  exact congrArg Except.ok (List.zipIdx_map_fst 0 vs)

theorem map_fst_namedEntries (as : List Argument) :
    (namedEntries as).map (·.1) = as.filterMap (·.name?) := by
  rw [namedEntries, List.map_filterMap]
  congr 1
  funext a
  cases a.name? <;> rfl

/-- Looking a name up from the end finds the last argument with that name. -/
theorem lookup_reverse_namedEntries (as : List Argument) (name : Text) :
    (namedEntries as).reverse.lookup name =
      (as.filter (·.name? = some name)).getLast?.map (·.value) := by
  induction as with
  | nil => rfl
  | cons a as ih =>
    obtain ⟨name?, v⟩ := a
    cases name? with
    | none =>
      rw [List.filter_cons_of_neg (by simp), ← ih]
      rfl
    | some key =>
      have hcons : namedEntries (⟨some key, v⟩ :: as) = (key, v) :: namedEntries as := rfl
      rw [hcons, List.reverse_cons, List.lookup_append, ih, List.lookup_cons]
      by_cases hkey : name = key
      · rw [List.filter_cons_of_pos (by simp [hkey]), List.getLast?_cons, beq_iff_eq.2 hkey]
        cases (as.filter (·.name? = some name)).getLast? <;> rfl
      · rw [List.filter_cons_of_neg (by simpa using Ne.symm hkey), beq_false_of_ne hkey]
        simp

theorem get?_positionEntries (next : Nat) (vs : List Value) (n : Nat) :
    Fields.get? (positionEntries next vs) (positionKey (next + n)) = vs[n]? := by
  induction vs generalizing next n with
  | nil => rfl
  | cons v vs ih =>
    rw [positionEntries_cons, Fields.get?, List.lookup_cons]
    cases n with
    | zero => simp
    | succ n =>
      have hne : positionKey (next + (n + 1)) ≠ positionKey next :=
        fun h => absurd (positionKey_injective h) (by omega)
      rw [beq_false_of_ne hne, List.getElem?_cons_succ, ← ih (next + 1) n]
      have hnext : next + (n + 1) = next + 1 + n := by omega
      rw [hnext]
      rfl

/-! ## Written arguments -/

/-- The views of a call give its arguments as they were written. -/
structure Recovers (c : Call) (as : List Argument) : Prop where
  /-- The values without a name, in the order in which they were written. -/
  positional : c.positional = .ok (unnamed as)
  /-- The names, in the order in which they first came up. -/
  names : c.named.keys = (as.filterMap (·.name?)).eraseDups
  /-- Of the arguments with a name the last one counts. -/
  named : ∀ name, c.named.get? name = (as.filter (·.name? = some name)).getLast?.map (·.value)
  /-- A value without a name is filed under its position, and nothing else is under a position. -/
  position : ∀ n, c.arguments.get? (positionKey n) = (unnamed as)[n]?
  /-- A named value is filed under its name. -/
  name : ∀ name ∈ c.named.keys, c.arguments.get? name = c.named.get? name
  /-- Every argument is in just one of the views. -/
  partition : ∀ key ∈ c.arguments.keys,
    (∃ n < (unnamed as).length, key = positionKey n) ↔ key ∉ c.named.keys
  size : c.arguments.length = (unnamed as).length + c.named.length

theorem recovers_of_file {c : Call} {as : List Argument} (hc : c.arguments = file as)
    (has : Unambiguous as) (hlength : (unnamed as).length ≤ 10 ^ Decimal.maxDigits) :
    c.Recovers as := by
  have hposition : c.arguments.filter (fun e => isPositionKey e.1) =
      positionEntries 0 (unnamed as) := by rw [hc, filter_file_position has]
  have hnamed : c.named = Fields.ofList (namedEntries as) := by
    rw [named, hc, filter_file_named has]
  have hget (key : Text) (hkey : isPositionKey key = true) :
      c.arguments.get? key = Fields.get? (positionEntries 0 (unnamed as)) key := by
    rw [← hposition, Fields.get?_filter, if_pos hkey]
  have hget' (key : Text) (hkey : isPositionKey key = false) :
      c.named.get? key = c.arguments.get? key := by
    rw [named, Fields.get?_filter (fun k => !isPositionKey k), if_pos (by simp [hkey])]
  have hposition' (n : Nat) : c.arguments.get? (positionKey n) = (unnamed as)[n]? := by
    have hentry := get?_positionEntries 0 (unnamed as) n
    rw [Nat.zero_add] at hentry
    rw [hget _ (isPositionKey_positionKey n), hentry]
  have hname (key : Text) (hkey : key ∈ c.named.keys) : isPositionKey key = false := by
    obtain ⟨e, he, rfl⟩ := List.mem_map.1 hkey
    simpa using (List.mem_filter.1 he).2
  refine ⟨positional_of_filter hposition hlength, ?_, ?_, hposition', ?_, ?_, ?_⟩
  · rw [hnamed, Fields.keys_ofList, map_fst_namedEntries]
  · intro name
    rw [hnamed, Fields.get?_ofList, lookup_reverse_namedEntries]
  · exact fun name hmem => (hget' name (hname name hmem)).symm
  · intro key hmem
    constructor
    · rintro ⟨n, -, rfl⟩ hmem'
      have hkey := hname _ hmem'
      rw [isPositionKey_positionKey] at hkey
      cases hkey
    · intro hnot
      have hkey : isPositionKey key = true := by
        rw [← Bool.not_eq_false]
        intro hkey
        rw [← Fields.isSome_get?_iff, hget' key hkey, Fields.isSome_get?_iff] at hnot
        exact hnot hmem
      obtain ⟨e, he, rfl⟩ := List.mem_map.1 hmem
      have hentry : e ∈ positionEntries 0 (unnamed as) := by
        rw [← hposition]
        exact List.mem_filter.2 ⟨he, hkey⟩
      obtain ⟨x, hx, rfl⟩ := List.mem_map.1 hentry
      exact ⟨x.2, List.snd_lt_of_mem_zipIdx hx, rfl⟩
  · have hcount := List.length_eq_countP_add_countP (fun e => isPositionKey e.1) (l := c.arguments)
    rw [List.countP_eq_length_filter, hposition] at hcount
    simpa [positionEntries, named, List.countP_eq_length_filter] using hcount

/-- The names of written arguments are names. -/
theorem Head.isName {Item : Value → Prop} {name raw : Text} {as : List Argument}
    (h : Head Item name as raw) {a : Argument} (ha : a ∈ as) {key : Text}
    (hkey : a.name? = some key) : IsName key := by
  have hform {a : Argument} {u : Text} (h : ArgumentForm Item a u) (hkey : a.name? = some key) :
      IsName key := by
    cases h with
    | named hn hb hb' hv =>
      cases hkey
      exact hn
    | bare hv => cases hkey
  obtain ⟨hb, hn, hb', hu⟩ := h
  cases hu with
  | empty hb => cases ha
  | row hb h =>
    induction h with
    | last h hb hs =>
      obtain rfl := List.mem_singleton.1 ha
      exact hform h hkey
    | more h hsep hs hw ih =>
      rcases List.mem_cons.1 ha with rfl | ha
      · exact hform h hkey
      · exact ih ha

theorem Head.length_le {Item : Value → Prop} {name raw : Text} {as : List Argument}
    (h : Head Item name as raw)
    (hi : ∀ v, Item v → Literal.startsWith Literal.canStart v.raw = true) :
    as.length ≤ raw.length := by
  obtain ⟨hb, hn, hb', hu⟩ := h
  cases hu with
  | empty hb => simp
  | row hb h =>
    have := h.length_le hi
    simp only [List.length_append, List.length_cons]
    omega

/-- A call that is found has the arguments that are written at the front of the text. -/
theorem arguments_of_read {requireLineEnd dropsTag : Bool} {name raw rest rest' : Text}
    {as : List Argument} {c : Call} (hhead : Head (Spelled dropsTag maxNesting) name as raw)
    (h : read requireLineEnd dropsTag (raw ++ rest) = .found c rest') :
    c.arguments = file as := by
  rw [read_head hhead] at h
  split at h
  · cases h
  · obtain ⟨content, rest'', -, h⟩ := Reading.andThen_eq_found_iff.1 h
    cases h
    rfl

/-- The views of a call that is found give back the arguments that are written at the front of the
text, unless one of them has an underscore and digits for a name.  The bound on the length of the
text is there because a position of too many digits would not be read back. -/
theorem views_recover_arguments {requireLineEnd : Bool} {options : ReadOptions} {t : Text}
    {c : Call} (ht : t.length ≤ 10 ^ Decimal.maxDigits)
    (h : parse? requireLineEnd options t = .ok (some c)) :
    (∃ name as raw rest, Head (Spelled options.dropTag maxNesting) name as raw ∧
      t = raw ++ rest) ∧
    ∀ name as raw rest, Head (Spelled options.dropTag maxNesting) name as raw → t = raw ++ rest →
      (∀ a ∈ as, ∀ ds, Digits ds → a.name? ≠ some ('_' :: ds)) → c.Recovers as := by
  obtain ⟨rest', hread⟩ := parse?_eq_some_iff.1 h
  refine ⟨exists_head_of_read hread, ?_⟩
  rintro name as raw rest hhead rfl hnames
  refine recovers_of_file (arguments_of_read hhead hread) (fun a ha key hkey => ?_) ?_
  · rw [← Bool.not_eq_true]
    intro hposition
    obtain ⟨ds, hds, rfl⟩ := exists_digits_of_isPositionKey (hhead.isName ha hkey) hposition
    exact hnames a ha ds hds hkey
  · have hlength := hhead.length_le fun v hv => hv.canStart
    have hfilter := List.length_filter_le (·.name?.isNone) as
    rw [List.length_append] at ht
    rw [unnamed, List.length_map]
    omega

/-- Twelve arguments without a name, a name that comes up twice, and names that are an underscore
alone and a word for a value. -/
theorem views_recover_arguments_past_ten :
    let z := "0, a: 'x' 1, 2, null, 4, _: 5, 5, 6, 7, 8, 9, 10, null: 11, a: 12, 11)".toList
    let t := 'f' :: '(' :: z
    t.length ≤ 10 ^ Decimal.maxDigits ∧
      ∃ (c : Call) (as : List Argument), parse? true {} t = .ok (some c) ∧
        Head (Spelled true maxNesting) ['f'] as t ∧
        (∀ a ∈ as, ∀ ds, Digits ds → a.name? ≠ some ('_' :: ds)) ∧ c.Recovers as ∧
        (unnamed as).map Value.raw =
          ["0", "1", "2", "null", "4", "5", "6", "7", "8", "9", "10", "11"].map String.toList ∧
        c.named.keys = ["a".toList, "_".toList, "null".toList] ∧
        (c.named.get? "a".toList).map Value.raw = some "12".toList := by
  intro z t
  have ht : t.length ≤ 10 ^ Decimal.maxDigits := by
    have hlength : t.length ≤ Decimal.maxDigits := by decide
    exact Nat.le_trans hlength (Nat.le_of_lt (Nat.lt_pow_self (by decide)))
  have hview : (parse? true {} t).toOption.map (Option.map fun c => (c.named.keys,
      (c.named.get? "a".toList).map Value.raw)) =
      some (some (["a".toList, "_".toList, "null".toList], some "12".toList)) := by decide +kernel
  obtain ⟨c, hc, hnamed⟩ := exists_call_of_view hview
  have hshape : (readArgumentList true z).rest? = some [')'] ∧
      (readArgumentList true z).result.toOption.map (Option.map fun as =>
        (as.filterMap (·.name?), (as.filter (·.name?.isNone)).map fun a => a.value.raw)) =
      some (some (["a".toList, "_".toList, "null".toList, "a".toList],
        ["0", "1", "2", "null", "4", "5", "6", "7", "8", "9", "10", "11"].map String.toList)) := by
    decide +kernel
  match hlist : readArgumentList true z with
  | .absent rest => simp [hlist, Reading.result, Except.toOption] at hshape
  | .fault o => simp [hlist, Reading.rest?] at hshape
  | .found as rest =>
    rw [hlist] at hshape
    simp only [Reading.rest?, Reading.result, Except.toOption, Option.map_some, Option.some.injEq,
      Prod.mk.injEq] at hshape
    obtain ⟨rfl, hnames, hraws⟩ := hshape
    obtain ⟨u, r, hu, hr, hz⟩ := readArgumentList_eq_found_iff.1 hlist
    cases hr
    have hhead : Head (Spelled true maxNesting) ['f'] as t := by
      have hname : IsName ['f'] := ⟨by decide, by decide⟩
      have hraw : t = [] ++ (['f'] ++ ([] ++ '(' :: (u ++ [')']))) := by rw [← hz]; rfl
      rw [hraw]
      exact .mk Text.allOf_nil hname Text.allOf_nil hu
    have hdigits : ∀ a ∈ as, ∀ ds, Digits ds → a.name? ≠ some ('_' :: ds) := by
      intro a ha ds hds hname
      have hmem : '_' :: ds ∈ as.filterMap (·.name?) := List.mem_filterMap.2 ⟨a, ha, hname⟩
      rw [hnames] at hmem
      exact hds.nonempty (by simpa using hmem)
    obtain ⟨-, hrecovers⟩ := views_recover_arguments ht hc
    refine ⟨ht, c, as, hc, hhead, hdigits, hrecovers _ as t [] hhead (by simp) hdigits, ?_,
      (Prod.mk.inj hnamed).1, (Prod.mk.inj hnamed).2⟩
    rw [unnamed, List.map_map]
    exact hraws

end Call

end ToolCalls

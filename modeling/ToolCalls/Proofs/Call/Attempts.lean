import ToolCalls.Call.Attempt
import ToolCalls.Proofs.Call.Grammar

/-!
# Looking for calls and reading them

An attempt looks ahead for a known name and an opening parenthesis, and reads a call only where it
has seen both.  That is no different from reading a call first and looking at its name afterwards
(`attempt_call?_iff`), as both begin behind the blanks of the text and see the same name there.

Blanks before a call change nothing about it but its source text (`read_eq_map_skipBlank`).
-/

namespace ToolCalls.Call

open Literal (startsWith)
open Text (isBlank skipBlank)

variable {requireLineEnd dropsTag : Bool} {t rest : Text} {c : Call}

/-! ## Blanks before a call -/

theorem readName_skipBlank (t : Text) : Literal.readName (skipBlank t) = Literal.readName t := by
  simp only [Literal.readName, Text.skipBlank_skipBlank]

/-- A call that is found under the rule about the end of the line is found without it. -/
theorem read_false_of_read (h : read requireLineEnd dropsTag t = .found c rest) :
    read false dropsTag t = .found c rest := by
  obtain ⟨name, as, raw, rest', hhead, rfl⟩ := exists_head_of_read h
  rw [read_head hhead] at h ⊢
  rw [Bool.false_and, if_neg Bool.false_ne_true]
  split at h
  · cases h
  · exact h

theorem raw_append_rest (h : read requireLineEnd dropsTag t = .found c rest) :
    c.raw ++ rest = t :=
  raw_append_of_read (read_false_of_read h)

/-- All of a call but its source text is read from what stands behind the blanks. -/
theorem map_read_skipBlank (requireLineEnd dropsTag : Bool) (t : Text) :
    (read requireLineEnd dropsTag (skipBlank t)).map ({ · with raw := [] }) =
      (read requireLineEnd dropsTag t).map ({ · with raw := [] }) := by
  rw [read, read, readName_skipBlank, Reading.map_andThen, Reading.map_andThen]
  congr 1
  funext name rest
  split
  · rw [Reading.map_andThen, Reading.map_andThen]
    congr 1
    funext arguments rest
    split
    · split
      · rfl
      · rw [Reading.map_andThen, Reading.map_andThen]
        rfl
    · rfl
  · rfl

/-- Blanks before a call belong to its source text, and that is all they change. -/
theorem read_eq_map_skipBlank (requireLineEnd dropsTag : Bool) (t : Text) :
    read requireLineEnd dropsTag t =
      (read requireLineEnd dropsTag (skipBlank t)).map fun c =>
        { c with raw := t.takeWhile isBlank ++ c.raw } := by
  have hmap := map_read_skipBlank requireLineEnd dropsTag t
  cases hskip : read requireLineEnd dropsTag (skipBlank t) with
  | absent rest =>
    rw [hskip] at hmap
    cases hread : read requireLineEnd dropsTag t <;> simp_all
  | fault o =>
    rw [hskip] at hmap
    cases hread : read requireLineEnd dropsTag t <;> simp_all
  | found c rest =>
    rw [hskip] at hmap
    obtain ⟨c', hread, hc⟩ := Reading.map_eq_found_iff.1 hmap.symm
    have hraw : c'.raw = t.takeWhile isBlank ++ c.raw := by
      have hsplit : c'.raw ++ rest = t.takeWhile isBlank ++ c.raw ++ rest := by
        rw [List.append_assoc, raw_append_rest hskip, raw_append_rest hread]
        exact List.takeWhile_append_dropWhile.symm
      exact List.append_cancel_right hsplit
    rw [hread, Reading.map_found]
    congr 1
    cases c
    cases c'
    simp_all

/-! ## Looking ahead -/

/-- Where a call is found, so are its name and the opening parenthesis behind it. -/
theorem exists_name_of_read (h : read requireLineEnd dropsTag t = .found c rest) :
    ∃ rest', Literal.readName t = .found c.name rest' ∧
      startsWith (· == '(') (skipBlank rest') = true := by
  rw [read, Reading.andThen_eq_found_iff] at h
  obtain ⟨name, rest₁, hname, h⟩ := h
  split at h
  · next rest₂ hopen =>
    obtain ⟨arguments, rest₃, -, h⟩ := Reading.andThen_eq_found_iff.1 h
    split at h
    · split at h
      · cases h
      · obtain ⟨content, rest₄, -, h⟩ := Reading.andThen_eq_found_iff.1 h
        cases h
        refine ⟨rest₁, hname, ?_⟩
        rw [hopen]
        rfl
    · cases h
  · cases h

/-- An attempt finds the call at the front of the text if its tool is known, and otherwise leaves
the text as it is. -/
theorem attempt_cases {known : List Text} {options : ReadOptions} {a : Attempt}
    (h : attempt known options t = .ok a) :
    (∃ c rest, read true options.dropTag (skipBlank t) = .found c rest ∧ c.name ∈ known ∧
      a.call? = some c ∧ a.rest = rest) ∨
    ((∀ c rest, read true options.dropTag (skipBlank t) = .found c rest → c.name ∉ known) ∧
      a.call? = none ∧ a.rest = t) := by
  unfold attempt at h
  dsimp only at h
  split at h
  · next name rest hname =>
    split at h
    · next hahead =>
      rw [Bool.and_eq_true, List.contains_iff_mem] at hahead
      split at h
      · next c rest' hread =>
        cases h
        obtain ⟨rest'', hname', -⟩ := exists_name_of_read hread
        rw [hname] at hname'
        cases hname'
        exact Or.inl ⟨c, rest', hread, hahead.1, rfl, rfl⟩
      · next rest' hread =>
        cases h
        exact Or.inr ⟨fun c r hfound => by simp [hread] at hfound, rfl, rfl⟩
      · cases h
    · next hahead =>
      cases h
      refine Or.inr ⟨fun c r hfound hknown => hahead ?_, rfl, rfl⟩
      obtain ⟨rest'', hname', hopen⟩ := exists_name_of_read hfound
      rw [hname] at hname'
      cases hname'
      rw [Bool.and_eq_true, List.contains_iff_mem]
      exact ⟨hknown, hopen⟩
  · next hname =>
    cases h
    refine Or.inr ⟨fun c r hfound => ?_, rfl, rfl⟩
    obtain ⟨rest'', hname', -⟩ := exists_name_of_read hfound
    exact absurd hname' (hname c.name rest'')

/-- An attempt ends with a fault only if reading does. -/
theorem read_of_attempt_error {known : List Text} {options : ReadOptions} {o : Decimal.Oversized}
    (h : attempt known options t = .error o) :
    read true options.dropTag (skipBlank t) = .fault o := by
  unfold attempt at h
  dsimp only at h
  split at h
  · split at h
    · split at h
      · cases h
      · cases h
      · next o' hread =>
        cases h
        exact hread
    · cases h
  · cases h

theorem attempt_call?_iff {known : List Text} {options : ReadOptions} {a : Attempt}
    (h : attempt known options t = .ok a) :
    a.call? = some c ↔ parse? true options (skipBlank t) = .ok (some c) ∧ c.name ∈ known := by
  rw [parse?_eq_some_iff]
  obtain ⟨c', rest, hread, hknown, hcall, -⟩ | ⟨hunknown, hcall, -⟩ := attempt_cases h
  · rw [hcall, Option.some.injEq]
    constructor
    · rintro rfl
      exact ⟨⟨rest, hread⟩, hknown⟩
    · rintro ⟨⟨rest', hread'⟩, -⟩
      rw [hread] at hread'
      cases hread'
      rfl
  · rw [hcall]
    refine ⟨nofun, ?_⟩
    rintro ⟨⟨rest, hread⟩, hknown⟩
    exact absurd hknown (hunknown c rest hread)

/-- An attempt that does not end with a fault gives the call that is read behind the blanks of the
text under the rule about the end of the line, if its tool is known, and cuts the text into the
blanks, the call and the rest; otherwise it gives no call and the text as it was.  It ends with a
fault only if reading does.  A call that is read from the whole text has the blanks in its source
text, and is the same otherwise. -/
theorem attempt_filters_parse? (known : List Text) (options : ReadOptions) (t : Text) :
    (∀ a, attempt known options t = .ok a →
      (∀ c, a.call? = some c ↔
        parse? true options (skipBlank t) = .ok (some c) ∧ c.name ∈ known) ∧
      (∀ c, a.call? = some c → t = t.takeWhile isBlank ++ (c.raw ++ a.rest)) ∧
      (a.call? = none → a.rest = t)) ∧
    ((∀ o, parse? true options (skipBlank t) ≠ .error o) →
      ∃ a, attempt known options t = .ok a) ∧
    ∀ requireLineEnd, parse? requireLineEnd options t =
      (parse? requireLineEnd options (skipBlank t)).map (Option.map fun c =>
        { c with raw := t.takeWhile isBlank ++ c.raw }) := by
  refine ⟨fun a h => ⟨fun c => attempt_call?_iff h, fun c hc => ?_, fun hnone => ?_⟩,
    fun hf => ?_, fun requireLineEnd => ?_⟩
  · obtain ⟨c', rest, hread, -, hcall, hrest⟩ | ⟨-, hcall, -⟩ := attempt_cases h
    · rw [hcall, Option.some.injEq] at hc
      subst hc
      rw [hrest, raw_append_rest hread]
      exact List.takeWhile_append_dropWhile.symm
    · rw [hcall] at hc
      cases hc
  · obtain ⟨c', rest, -, -, hcall, -⟩ | ⟨-, -, hrest⟩ := attempt_cases h
    · rw [hcall] at hnone
      cases hnone
    · exact hrest
  · cases h : attempt known options t with
    | ok a => exact ⟨a, rfl⟩
    | error o => exact absurd (parse?_eq_error_iff.2 (read_of_attempt_error h)) (hf o)
  · rw [parse?, parse?, read_eq_map_skipBlank]
    cases read requireLineEnd options.dropTag (skipBlank t) <;> rfl

/-- A call behind blanks with a line end among them, once with its tool known and once not. -/
theorem attempt_filters_parse?_blanks :
    let t := " \n\tf (k: 1)\nrest".toList
    ∃ a c, attempt ["f".toList] {} t = .ok a ∧ a.call? = some c ∧ a.rest = "\nrest".toList ∧
      parse? true {} "f (k: 1)\nrest".toList = .ok (some c) ∧
      (∃ b, attempt ["g".toList] {} t = .ok b ∧ b.call? = none ∧ b.rest = t) ∧
      parse? true {} t = .ok (some { c with raw := " \n\t".toList ++ c.raw }) := by
  intro t
  have hview : (parse? true {} "f (k: 1)\nrest".toList).toOption.map
      (Option.map fun c => (c.name, c.raw)) =
        some (some ("f".toList, "f (k: 1)".toList)) := by decide +kernel
  obtain ⟨c, hparse, hc⟩ := exists_call_of_view hview
  obtain ⟨hname, hraw⟩ := Prod.mk.inj hc
  have hskip : skipBlank t = "f (k: 1)\nrest".toList := rfl
  have hf (o : Decimal.Oversized) : parse? true {} (skipBlank t) ≠ .error o := by
    rw [hskip, hparse]
    nofun
  obtain ⟨hknown, htotal, hblanks⟩ := attempt_filters_parse? ["f".toList] {} t
  obtain ⟨hunknown, htotal', -⟩ := attempt_filters_parse? ["g".toList] {} t
  obtain ⟨a, ha⟩ := htotal hf
  obtain ⟨b, hb⟩ := htotal' hf
  have hcall : a.call? = some c := ((hknown a ha).1 c).2 ⟨hparse, by simp [hname]⟩
  refine ⟨a, c, ha, hcall, ?_, hparse, ⟨b, hb, ?_⟩, ?_⟩
  · have hsplit := (hknown a ha).2.1 c hcall
    rw [hraw, ← List.append_assoc] at hsplit
    have hwhole : " \n\tf (k: 1)".toList ++ "\nrest".toList = " \n\tf (k: 1)".toList ++ a.rest :=
      hsplit
    exact (List.append_cancel_left hwhole).symm
  · have hnone : b.call? = none := by
      cases hcase : b.call? with
      | none => rfl
      | some c' =>
        obtain ⟨hparse', hmem⟩ := ((hunknown b hb).1 c').1 hcase
        rw [hskip, hparse] at hparse'
        cases hparse'
        rw [hname] at hmem
        exact absurd hmem (by decide)
    exact ⟨hnone, (hunknown b hb).2.2 hnone⟩
  · rw [hblanks true, hskip, hparse]
    rfl

end ToolCalls.Call

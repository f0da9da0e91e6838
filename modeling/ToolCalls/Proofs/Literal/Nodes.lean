import ToolCalls.Proofs.Literal.Limits

/-!
# The values inside a value

A value that was read is a tree: its nodes are the value itself, its elements and members, theirs,
and so on (`Value.Node`).  Every node keeps the literal it was written with, and that literal alone
is enough to get the node back: nothing of the text around it matters, nor how deep the node was
nested (`Literal.nodes_stand_alone`).

`Literal.StandsAt` says that a value is what is read at a position of a text.  It passes from a
value to the values inside, since a literal inside another one stands before a delimiter
(`Form.exists_place`).
-/

namespace ToolCalls

namespace Value

/-- The values that a value was made of. -/
def children (v : Value) : List Value := v.elements ++ v.members.map (·.2)

/-- A value, one of its children, one of theirs, and so on. -/
inductive Node (v : Value) : Value → Prop where
  | root : Node v v
  | child {p m : Value} (h : Node v p) (hm : m ∈ p.children) : Node v m

/-- What a container denotes is made of what its children denote, in their order, and nothing else
has children. -/
structure Unwraps (v : Value) : Prop where
  array : v.kind = .array → v.datum = .list (v.elements.map datum)
  object : v.kind = .object → v.datum = .object (v.members.mapValues datum) ∧ v.members.keys.Nodup
  elements : v.kind ≠ .array → v.elements = []
  members : v.kind ≠ .object → v.members = []

end Value

namespace Literal

open Text (AllOf isBlank skipBlank)

variable {dropsTag : Bool} {v m : Value}

/-! ## Where a child stands -/

section Rows

variable {α : Type} {Part : α → Text → Prop}

/-- Behind a part of a row stand blanks and the end of the row, or a delimiter. -/
theorem Listed.exists_part {as : List α} {u : Text} (h : Listed Part as u) {a : α} (ha : a ∈ as) :
    ∃ x p y, Part a p ∧ u = x ++ (p ++ y) ∧ (y = [] ∨ startsWith isDelimiter y = true) := by
  induction h with
  | @last a' p b h hb =>
    obtain rfl : a = a' := by simpa using ha
    refine ⟨[], p, b, h, rfl, ?_⟩
    cases b with
    | nil => exact Or.inl rfl
    | cons c b =>
      have hc := (Text.allOf_cons.1 hb).1
      exact Or.inr (by simp [isDelimiter, hc])
  | @more a' p b b' as w h hb hb' hw ih =>
    rcases List.mem_cons.1 ha with rfl | ha
    · exact ⟨[], p, _, h, rfl, Or.inr (startsWith_delimiter hb rfl _)⟩
    · obtain ⟨x, q, y, hq, rfl, hy⟩ := ih ha
      exact ⟨p ++ (b ++ ',' :: (b' ++ x)), q, y, hq, by simp, hy⟩

theorem Bracketed.exists_part {opening closing : Char} (hclose : isDelimiter closing = true)
    {as : List α} {raw : Text} (h : Bracketed opening closing Part as raw) {a : α} (ha : a ∈ as) :
    ∃ x p y, Part a p ∧ raw = x ++ (p ++ y) ∧ startsWith isDelimiter y = true := by
  cases h with
  | empty hb => cases ha
  | @row b u as hb h =>
    obtain ⟨x, p, y, hp, rfl, hy⟩ := h.exists_part ha
    refine ⟨opening :: (b ++ x), p, y ++ [closing], hp, by simp, ?_⟩
    rcases hy with rfl | hy
    · exact hclose
    · exact Text.startsWith_append_of_startsWith hy

end Rows

/-- The literal of a child stands in the literal of its parent, before a delimiter. -/
theorem Form.exists_place {Item : Value → Prop} (h : Form dropsTag Item v) (hm : m ∈ v.children) :
    Item m ∧ ∃ x y, v.raw = x ++ (m.raw ++ y) ∧ startsWith isDelimiter y = true := by
  cases h with
  | string h => cases hm
  | integer negative h hl => cases hm
  | float negative hw hp => cases hm
  | yes => cases hm
  | no => cases hm
  | null => cases hm
  | block h => cases hm
  | @array vs raw h =>
    have hmem : m ∈ vs := by
      simpa [Value.children, Value.elements, Value.members] using hm
    obtain ⟨x, p, y, ⟨hitem, rfl⟩, hraw, hy⟩ := h.exists_part rfl hmem
    exact ⟨hitem, x, y, hraw, hy⟩
  | @object ms fields raw h hf =>
    obtain ⟨key, hmem⟩ : ∃ key, (key, m) ∈ fields := by
      simpa [Value.children, Value.elements, Value.members] using hm
    obtain ⟨x, p, y, hpart, hraw, hy⟩ := h.exists_part rfl (hf.mem hmem)
    obtain @⟨_, keyRaw, b, b', _, hk, hb, hb', hitem⟩ := hpart
    refine ⟨hitem, x ++ (keyRaw ++ (b ++ ':' :: b')), y, ?_, hy⟩
    rw [Value.raw, hraw]
    simp

theorem Spelled.succ {levels : Nat} (h : Spelled dropsTag levels v) :
    Spelled dropsTag (levels + 1) v := by
  induction levels generalizing v with
  | zero => exact absurd h id
  | succ levels ih => exact Form.mono (fun _ hv => ih hv) h

theorem Spelled.exists_place {levels : Nat} (h : Spelled dropsTag levels v)
    (hm : m ∈ v.children) :
    Spelled dropsTag levels m ∧
      ∃ x y, v.raw = x ++ (m.raw ++ y) ∧ startsWith isDelimiter y = true := by
  cases levels with
  | zero => exact absurd h id
  | succ levels =>
    obtain ⟨hitem, hplace⟩ := Form.exists_place h hm
    exact ⟨Spelled.succ hitem, hplace⟩

/-! ## The edges of a literal and what it denotes -/

theorem isBlank_eq_false_of_isDigit {c : Char} (h : c.isDigit = true) : isBlank c = false := by
  rw [Bool.eq_false_iff]
  intro hb
  rcases Text.isBlank_iff.1 hb with rfl | rfl | rfl | rfl <;> cases h

theorem Digits.exists_last {ds : Text} (h : Digits ds) :
    ∃ u c, ds = u ++ [c] ∧ isBlank c = false := by
  obtain ⟨u, c, rfl⟩ := (List.eq_nil_or_concat ds).resolve_left h.nonempty
  exact ⟨u, c, List.concat_eq_append, isBlank_eq_false_of_isDigit (h.digits c (by simp))⟩

theorem Bracketed.exists_last {α : Type} {Part : α → Text → Prop} {opening closing : Char}
    {as : List α} {raw : Text} (h : Bracketed opening closing Part as raw) :
    ∃ u, raw = u ++ [closing] := by
  cases h with
  | @empty b hb => exact ⟨opening :: b, rfl⟩
  | @row b u as hb h => exact ⟨opening :: (b ++ u), by simp⟩

/-- A literal does not end with a blank. -/
theorem Form.exists_last {Item : Value → Prop} (h : Form dropsTag Item v) :
    ∃ u c, v.raw = u ++ [c] ∧ isBlank c = false := by
  cases h with
  | string h =>
    obtain @⟨quote, s, body, hq, h⟩ := h
    refine ⟨quote :: body, quote, rfl, ?_⟩
    rcases isQuote_iff.1 hq with rfl | rfl <;> rfl
  | integer negative h hl =>
    obtain ⟨u, c, rfl, hc⟩ := h.exists_last
    exact ⟨sign negative ++ u, c, by simp [Value.raw], hc⟩
  | @float negative whole places hw hp =>
    obtain ⟨u, c, rfl, hc⟩ := hp.exists_last
    exact ⟨sign negative ++ (whole ++ '.' :: u), c, by simp [Value.raw], hc⟩
  | yes => exact ⟨['t', 'r', 'u'], 'e', rfl, rfl⟩
  | no => exact ⟨['f', 'a', 'l', 's'], 'e', rfl, rfl⟩
  | null => exact ⟨['n', 'u', 'l'], 'l', rfl, rfl⟩
  | block h =>
    obtain ⟨u, hu⟩ := List.getLast?_eq_some_iff.1 (Fence.getLast?_raw h)
    exact ⟨u, tick, hu, rfl⟩
  | array h =>
    obtain ⟨u, hu⟩ := h.exists_last
    exact ⟨u, ']', hu, rfl⟩
  | object h hf =>
    obtain ⟨u, hu⟩ := h.exists_last
    exact ⟨u, '\x7d', hu, rfl⟩

theorem Form.unwraps {Item : Value → Prop} (h : Form dropsTag Item v) : v.Unwraps := by
  cases h with
  | string h => exact ⟨nofun, nofun, fun _ => rfl, fun _ => rfl⟩
  | integer negative h hl => exact ⟨nofun, nofun, fun _ => rfl, fun _ => rfl⟩
  | float negative hw hp => exact ⟨nofun, nofun, fun _ => rfl, fun _ => rfl⟩
  | yes => exact ⟨nofun, nofun, fun _ => rfl, fun _ => rfl⟩
  | no => exact ⟨nofun, nofun, fun _ => rfl, fun _ => rfl⟩
  | null => exact ⟨nofun, nofun, fun _ => rfl, fun _ => rfl⟩
  | block h => exact ⟨nofun, nofun, fun _ => rfl, fun _ => rfl⟩
  | array h => exact ⟨fun _ => rfl, nofun, fun hne => absurd rfl hne, fun _ => rfl⟩
  | @object ms fields raw h hf =>
    exact ⟨nofun, fun _ => ⟨rfl, hf.nodup_keys⟩, fun _ => rfl, fun hne => absurd rfl hne⟩

/-! ## Reading a node again -/

/-- The literal of the value stands at a position of the text, and a reader that starts there finds
the value and stops behind the literal. -/
structure StandsAt (dropsTag : Bool) (text : Text) (v : Value) (pos : Nat) : Prop where
  span : (text.drop pos).take v.raw.length = v.raw
  read : ({ text := text, pos := pos } : Cursor).read (readValue dropsTag) =
    .ok (some v, { text := text, pos := pos + v.raw.length })

theorem standsAt_of_spelled (hv : Spelled dropsTag maxNesting v) (u : Text) {w : Text}
    (hw : Stops v w) : StandsAt dropsTag (u ++ (v.raw ++ w)) v u.length := by
  constructor
  · rw [List.drop_left, List.take_left]
  · have hfound : readValue dropsTag (v.raw ++ w) = .found v w :=
      (readNested_findsExactly dropsTag maxNesting _ v w).2 ⟨[], Text.allOf_nil, hv, hw, rfl⟩
    refine Cursor.read_eq_some_iff.2 ⟨w, ?_, ?_⟩
    · rwa [Cursor.rest, List.drop_left]
    · simp only [List.length_append]
      omega

/-- Every literal can stand at the end of a text. -/
theorem stops_nil (v : Value) : Stops v [] := by
  cases v with
  | string s raw => exact fun _ => rfl
  | integer n raw => exact ⟨rfl, rfl⟩
  | float x raw => exact rfl
  | boolean b raw => trivial
  | null raw es ms => trivial
  | array items raw es => trivial
  | object fields raw ms => trivial

/-- Where a value stands, its nodes stand too. -/
theorem Spelled.exists_place_of_node (hv : Spelled dropsTag maxNesting v) {u w : Text}
    (hw : Stops v w) {n : Value} (hn : v.Node n) :
    Spelled dropsTag maxNesting n ∧ ∃ u' w', u ++ (v.raw ++ w) = u' ++ (n.raw ++ w') ∧
      Stops n w' ∧ u.length ≤ u'.length ∧ w.length ≤ w'.length := by
  induction hn with
  | root => exact ⟨hv, u, w, rfl, hw, Nat.le_refl _, Nat.le_refl _⟩
  | @child p m hp hm ih =>
    obtain ⟨hspelled, u', w', htext, -, hu, hlen⟩ := ih
    obtain ⟨hm, x, y, hraw, hy⟩ := hspelled.exists_place hm
    refine ⟨hm, u' ++ x, y ++ w', ?_, ?_, ?_, ?_⟩
    · rw [htext, hraw]
      simp
    · exact stops_of_delimiter m (Text.startsWith_append_of_startsWith hy)
    · rw [List.length_append]
      omega
    · rw [List.length_append]
      omega

/-- A value that is read at a cursor stands behind some blanks there. -/
theorem exists_place_of_read {c c' : Cursor}
    (h : c.read (readValue dropsTag) = .ok (some v, c')) :
    Spelled dropsTag maxNesting v ∧ ∃ u w, c.text = u ++ (v.raw ++ w) ∧ Stops v w ∧
      c.pos ≤ u.length ∧ c'.pos = u.length + v.raw.length := by
  unfold Cursor.read at h
  split at h
  · next v' w hread =>
    simp only [Except.ok.injEq, Prod.mk.injEq, Option.some.injEq] at h
    obtain ⟨rfl, rfl⟩ := h
    obtain ⟨b, hb, hv, hw, hrest⟩ := (readNested_findsExactly dropsTag maxNesting _ _ w).1 hread
    have hpositive : 0 < v'.raw.length := by
      obtain ⟨d, raw, hraw, -⟩ := Text.exists_cons_of_startsWith hv.canStart
      simp [hraw]
    have hlen := congrArg List.length hrest
    simp only [Cursor.rest, List.length_drop, List.length_append] at hlen
    have htext : c.text = c.text.take c.pos ++ b ++ (v'.raw ++ w) := by
      rw [List.append_assoc, ← hrest, Cursor.rest, List.take_append_drop]
    have htake : (c.text.take c.pos ++ b).length = c.pos + b.length := by
      rw [List.length_append, List.length_take]
      omega
    refine ⟨hv, c.text.take c.pos ++ b, w, htext, hw, by omega, ?_⟩
    rw [htake]
    show c.text.length - w.length = _
    omega
  · cases h
  · cases h

/-- Every node of a value that is read at a cursor is read again from its own literal alone, and is
found at some place of the text, where the literals of its children stand inside its own.  The
literal has no blanks at its edges, and a container denotes what its children denote. -/
theorem nodes_stand_alone {c c' : Cursor} (h : c.read (readValue dropsTag) = .ok (some v, c'))
    {n : Value} (hn : v.Node n) :
    StandsAt dropsTag n.raw n 0 ∧
    (∃ i, c.pos ≤ i ∧ i + n.raw.length ≤ c'.pos ∧ StandsAt dropsTag c.text n i ∧
      ∀ m ∈ n.children, m.raw <:+: n.raw ∧ ∃ j, i ≤ j ∧ j + m.raw.length ≤ i + n.raw.length ∧
        StandsAt dropsTag c.text m j) ∧
    startsWith isBlank n.raw = false ∧ (∃ u d, n.raw = u ++ [d] ∧ isBlank d = false) ∧
    n.Unwraps := by
  obtain ⟨hv, u₀, w₀, htext, hw₀, hpos, hend⟩ := exists_place_of_read h
  obtain ⟨hspelled, u, w, hplace, hw, hu, hlen⟩ := hv.exists_place_of_node hw₀ hn (u := u₀)
  have hform : Form dropsTag (Spelled dropsTag (maxNesting - 1)) n := hspelled
  have hlength := congrArg List.length hplace
  simp only [List.length_append] at hlength
  refine ⟨?_, ⟨u.length, by omega, by omega, ?_, fun m hm => ⟨?_, ?_⟩⟩,
    startsWith_blank_eq_false hspelled.canStart, hform.exists_last, hform.unwraps⟩
  · simpa using standsAt_of_spelled hspelled [] (stops_nil n)
  · rw [htext, hplace]
    exact standsAt_of_spelled hspelled u hw
  · obtain ⟨-, x, y, hraw, -⟩ := hspelled.exists_place hm
    exact ⟨x, y, by rw [hraw, List.append_assoc]⟩
  · obtain ⟨hm, u', w', hplace', hw', hu', hlen'⟩ :=
      hspelled.exists_place_of_node hw (.child .root hm) (u := u)
    have hlength' := congrArg List.length hplace'
    simp only [List.length_append] at hlength'
    refine ⟨u'.length, hu', by omega, ?_⟩
    rw [htext, hplace, hplace']
    exact standsAt_of_spelled hm u' hw'

/-- The value behind a repeated key is read again from its literal, and so is the element in it. -/
theorem nodes_stand_alone_repeated_key :
    let c : Cursor := { text := "x: \x7bk: 1, k: [-2.5]\x7d ".toList, pos := 2 }
    ∃ v p n : Value, c.read (readValue false) = .ok (some v, { c with pos := 20 }) ∧
      v.Node p ∧ n ∈ p.children ∧ p.raw = "[-2.5]".toList ∧ n.raw = "-2.5".toList ∧
      StandsAt false p.raw p 0 ∧ p.datum = .list [n.datum] ∧
      StandsAt false n.raw n 0 ∧ ∃ i, 2 ≤ i ∧ i + 4 ≤ 20 ∧ StandsAt false c.text n i := by
  intro c
  have hshape : (c.read (readValue false)).toOption.map
      (fun r => (r.1.map fun v => v.members.map fun m => m.2.raw :: m.2.elements.map Value.raw,
        r.2)) = some (some [["[-2.5]".toList, "-2.5".toList]], { c with pos := 20 }) := by
    decide +kernel
  match hread : c.read (readValue false) with
  | .error o => simp [hread, Except.toOption] at hshape
  | .ok (none, c') => simp [hread, Except.toOption] at hshape
  | .ok (some v, c') =>
    rw [hread] at hshape
    simp only [Except.toOption, Option.map_some, Option.some.injEq, Prod.mk.injEq,
      List.map_eq_singleton_iff, List.cons.injEq] at hshape
    obtain ⟨⟨⟨key, p⟩, hmembers, hp, n, helements, hn⟩, rfl⟩ := hshape
    dsimp only at hp helements
    have hnode : v.Node p := .child .root (by simp [Value.children, hmembers])
    have hchild : n ∈ p.children := by simp [Value.children, helements]
    obtain ⟨halone, -, -, -, hunwraps⟩ := nodes_stand_alone hread hnode
    obtain ⟨halone', ⟨i, hi, hi', hstands, -⟩, -⟩ := nodes_stand_alone hread (hnode.child hchild)
    have harray : p.kind = .array := by
      refine Decidable.byContradiction fun hkind => ?_
      rw [hunwraps.elements hkind] at helements
      cases helements
    have hdatum := hunwraps.array harray
    rw [helements, List.map_singleton] at hdatum
    rw [hn] at hi'
    exact ⟨v, p, n, rfl, hnode, hchild, hp, hn, halone, hdatum, halone', i, hi, hi', hstands⟩

end Literal

end ToolCalls

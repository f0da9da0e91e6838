import ToolCalls.Text.Basic

/-!
# Fields

Named fields in the order in which their names first came up.  Putting a value under a name that is
already there replaces the value and keeps the name's place (`keys_put_of_mem`); a new name comes
last (`put_of_notMem`).
-/

namespace ToolCalls

/-- Named fields in order of first appearance. -/
abbrev Fields (α : Type) := List (Text × α)

namespace Fields

variable {α β : Type}

/-- The names, in order. -/
def keys (f : Fields α) : List Text := f.map (·.1)

/-- The value under a name. -/
def get? (f : Fields α) (key : Text) : Option α := f.lookup key

/-- The fields with a value put under a name. -/
def put (f : Fields α) (key : Text) (value : α) : Fields α :=
  match f with
  | [] => [(key, value)]
  | (k, v) :: rest => if k = key then (k, value) :: rest else (k, v) :: put rest key value

/-- The fields with all of `g` put into them in order. -/
def merge (f g : Fields α) : Fields α := g.foldl (fun acc e => put acc e.1 e.2) f

/-- The fields with the given entries, a later entry of a name replacing the earlier value. -/
def ofList (entries : List (Text × α)) : Fields α := merge [] entries

/-- The fields whose names are not among the given ones. -/
def without (f : Fields α) (names : List Text) : Fields α := f.filter fun e => !names.contains e.1

/-- The fields with a function applied to every value. -/
def mapValues (g : α → β) (f : Fields α) : Fields β := f.map fun e => (e.1, g e.2)

@[simp] theorem keys_mapValues (g : α → β) (f : Fields α) : keys (mapValues g f) = keys f := by
  simp [keys, mapValues]

@[simp] theorem put_nil (key : Text) (value : α) : put [] key value = [(key, value)] := rfl

theorem put_of_notMem {f : Fields α} {key : Text} (value : α) (h : key ∉ keys f) :
    put f key value = f ++ [(key, value)] := by
  induction f with
  | nil => rfl
  | cons e f ih =>
    simp only [keys, List.map_cons, List.mem_cons, not_or] at h
    simp only [put]
    rw [if_neg fun h' => h.1 h'.symm, ih h.2]
    rfl

theorem keys_put_of_mem {f : Fields α} {key : Text} (value : α) (h : key ∈ keys f) :
    keys (put f key value) = keys f := by
  induction f with
  | nil => simp [keys] at h
  | cons e f ih =>
    by_cases hk : e.1 = key
    · simp [put, hk, keys]
    · simp only [keys, List.map_cons, List.mem_cons] at h
      have h' : key ∈ keys f := h.resolve_left fun h' => hk h'.symm
      simp only [put, if_neg hk]
      simp only [keys, List.map_cons, List.cons.injEq, true_and]
      exact ih h'

theorem get?_cons_of_ne {k key : Text} (h : key ≠ k) (v : α) (f : Fields α) :
    get? ((k, v) :: f) key = get? f key := by
  simp [get?, List.lookup_cons, beq_false_of_ne h]

theorem get?_put_self (f : Fields α) (key : Text) (value : α) :
    get? (put f key value) key = some value := by
  induction f with
  | nil => simp [get?]
  | cons e f ih =>
    obtain ⟨k, v⟩ := e
    by_cases hk : k = key
    · simp [put, hk, get?]
    · simp only [put, if_neg hk]
      simp only [get?, List.lookup_cons]
      rw [beq_false_of_ne fun h => hk h.symm]
      exact ih

theorem get?_put_of_ne (f : Fields α) {key other : Text} (value : α) (h : other ≠ key) :
    get? (put f key value) other = get? f other := by
  induction f with
  | nil => simp [get?, List.lookup_cons, beq_false_of_ne h]
  | cons e f ih =>
    obtain ⟨k, v⟩ := e
    by_cases hk : k = key
    · subst hk
      simp [put, get?, List.lookup_cons, beq_false_of_ne h]
    · simp only [put, if_neg hk]
      simp only [get?, List.lookup_cons]
      split
      · rfl
      · exact ih

theorem mem_put {f : Fields α} {key : Text} {value : α} {e : Text × α} (h : e ∈ put f key value) :
    e ∈ f ∨ e = (key, value) := by
  induction f with
  | nil => exact Or.inr (by simpa using h)
  | cons e' f ih =>
    obtain ⟨k, v⟩ := e'
    rw [put] at h
    split at h
    · next hk =>
      rcases List.mem_cons.1 h with rfl | h
      · exact Or.inr (by rw [hk])
      · exact Or.inl (List.mem_cons_of_mem _ h)
    · rcases List.mem_cons.1 h with rfl | h
      · exact Or.inl List.mem_cons_self
      · exact (ih h).imp_left (List.mem_cons_of_mem _)

theorem mem_merge {f g : Fields α} {e : Text × α} (h : e ∈ merge f g) : e ∈ f ∨ e ∈ g := by
  induction g generalizing f with
  | nil => exact Or.inl h
  | cons e' g ih =>
    rcases ih h with h | h
    · rcases mem_put h with h | rfl
      · exact Or.inl h
      · exact Or.inr List.mem_cons_self
    · exact Or.inr (List.mem_cons_of_mem _ h)

/-- No entry comes from nowhere. -/
theorem mem_of_mem_ofList {entries : List (Text × α)} {e : Text × α} (h : e ∈ ofList entries) :
    e ∈ entries :=
  (mem_merge h).resolve_left List.not_mem_nil

theorem nodup_keys_put {f : Fields α} (h : f.keys.Nodup) (key : Text) (value : α) :
    (put f key value).keys.Nodup := by
  by_cases hmem : key ∈ f.keys
  · rwa [keys_put_of_mem value hmem]
  · rw [put_of_notMem value hmem, keys, List.map_append, List.nodup_append]
    refine ⟨h, by simp, ?_⟩
    rintro k hk k' hk' rfl
    obtain rfl : k = key := by simpa using hk'
    exact hmem hk

theorem nodup_keys_ofList (entries : List (Text × α)) : (ofList entries).keys.Nodup := by
  suffices h : ∀ f : Fields α, f.keys.Nodup → (merge f entries).keys.Nodup from h [] List.nodup_nil
  induction entries with
  | nil => exact fun f h => h
  | cons e entries ih => exact fun f h => ih (put f e.1 e.2) (nodup_keys_put h e.1 e.2)

theorem keys_put (f : Fields α) (key : Text) (value : α) :
    keys (put f key value) = if key ∈ keys f then keys f else keys f ++ [key] := by
  split
  · next h => exact keys_put_of_mem value h
  · next h => simp [put_of_notMem value h, keys]

/-- Which fields are kept goes by their names alone, so it does not matter when it is decided. -/
theorem filter_put (p : Text → Bool) (f : Fields α) (key : Text) (value : α) :
    (put f key value).filter (fun e => p e.1) =
      if p key then put (f.filter fun e => p e.1) key value else f.filter fun e => p e.1 := by
  induction f with
  | nil =>
    by_cases hp : p key = true <;> simp [hp]
  | cons e f ih =>
    obtain ⟨k, v⟩ := e
    rw [put]
    split
    · next hk =>
      subst hk
      by_cases hp : p k = true <;> simp [hp, put]
    · next hk =>
      by_cases hpk : p k = true
      · simp only [List.filter_cons, hpk, if_true, ih]
        split
        · simp only [put, if_neg hk]
        · rfl
      · simp only [List.filter_cons, hpk, ih]
        rfl

theorem get?_filter (p : Text → Bool) (f : Fields α) (key : Text) :
    get? (f.filter fun e => p e.1) key = if p key then get? f key else none := by
  induction f with
  | nil => simp [get?]
  | cons e f ih =>
    obtain ⟨k, v⟩ := e
    by_cases hk : key = k
    · subst hk
      by_cases hp : p key = true
      · simp [hp, get?]
      · rw [List.filter_cons_of_neg (by simpa using hp), ih]
        simp [hp]
    · rw [get?_cons_of_ne hk, ← ih, List.filter_cons]
      split
      · exact get?_cons_of_ne hk v _
      · rfl

theorem isSome_get?_iff {f : Fields α} {key : Text} : (get? f key).isSome ↔ key ∈ keys f := by
  simp [get?, keys, List.lookup_isSome_iff]

theorem merge_cons (f : Fields α) (e : Text × α) (g : Fields α) :
    merge f (e :: g) = merge (put f e.1 e.2) g := rfl

theorem get?_merge (f g : Fields α) (key : Text) :
    get? (merge f g) key = (g.reverse.lookup key).or (get? f key) := by
  induction g generalizing f with
  | nil => rfl
  | cons e g ih =>
    obtain ⟨k, v⟩ := e
    rw [merge_cons, ih, List.reverse_cons, List.lookup_append, Option.or_assoc, List.lookup_cons]
    by_cases h : key = k
    · simp [h, get?_put_self]
    · simp [get?_put_of_ne f v h, beq_false_of_ne h]

/-- The last entry of a name counts. -/
theorem get?_ofList (entries : List (Text × α)) (key : Text) :
    get? (ofList entries) key = entries.reverse.lookup key := by
  rw [ofList, get?_merge]
  simp [get?]

theorem keys_merge (f g : Fields α) :
    keys (merge f g) = keys f ++ ((keys g).filter (!(keys f).contains ·)).eraseDups := by
  induction g generalizing f with
  | nil => simp [merge, keys]
  | cons e g ih =>
    have hkeys : keys (e :: g) = e.1 :: keys g := rfl
    rw [merge_cons, ih, hkeys, keys_put]
    split
    · next h => simp [h]
    · next h =>
      rw [List.filter_cons_of_pos (by simpa using h), List.eraseDups_cons, List.filter_filter]
      simp [Bool.and_comm, Bool.beq_eq_decide_eq]

/-- The names come in order of first appearance. -/
theorem keys_ofList (entries : List (Text × α)) :
    keys (ofList entries) = (entries.map (·.1)).eraseDups := by
  rw [ofList, keys_merge, List.filter_eq_self.2 (by simp [keys])]
  rfl

/-- Fields with the same names in the same order and the same values under them are the same. -/
theorem ext_of_keys {f g : Fields α} (hnodup : f.keys.Nodup) (hkeys : f.keys = g.keys)
    (hget : ∀ key, f.get? key = g.get? key) : f = g := by
  induction f generalizing g with
  | nil => exact (List.map_eq_nil_iff.1 hkeys.symm).symm
  | cons e f ih =>
    obtain ⟨k, v⟩ := e
    cases g with
    | nil => cases hkeys
    | cons e' g =>
      obtain ⟨k', w⟩ := e'
      obtain ⟨rfl, htail⟩ := List.cons.inj hkeys
      obtain ⟨hnew, hrest⟩ := List.nodup_cons.1 hnodup
      have hvalue : v = w := by simpa [get?] using hget k
      have hsame : f = g := by
        apply ih hrest htail
        intro key
        by_cases hk : key = k
        · -- the first name is in neither rest
          have hf : ¬ (get? f k).isSome := fun h => hnew (isSome_get?_iff.1 h)
          have hg : ¬ (get? g k).isSome := fun h => hnew (htail ▸ isSome_get?_iff.1 h)
          rw [hk, Option.not_isSome_iff_eq_none.1 hf, Option.not_isSome_iff_eq_none.1 hg]
        · have hboth := hget key
          rwa [get?_cons_of_ne hk, get?_cons_of_ne hk] at hboth
      rw [hvalue, hsame]

/-- What a row of entries with names makes: each name once, where it first came up, with the value
that came last under it. -/
structure Collects (entries : List (Text × α)) (f : Fields α) : Prop where
  keys_eq : f.keys = (entries.map (·.1)).eraseDups
  get?_eq : ∀ key, f.get? key = entries.reverse.lookup key

theorem collects_ofList (entries : List (Text × α)) : Collects entries (ofList entries) :=
  ⟨keys_ofList entries, get?_ofList entries⟩

theorem Collects.eq_ofList {entries : List (Text × α)} {f : Fields α} (h : Collects entries f) :
    f = ofList entries := by
  have hkeys : f.keys = (ofList entries).keys := by rw [h.keys_eq, keys_ofList]
  apply ext_of_keys _ hkeys
  · intro key
    rw [h.get?_eq, get?_ofList]
  · rw [hkeys]
    exact nodup_keys_ofList entries

theorem Collects.nodup_keys {entries : List (Text × α)} {f : Fields α} (h : Collects entries f) :
    f.keys.Nodup := by
  rw [h.eq_ofList]
  exact nodup_keys_ofList entries

theorem Collects.mem {entries : List (Text × α)} {f : Fields α} (h : Collects entries f)
    {e : Text × α} (he : e ∈ f) : e ∈ entries := by
  rw [h.eq_ofList] at he
  exact mem_of_mem_ofList he

/-- Entries with different names are the fields themselves. -/
theorem ofList_of_nodup {entries : List (Text × α)} (h : (entries.map (·.1)).Nodup) :
    ofList entries = entries := by
  suffices hmerge : ∀ f : Fields α, (f ++ entries : Fields α).keys.Nodup →
      merge f entries = f ++ entries from hmerge [] h
  clear h
  induction entries with
  | nil => simp [merge]
  | cons e entries ih =>
    intro f hf
    have hnew : e.1 ∉ f.keys := by
      intro hmem
      simp only [keys, List.map_append, List.map_cons, List.nodup_append] at hf
      exact hf.2.2 e.1 hmem e.1 List.mem_cons_self rfl
    rw [merge_cons, put_of_notMem e.2 hnew, ih _ (by simpa using hf)]
    simp

end Fields

end ToolCalls

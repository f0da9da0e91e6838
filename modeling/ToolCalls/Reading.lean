import ToolCalls.Decimal.Integer

/-!
# Readings

A reader looks at the front of a text.  It finds something and leaves the text behind it, or it does
not and leaves the text from where it gave up, or it meets an integer with too many digits, which
ends reading altogether.
-/

namespace ToolCalls

/-- What reading at the front of a text gave. -/
inductive Reading (α : Type) where
  /-- Something was found, and `rest` stands behind it. -/
  | found (value : α) (rest : Text)
  /-- Nothing was found; the reader gave up at `rest`. -/
  | absent (rest : Text)
  /-- A digit row was too long. -/
  | fault (oversized : Decimal.Oversized)

namespace Reading

variable {α β : Type}

/-- What was found, with a function applied to it. -/
def map (f : α → β) : Reading α → Reading β
  | found a rest => found (f a) rest
  | absent rest => absent rest
  | fault o => fault o

/-- Goes on reading with what was found and the text behind it. -/
def andThen (r : Reading α) (next : α → Text → Reading β) : Reading β :=
  match r with
  | found a rest => next a rest
  | absent rest => absent rest
  | fault o => fault o

/-- The outcome for someone who is not interested in the text that is left. -/
def result : Reading α → Except Decimal.Oversized (Option α)
  | found a _ => .ok (some a)
  | absent _ => .ok none
  | fault o => .error o

/-- The reading of something that may be there, with the text behind it; `rest` is what is left
where it is not. -/
def ofOption (o : Option (α × Text)) (rest : Text) : Reading α :=
  match o with
  | some (a, r) => found a r
  | none => absent rest

/-- The text that a reading leaves. -/
def rest? : Reading α → Option Text
  | found _ rest | absent rest => some rest
  | fault _ => none

@[simp] theorem map_found (f : α → β) (a : α) (rest : Text) :
    (found a rest).map f = found (f a) rest := rfl

@[simp] theorem map_absent (f : α → β) (rest : Text) :
    (absent rest : Reading α).map f = absent rest := rfl

@[simp] theorem map_fault (f : α → β) (o : Decimal.Oversized) :
    (fault o : Reading α).map f = fault o := rfl

@[simp] theorem andThen_found (a : α) (rest : Text) (next : α → Text → Reading β) :
    (found a rest).andThen next = next a rest := rfl

@[simp] theorem andThen_absent (rest : Text) (next : α → Text → Reading β) :
    (absent rest : Reading α).andThen next = absent rest := rfl

@[simp] theorem andThen_fault (o : Decimal.Oversized) (next : α → Text → Reading β) :
    (fault o : Reading α).andThen next = fault o := rfl

theorem map_andThen {γ : Type} (r : Reading α) (next : α → Text → Reading β) (f : β → γ) :
    (r.andThen next).map f = r.andThen fun a rest => (next a rest).map f := by
  cases r <;> rfl

theorem andThen_eq_found_iff {r : Reading α} {next : α → Text → Reading β} {b : β} {rest : Text} :
    r.andThen next = found b rest ↔ ∃ a t, r = found a t ∧ next a t = found b rest := by
  constructor
  · intro h
    cases r with
    | found a t => exact ⟨a, t, rfl, h⟩
    | absent t => simp at h
    | fault o => simp at h
  · rintro ⟨a, t, rfl, h⟩
    exact h

theorem map_eq_found_iff {r : Reading α} {f : α → β} {b : β} {rest : Text} :
    r.map f = found b rest ↔ ∃ a, r = found a rest ∧ f a = b := by
  constructor
  · intro h
    cases r with
    | found a t =>
      simp only [map_found, found.injEq] at h
      exact ⟨a, by rw [h.2], h.1⟩
    | absent t => simp at h
    | fault o => simp at h
  · rintro ⟨a, rfl, rfl⟩
    rfl

theorem andThen_eq_fault_iff {r : Reading α} {next : α → Text → Reading β}
    {o : Decimal.Oversized} :
    r.andThen next = fault o ↔ r = fault o ∨ ∃ a t, r = found a t ∧ next a t = fault o := by
  constructor
  · intro h
    cases r with
    | found a t => exact Or.inr ⟨a, t, rfl, h⟩
    | absent t => simp at h
    | fault o' =>
      rw [andThen_fault, fault.injEq] at h
      exact Or.inl (by rw [h])
  · rintro (rfl | ⟨a, t, rfl, h⟩)
    · rfl
    · exact h

theorem map_eq_fault_iff {r : Reading α} {f : α → β} {o : Decimal.Oversized} :
    r.map f = fault o ↔ r = fault o := by
  cases r <;> simp

end Reading

end ToolCalls

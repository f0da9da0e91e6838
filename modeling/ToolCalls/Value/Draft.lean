import ToolCalls.Defect

/-!
# Drafts of values

A draft holds the parts of a value before they are known to fit together.  `Draft.check` makes the
value or says what is wrong; the parts of a value pass the check and give the value back
(`check_toDraft`).
-/

namespace ToolCalls

namespace Value

/-- The parts of a value, unchecked. -/
structure Draft where
  kind : Datum
  datum : Datum := .null
  raw : Datum := .string []
  elements : List Value := []
  members : Fields Value := []

/-- The parts of a value. -/
def toDraft (v : Value) : Draft where
  kind := .string v.kind.name
  datum := v.datum
  raw := .string v.raw
  elements := v.elements
  members := v.members

namespace Draft

/-- The kind that a draft names. -/
def kind? (d : Draft) : Option Kind :=
  match d.kind with
  | .string name => Kind.ofName? name
  | _ => none

/-- The source text in a draft. -/
def raw? (d : Draft) : Option Text :=
  match d.raw with
  | .string t => some t
  | _ => none

/-- A value that is neither an array nor an object, if the draft has no children. -/
def childless (d : Draft) (v : Value) : Except Defect Value :=
  if !d.elements.isEmpty then .error .strayElements
  else if !d.members.isEmpty then .error .strayMembers
  else .ok v

/-- The value of the given kind and source text, if what the draft denotes fits the kind. -/
def fit (d : Draft) (kind : Kind) (raw : Text) : Except Defect Value :=
  match kind, d.datum with
  | .null, .null => .ok (.null raw d.elements d.members)
  | .null, _ => .error .nullDenotes
  | .string, .string t => d.childless (.string t raw)
  | .integer, .integer n => d.childless (.integer n raw)
  | .integer, .boolean _ => .error .truthValue
  | .float, .float x => d.childless (.float x raw)
  | .boolean, .boolean b => d.childless (.boolean b raw)
  | .array, .list items =>
    if !d.members.isEmpty then .error .strayMembers else .ok (.array items raw d.elements)
  | .object, .object fields =>
    if !d.elements.isEmpty then .error .strayElements else .ok (.object fields raw d.members)
  | k, datum => .error (.wrongType k datum.typeName)

/-- The value that a draft describes.  The fields are checked one by one before they are checked
against each other. -/
def check (d : Draft) : Except (List Defect) Value :=
  match d.kind?, d.raw? with
  | some kind, some raw => (d.fit kind raw).mapError fun defect => [defect]
  | none, some _ => .error [.unknownKind]
  | some _, none => .error [.notText "raw".toList]
  | none, none => .error [.unknownKind, .notText "raw".toList]

theorem fit_toDraft (v : Value) : v.toDraft.fit v.kind v.raw = .ok v := by
  cases v <;> rfl

/-- The parts of a value fit together. -/
theorem check_toDraft (v : Value) : v.toDraft.check = .ok v := by
  have hk : v.toDraft.kind? = some v.kind := Kind.ofName?_name v.kind
  have hr : v.toDraft.raw? = some v.raw := rfl
  simp only [check, hk, hr, fit_toDraft]
  rfl

end Draft

end Value

end ToolCalls

import ToolCalls.Datum

/-!
# Values

A value is a literal as it was written together with what it denotes.  Every value has its source
text, `raw`, and its plain datum, `datum`; arrays and objects also keep the values they were made
of.  The type admits exactly the combinations that make sense: a string value denotes a text, only
arrays have elements and only objects have members.  A null may carry both, since nothing depends on
them.
-/

namespace ToolCalls

/-- The kinds of values. -/
inductive Kind where
  | string | integer | float | boolean | null | array | object
deriving DecidableEq, Repr

namespace Kind

/-- The name of a kind. -/
def name : Kind → Text
  | string => "string".toList
  | integer => "integer".toList
  | float => "float".toList
  | boolean => "boolean".toList
  | null => "null".toList
  | array => "array".toList
  | object => "object".toList

/-- All kinds. -/
def all : List Kind := [string, integer, float, boolean, null, array, object]

/-- The kind of a name, which has to match exactly. -/
def ofName? (t : Text) : Option Kind := all.find? fun k => k.name == t

theorem ofName?_name (k : Kind) : ofName? k.name = some k := by
  cases k <;> decide

end Kind

/-- A literal with what it denotes. -/
inductive Value where
  | string (value raw : Text)
  | integer (value : Int) (raw : Text)
  | float (value : Binary64) (raw : Text)
  | boolean (value : Bool) (raw : Text)
  | null (raw : Text) (elements : List Value) (members : List (Text × Value))
  | array (value : List Datum) (raw : Text) (elements : List Value)
  | object (value : List (Text × Datum)) (raw : Text) (members : List (Text × Value))

namespace Value

/-- The kind of a value. -/
def kind : Value → Kind
  | string .. => .string
  | integer .. => .integer
  | float .. => .float
  | boolean .. => .boolean
  | null .. => .null
  | array .. => .array
  | object .. => .object

/-- The source text of a value. -/
def raw : Value → Text
  | string _ raw | integer _ raw | float _ raw | boolean _ raw => raw
  | null raw _ _ | array _ raw _ | object _ raw _ => raw

/-- What a value denotes. -/
def datum : Value → Datum
  | string t _ => .string t
  | integer n _ => .integer n
  | float x _ => .float x
  | boolean b _ => .boolean b
  | null .. => .null
  | array items _ _ => .list items
  | object fields _ _ => .object fields

/-- The values that an array was made of. -/
def elements : Value → List Value
  | null _ elements _ | array _ _ elements => elements
  | _ => []

/-- The named values that an object was made of. -/
def members : Value → Fields Value
  | null _ _ members | object _ _ members => members
  | _ => []

/-! ## Values from what they denote -/

/-- The source text of a truth value. -/
def booleanRaw : Bool → Text
  | true => ['t', 'r', 'u', 'e']
  | false => ['f', 'a', 'l', 's', 'e']

/-- The source text of null. -/
def nullRaw : Text := ['n', 'u', 'l', 'l']

/-- The value of a truth value. -/
def ofBool (b : Bool) : Value := boolean b (booleanRaw b)

/-- The value of null. -/
def ofNull : Value := null nullRaw [] []

/-- The array of the given values. -/
def ofElements (elements : List Value) (raw : Text) : Value :=
  array (elements.map datum) raw elements

/-- The object of the given named values. -/
def ofMembers (members : Fields Value) (raw : Text) : Value :=
  object (members.mapValues datum) raw members

@[simp] theorem raw_ofElements (es : List Value) (r : Text) : (ofElements es r).raw = r := rfl

@[simp] theorem raw_ofMembers (ms : Fields Value) (r : Text) : (ofMembers ms r).raw = r := rfl

@[simp] theorem datum_ofElements (es : List Value) (r : Text) :
    (ofElements es r).datum = .list (es.map datum) := rfl

@[simp] theorem datum_ofMembers (ms : Fields Value) (r : Text) :
    (ofMembers ms r).datum = .object (ms.mapValues datum) := rfl

end Value

end ToolCalls

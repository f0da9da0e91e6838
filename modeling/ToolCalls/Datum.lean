import ToolCalls.Decimal.Layout
import ToolCalls.Fields
import ToolCalls.Text.Quoted

/-!
# Plain data

The data that a literal denotes, and that log records carry.  Literals denote only the first seven
forms; the others come up in log records, where a record is written like an object and yet is none.
-/

namespace ToolCalls

/-- Plain data. -/
inductive Datum where
  | null
  | boolean (value : Bool)
  | string (value : Text)
  | integer (value : Int)
  | float (value : Binary64)
  | list (items : List Datum)
  | object (fields : List (Text × Datum))
  | tuple (items : List Datum)
  | set (items : List Datum)
  /-- A structured value, known by its fields. -/
  | record (fields : List (Text × Datum))
  /-- Any other value, known by its text. -/
  | other (shown : Text)

namespace Datum

/-- The name of the form of a datum, as it appears in messages. -/
def typeName : Datum → Text
  | null => "NoneType".toList
  | boolean _ => "bool".toList
  | string _ => "str".toList
  | integer _ => "int".toList
  | float _ => "float".toList
  | list _ => "list".toList
  | object _ => "dict".toList
  | tuple _ => "tuple".toList
  | set _ => "set".toList
  | record _ => "ParsedCall".toList
  | other _ => "object".toList

/-! ## Data as they are shown in messages -/

/-- The texts with a comma and a blank between them. -/
def commaSeparated (ts : List Text) : Text := List.intercalate [',', ' '] ts

mutual

/-- A datum as it is shown inside a message: texts between quotes, containers with their
contents. -/
def shown : Datum → Text
  | null => "None".toList
  | boolean true => "True".toList
  | boolean false => "False".toList
  | string t => Text.quoted t
  | integer n => Decimal.ofInt n
  | float x => Decimal.plain.write x
  | list items => '[' :: commaSeparated (shownItems items) ++ [']']
  | object fields => '\x7b' :: commaSeparated (shownFields fields) ++ ['\x7d']
  | tuple [item] => '(' :: shown item ++ [',', ')']
  | tuple items => '(' :: commaSeparated (shownItems items) ++ [')']
  | set [] => "set()".toList
  | set items => '\x7b' :: commaSeparated (shownItems items) ++ ['\x7d']
  | record fields => '\x7b' :: commaSeparated (shownFields fields) ++ ['\x7d']
  | other t => t

/-- The items of a container as they are shown. -/
def shownItems : List Datum → List Text
  | [] => []
  | item :: items => shown item :: shownItems items

/-- The fields of an object as they are shown. -/
def shownFields : List (Text × Datum) → List Text
  | [] => []
  | (key, item) :: fields => (Text.quoted key ++ ':' :: ' ' :: shown item) :: shownFields fields

end

/-- A datum as a text of its own: a text is itself, anything else as it is shown. -/
def text : Datum → Text
  | string t => t
  | d => shown d

end Datum

end ToolCalls

import ToolCalls.Value

/-!
# Defects

What can be wrong with the parts that a value, a call or a configuration is to be made of.  Every
defect has the field it concerns, a short tag and a message.
-/

namespace ToolCalls

/-- A reason why parts do not fit together. -/
inductive Defect where
  /-- The name of a kind is not known. -/
  | unknownKind
  /-- A field that has to be a text is none. -/
  | notText (field : Text)
  /-- A call has an empty name. -/
  | emptyName
  /-- The flush threshold is less than one. -/
  | thresholdTooSmall
  /-- The name of a log level is not known. -/
  | unknownLevel (level : Text)
  /-- A null denotes something. -/
  | nullDenotes
  /-- A value denotes something of another type than its kind says. -/
  | wrongType (kind : Kind) (typeName : Text)
  /-- An integer value denotes a truth value. -/
  | truthValue
  /-- A value that is no array has elements. -/
  | strayElements
  /-- A value that is no object has members. -/
  | strayMembers
deriving DecidableEq, Repr

namespace Defect

/-- The field that a defect concerns; a defect of the whole has none. -/
def place : Defect → List Text
  | unknownKind => ["kind".toList]
  | notText field => [field]
  | emptyName => ["name".toList]
  | thresholdTooSmall => ["text_flush_threshold".toList]
  | unknownLevel _ => ["log_level".toList]
  | _ => []

/-- The tag of a defect. -/
def tag : Defect → Text
  | unknownKind => "enum".toList
  | notText _ => "string_type".toList
  | emptyName => "string_too_short".toList
  | thresholdTooSmall => "greater_than_equal".toList
  | _ => "value_error".toList

/-- The message of a defect. -/
def message : Defect → Text
  | unknownKind =>
    "Input should be 'string', 'integer', 'float', 'boolean', 'null', 'array' or 'object'".toList
  | notText _ => "Input should be a valid string".toList
  | emptyName => "String should have at least 1 character".toList
  | thresholdTooSmall => "Input should be greater than or equal to 1".toList
  | unknownLevel level => "Value error, unknown log level: ".toList ++ level
  | nullDenotes => "Value error, null value must be None".toList
  | wrongType kind typeName =>
    "Value error, ".toList ++ kind.name ++ " value has type ".toList ++ typeName
  | truthValue => "Value error, integer value must not be a bool".toList
  | strayElements => "Value error, only arrays carry elements".toList
  | strayMembers => "Value error, only objects carry members".toList

end Defect

end ToolCalls

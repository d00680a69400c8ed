import RecordMapping.Field.Type
import RecordMapping.Sql.Param

/-!
# Errors

What can go wrong in an operation on a table. Each error holds its cause, and `Error.message` puts
it into words. A failure of the engine is a chain of messages, from what was being done down to
what went wrong; it is kept beside the message of the error that it causes.
-/

namespace RecordMapping

/-- A failure of the engine: the outermost message, and those that explain it. -/
structure EngineError where
  message : String
  causes : List String
  deriving DecidableEq

namespace EngineError

/-- A failure without further explanation. -/
def root (message : String) : EngineError := ⟨message, []⟩

/-- The same failure with a message in front that says what was being done. -/
def within (context : String) (e : EngineError) : EngineError := ⟨context, e.message :: e.causes⟩

/-- All messages, the outermost first. -/
def chain (e : EngineError) : List String := e.message :: e.causes

end EngineError

/-- What has no field type or no physical value. -/
inductive Unsupported where
  | tag (text : String)
  | value (value : Value)
  | param (value : CalendarParam)

/-- What is accepted where a value was refused. -/
inductive Expected where
  | fieldType (type : FieldType)
  | identifier
  | nestedFilter
  | milliseconds
  | millisecondsInRange
  | jsonText
  | jsonObject

/-- What was found in place of an accepted value. -/
inductive Found where
  | value (value : Value)
  | datum (value : Datum)
  | json (value : Json)

/-- Why an operation failed. -/
inductive Error where
  | unsupportedType (what : Unsupported)
  | invalidValue (field : String) (expected : Expected) (found : Found)
  /-- Fields are still missing after the table was migrated. -/
  | migrationConflict (table : String) (fields : List String) (cause : EngineError)
  | referenceResolution (table field : String) (target : Option String)
  | nestedFilter (table field : String)
  | joinDepthExceeded (table : String) (depth : Nat)
  /-- The engine rejected a statement. -/
  | statement (sql : String) (params : List Datum) (cause : EngineError)
  /-- A column or field holds text that is no document. -/
  | decode (column : String)
  /-- A written row did not come back. -/
  | missingRow (table : String)

namespace Unsupported

/-- What is unsupported, in words. -/
def describe : Unsupported → String
  | .tag text => text
  | .value v => v.describe
  | .param v => v.describe

end Unsupported

namespace Expected

/-- What is accepted, in words. -/
def describe : Expected → String
  | .fieldType type => type.tag
  | .identifier => "record identifier"
  | .nestedFilter => "nested filter or identifier"
  | .milliseconds => "epoch milliseconds"
  | .millisecondsInRange => "epoch milliseconds in range"
  | .jsonText => "JSON text"
  | .jsonObject => "embedded JSON object"

end Expected

namespace Found

/-- What was found, in words. -/
def describe : Found → String
  | .value v => v.describe
  | .datum d => d.describe
  | .json j => j.describe

end Found

namespace Error

/-- The error in words, without the failure of the engine that caused it. -/
def message : Error → String
  | .unsupportedType what => "unsupported type for value " ++ what.describe
  | .invalidValue field expected found =>
    "invalid value for field '" ++ field ++ "': expected " ++ expected.describe ++ ", found " ++
      found.describe
  | .migrationConflict table fields _ =>
    "migration of table '" ++ table ++ "' left fields missing: " ++ commaSeparated fields
  | .referenceResolution table field target =>
    "reference '" ++ table ++ "." ++ field ++ "' targets unresolved table " ++
      target.getD "<unknown>"
  | .nestedFilter table field =>
    "nested filter on '" ++ table ++ "." ++ field ++ "' requires a relational query"
  | .joinDepthExceeded table depth =>
    "reference joins from '" ++ table ++ "' exceed the maximum depth of " ++ toString depth
  | .statement sql params _ =>
    "statement failed: " ++ sql ++ " (params: " ++ bracketed (params.map Datum.describe) ++ ")"
  | .decode column => "cannot decode column '" ++ column ++ "'"
  | .missingRow table => "no row returned from table '" ++ table ++ "'"

/-- The failure of the engine that caused the error. -/
def cause? : Error → Option EngineError
  | .migrationConflict _ _ cause => some cause
  | .statement _ _ cause => some cause
  | _ => none

end Error

end RecordMapping

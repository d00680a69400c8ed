import RecordMapping.Json.Basic
import RecordMapping.Named
import RecordMapping.Time.Instant

/-!
# Values and records

A record is one row of a table as an application sees it: field names with values, in the order in
which they were first given. The identifier of the row is the value under `id`. A value of a field
that refers to another table is a record itself.
-/

namespace RecordMapping

/-- The value of one field. -/
inductive Value where
  | null
  | integer (value : Int64)
  | number (value : Binary64)
  | text (value : String)
  | boolean (value : Bool)
  | date (value : Instant)
  | object (members : Members)
  | array (items : List Json)
  | record (fields : List (String × Value))

/-- Field names with their values. A name stands in it at most once. -/
abbrev Record := Named Value

/-- The name of the identifier, as a field and as a column. -/
def idName : String := "id"

/-- The record that holds only an identifier. -/
def Record.withId (id : Int64) : Record := [(idName, .integer id)]

/-! ## Identifiers -/

/-- The identifier that a value other than a record denotes: an integer, or an integral number. -/
def Value.scalarId? : Value → Option Int64
  | .integer i => some i
  | .number x => x.toInt64?
  | _ => none

/-- The identifier of a record. A record in its place is none. -/
def Record.id? (r : Record) : Option Int64 := (r.get? idName).bind Value.scalarId?

namespace Value

/-- The identifier that a value denotes: its own, or that of the record it is. -/
def id? : Value → Option Int64
  | .record r => Record.id? r
  | v => v.scalarId?

/-- The text of a text value. -/
def text? : Value → Option String
  | .text s => some s
  | _ => none

/-- The record of a record value. -/
def record? : Value → Option Record
  | .record r => some r
  | _ => none

/-! ## Values and documents -/

mutual
/-- A value as a document. A point in time becomes its milliseconds, a record an object, and a
number that documents cannot hold becomes null. -/
def toJson : Value → Json
  | .null => .null
  | .integer i => .ofInt64 i
  | .number x => .ofBinary64 x
  | .text s => .string s
  | .boolean b => .bool b
  | .date t => .ofInt64 (Int64.ofInt t.millis)
  | .object members => .object members
  | .array items => .array items
  | .record fields => .object (Members.ofList (toJsonFields fields))
/-- The fields of a record as pairs of key and document. -/
def toJsonFields : List (String × Value) → List (String × Json)
  | [] => []
  | (name, value) :: rest => (name, toJson value) :: toJsonFields rest
end

/-- A document as a value. An integer beyond the signed range becomes the nearest number. -/
def ofJson : Json → Value
  | .null => .null
  | .bool b => .boolean b
  | .number n =>
    match n.toInt64? with
    | some i => .integer i
    | none => .number n.toBinary64
  | .string s => .text s
  | .array items => .array items
  | .object members => .object members

/-! ## Equality -/

mutual
/-- Two values of the same kind and content. Records agree in any order of their fields; the two
zeros agree, and what is no number agrees with nothing. -/
def same : Value → Value → Bool
  | .null, .null => true
  | .integer a, .integer b => a == b
  | .number a, .number b => a.sameNumber b
  | .text a, .text b => a == b
  | .boolean a, .boolean b => a == b
  | .date a, .date b => a.seconds == b.seconds && a.nanos == b.nanos
  | .object a, .object b => Json.sameMembers a b
  | .array a, .array b => Json.sameItems a b
  | .record a, .record b => a.length == b.length && sameFields a b
  | _, _ => false
/-- Each field of the first record has the same value in the second. -/
def sameFields : List (String × Value) → Record → Bool
  | [], _ => true
  | (name, value) :: rest, other =>
    (match other.get? name with
      | some v => same value v
      | none => false) && sameFields rest other
end

end Value

/-- Two records with the same fields, in any order. -/
def Record.same (a b : Record) : Bool := (Value.record a).same (.record b)

end RecordMapping

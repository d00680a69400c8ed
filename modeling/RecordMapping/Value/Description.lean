import RecordMapping.Value.Basic
import RecordMapping.Json.Token
import RecordMapping.Text.Quoted

/-!
# Values in messages

A message about a value shows its kind and content. Text is quoted, numbers are in their shortest
form, and the parts of a list or record stand in order, with commas between them.
-/

namespace RecordMapping

/-- In a description a number from `0.0001` up to, and without, `10 ^ 16` is positional. -/
def descriptionStyle : NumberStyle where
  leastPositional := -4
  greatestPositional := 15
  exponentSign := ""
  tie := .up
  notANumber := "NaN"
  infinity := "inf"

/-- Parts with commas between them. -/
def commaSeparated (parts : List String) : String := ", ".intercalate parts

/-- Parts of a list, in brackets. -/
def bracketed (parts : List String) : String := "[" ++ commaSeparated parts ++ "]"

/-- Parts of a map, in braces. -/
def braced (parts : List String) : String := "\x7b" ++ commaSeparated parts ++ "\x7d"

/-- One part of a map. -/
def keyed (key value : String) : String := Text.quoted key ++ ": " ++ value

/-- The kind of a thing with its content in parentheses. -/
def tagged (kind content : String) : String := kind ++ "(" ++ content ++ ")"

/-- A content that may be missing. -/
def optional (content : Option String) : String :=
  match content with
  | some s => tagged "Some" s
  | none => "None"

/-- A truth value. -/
def truth (b : Bool) : String := if b then "true" else "false"

mutual
/-- A document in a message. -/
def Json.describe : Json → String
  | .null => "Null"
  | .bool b => tagged "Bool" (truth b)
  | .number n => tagged "Number" (Json.numberText n)
  | .string s => tagged "String" (Text.quoted s)
  | .array items => "Array " ++ bracketed (Json.describeItems items)
  | .object members => "Object " ++ braced (Json.describeMembers members)
/-- The items of an array in a message. -/
def Json.describeItems : List Json → List String
  | [] => []
  | item :: rest => Json.describe item :: Json.describeItems rest
/-- The members of an object in a message. -/
def Json.describeMembers : List (String × Json) → List String
  | [] => []
  | (key, value) :: rest => keyed key (Json.describe value) :: Json.describeMembers rest
end

mutual
/-- A value in a message. -/
def Value.describe : Value → String
  | .null => "Null"
  | .integer i => tagged "Integer" (toString i.toInt)
  | .number x => tagged "Number" (descriptionStyle.double x)
  | .text s => tagged "Text" (Text.quoted s)
  | .boolean b => tagged "Boolean" (truth b)
  | .date t => tagged "Date" t.text
  | .object members => tagged "Object" (braced (Json.describeMembers members))
  | .array items => tagged "Array" (bracketed (Json.describeItems items))
  | .record fields => tagged "Record" (tagged "Record" (braced (Value.describeFields fields)))
/-- The fields of a record in a message. -/
def Value.describeFields : List (String × Value) → List String
  | [] => []
  | (name, value) :: rest => keyed name (Value.describe value) :: Value.describeFields rest
end

end RecordMapping

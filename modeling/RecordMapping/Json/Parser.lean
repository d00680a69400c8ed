import RecordMapping.Json.Lexer

/-!
# Reading JSON text

The tokens are read by a machine with a stack of the arrays and objects that are still open. Each
token moves it one step. At most 127 arrays and objects may be open at a time.
-/

namespace RecordMapping.Json

/-- An array or object that is still open around the value being read. -/
inductive Frame where
  /-- An array with the items before the value, in reverse order. -/
  | array (items : List Json)
  /-- An object with the members before the value, and the key of the value. -/
  | object (members : Members) (key : String)

/-- What the machine waits for. -/
inductive ParseState where
  /-- A value, inside the open arrays and objects. -/
  | value (stack : List Frame)
  /-- The first item of an array, or its end. -/
  | firstItem (stack : List Frame)
  /-- A comma or the end of an array. -/
  | afterItem (items : List Json) (stack : List Frame)
  /-- The first key of an object, or its end. -/
  | firstKey (stack : List Frame)
  /-- A key of an object. -/
  | key (members : Members) (stack : List Frame)
  /-- The colon after a key. -/
  | colon (members : Members) (key : String) (stack : List Frame)
  /-- A comma or the end of an object. -/
  | afterMember (members : Members) (stack : List Frame)
  /-- The end of the text: the document is complete. -/
  | complete (json : Json)

/-- How many arrays and objects may be open at a time. -/
def mostOpen : Nat := 127

/-- The state after a complete value. -/
def deliver (json : Json) : List Frame → ParseState
  | [] => .complete json
  | .array items :: stack => .afterItem (json :: items) stack
  | .object members key :: stack => .afterMember (members.insert key json) stack

/-- The state after a token that has to begin a value. -/
def startValue (stack : List Frame) : Token → Option ParseState
  | .null => some (deliver .null stack)
  | .bool b => some (deliver (.bool b) stack)
  | .number n => some (deliver (.number n) stack)
  | .string s => some (deliver (.string s) stack)
  | .openArray => if stack.length < mostOpen then some (.firstItem stack) else none
  | .openObject => if stack.length < mostOpen then some (.firstKey stack) else none
  | _ => none

/-- The state after a token that has to be a key. -/
def startMember (members : Members) (stack : List Frame) : Token → Option ParseState
  | .string key => some (.colon members key stack)
  | _ => none

/-- One step of the machine. -/
def parseStep : ParseState → Token → Option ParseState
  | .value stack, token => startValue stack token
  | .firstItem stack, .closeArray => some (deliver (.array []) stack)
  | .firstItem stack, token => startValue (.array [] :: stack) token
  | .afterItem items stack, .comma => some (.value (.array items :: stack))
  | .afterItem items stack, .closeArray => some (deliver (.array items.reverse) stack)
  | .firstKey stack, .closeObject => some (deliver (.object []) stack)
  | .firstKey stack, token => startMember [] stack token
  | .key members stack, token => startMember members stack token
  | .colon members key stack, .colon => some (.value (.object members key :: stack))
  | .afterMember members stack, .comma => some (.key members stack)
  | .afterMember members stack, .closeObject => some (deliver (.object members) stack)
  | _, _ => none

/-- Runs the machine over the tokens; it has to end with a complete document. -/
def parseTokens : ParseState → List Token → Option Json
  | .complete json, [] => some json
  | _, [] => none
  | state, token :: rest => (parseStep state token).bind (parseTokens · rest)

/-- The document that a text holds, if it holds one. -/
def parse (text : String) : Option Json := (lex text.toList).bind (parseTokens (.value []))

end RecordMapping.Json

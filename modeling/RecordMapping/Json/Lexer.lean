import RecordMapping.Json.Token
import RecordMapping.Json.Numeral

/-!
# Reading the tokens of JSON text

The reader is a machine that takes one character at a time. Between tokens it skips white space;
inside a string, a numeral or a word it collects characters. A numeral or a word ends at the first
character that cannot belong to it, and only then it is looked at as a whole. A surrogate escape
counts only as a pair.
-/

namespace RecordMapping.Json

/-- Where the reader stands. Collected characters are in reverse order. -/
inductive LexState where
  | between
  | word (letters : List Char)
  | numeral (chars : List Char)
  | string (chars : List Char)
  /-- After the backslash of an escape. -/
  | escape (chars : List Char)
  /-- Inside a numeric escape, with `more` digits to come. A high surrogate may have gone
  before. -/
  | unicode (chars : List Char) (high : Option Nat) (more value : Nat)
  /-- After a high surrogate; a backslash has to follow. -/
  | paired (chars : List Char) (high : Nat)
  /-- After a high surrogate and a backslash; the letter of a numeric escape has to follow. -/
  | pairedEscape (chars : List Char) (high : Nat)

/-- White space between tokens. -/
def isSpace (c : Char) : Bool := c = ' ' || c = '\n' || c = '\t' || c = '\r'

/-- The characters that numerals are made of. -/
def isNumeralChar (c : Char) : Bool :=
  c.isDigit || c = '-' || c = '+' || c = '.' || c = 'e' || c = 'E'

/-- The token of a single character. -/
def punctuation? (c : Char) : Option Token :=
  if c = '[' then some .openArray
  else if c = ']' then some .closeArray
  else if c = '\x7b' then some .openObject
  else if c = '\x7d' then some .closeObject
  else if c = ',' then some .comma
  else if c = ':' then some .colon
  else none

/-- The token of a word. -/
def wordToken? (letters : List Char) : Option Token :=
  if letters = ['n', 'u', 'l', 'l'] then some .null
  else if letters = ['t', 'r', 'u', 'e'] then some (.bool true)
  else if letters = ['f', 'a', 'l', 's', 'e'] then some (.bool false)
  else none

/-- The character of a one-letter escape. -/
def shortEscape? (c : Char) : Option Char :=
  if c = '"' then some '"'
  else if c = '\\' then some '\\'
  else if c = '/' then some '/'
  else if c = 'b' then some '\x08'
  else if c = 'f' then some '\x0c'
  else if c = 'n' then some '\n'
  else if c = 'r' then some '\r'
  else if c = 't' then some '\t'
  else none

/-- The value of a hexadecimal digit of either case. -/
def hexValue? (c : Char) : Option Nat :=
  let n := c.toNat
  if '0'.toNat ≤ n ∧ n ≤ '9'.toNat then some (n - '0'.toNat)
  else if 'a'.toNat ≤ n ∧ n ≤ 'f'.toNat then some (n - 'a'.toNat + 10)
  else if 'A'.toNat ≤ n ∧ n ≤ 'F'.toNat then some (n - 'A'.toNat + 10)
  else none

/-- The state after a numeric escape: a character is complete, or a high surrogate waits for its
partner. -/
def endUnicode (chars : List Char) (value : Nat) : Option Nat → Option LexState
  | none =>
    if 0xd800 ≤ value ∧ value ≤ 0xdbff then some (.paired chars value)
    else if 0xdc00 ≤ value ∧ value ≤ 0xdfff then none
    else some (.string (Char.ofNat value :: chars))
  | some high =>
    if 0xdc00 ≤ value ∧ value ≤ 0xdfff then
      some (.string (Char.ofNat (0x10000 + (high - 0xd800) * 0x400 + (value - 0xdc00)) :: chars))
    else none

/-- One character at the start of a token. -/
def startToken (c : Char) : Option (List Token × LexState) :=
  if isSpace c then some ([], .between)
  else if c = '"' then some ([], .string [])
  else if isNumeralChar c ∧ ¬c.isAlpha then some ([], .numeral [c])
  else if c.isAlpha then some ([], .word [c])
  else (punctuation? c).map fun token => ([token], .between)

/-- The tokens that one more character completes, and the state after it. -/
def lexStep (c : Char) : LexState → Option (List Token × LexState)
  | .between => startToken c
  | .word letters =>
    if c.isAlpha then some ([], .word (c :: letters))
    else do
      let token ← wordToken? letters.reverse
      let (tokens, state) ← startToken c
      return (token :: tokens, state)
  | .numeral chars =>
    if isNumeralChar c then some ([], .numeral (c :: chars))
    else do
      let number ← readNumber chars.reverse
      let (tokens, state) ← startToken c
      return (.number number :: tokens, state)
  | .string chars =>
    if c = '"' then some ([.string (String.ofList chars.reverse)], .between)
    else if c = '\\' then some ([], .escape chars)
    else if c.toNat < 0x20 then none
    else some ([], .string (c :: chars))
  | .escape chars =>
    if c = 'u' then some ([], .unicode chars none 4 0)
    else (shortEscape? c).map fun e => ([], .string (e :: chars))
  | .unicode chars high more value => do
    let digit ← hexValue? c
    let value := value * 16 + digit
    if more ≤ 1 then return ([], ← endUnicode chars value high)
    else return ([], .unicode chars high (more - 1) value)
  | .paired chars high => if c = '\\' then some ([], .pairedEscape chars high) else none
  | .pairedEscape chars high => if c = 'u' then some ([], .unicode chars (some high) 4 0) else none

/-- The tokens that the end of the text completes. -/
def lexEnd : LexState → Option (List Token)
  | .between => some []
  | .word letters => (wordToken? letters.reverse).map ([·])
  | .numeral chars => (readNumber chars.reverse).map ([.number ·])
  | _ => none

/-- The tokens of text read from a given state. -/
def lexFrom : LexState → List Char → Option (List Token)
  | state, [] => lexEnd state
  | state, c :: rest => do
    let (tokens, state) ← lexStep c state
    return tokens ++ (← lexFrom state rest)

/-- The tokens of text, if it consists of tokens. -/
def lex (cs : List Char) : Option (List Token) := lexFrom .between cs

end RecordMapping.Json

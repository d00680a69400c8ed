/-!
# Bytes read as text

Text is stored as UTF-8. Bytes that are not text can still be read as one: each maximal part of
them that begins a character but does not complete it becomes one replacement character.
-/

namespace RecordMapping.Text

/-- The character that stands for bytes that are no text. -/
def replacement : Char := '\ufffd'

/-- What a first byte announces: how many bytes follow, its share of the code point, and the range
of the second byte. The range excludes overlong forms, surrogates and what lies beyond Unicode. -/
def leadByte? (b : UInt8) : Option (Nat × Nat × UInt8 × UInt8) :=
  if 0xc2 ≤ b && b ≤ 0xdf then some (1, b.toNat - 0xc0, 0x80, 0xbf)
  else if b == 0xe0 then some (2, 0, 0xa0, 0xbf)
  else if b == 0xed then some (2, 0xd, 0x80, 0x9f)
  else if 0xe1 ≤ b && b ≤ 0xef then some (2, b.toNat - 0xe0, 0x80, 0xbf)
  else if b == 0xf0 then some (3, 0, 0x90, 0xbf)
  else if b == 0xf4 then some (3, 4, 0x80, 0x8f)
  else if 0xf1 ≤ b && b ≤ 0xf3 then some (3, b.toNat - 0xf0, 0x80, 0xbf)
  else none

/-- Where a reader of bytes stands: between characters, or inside one with `more` bytes to come,
the next of them between `first` and `last`. -/
inductive Utf8State where
  | between
  | inside (more value : Nat) (first last : UInt8)

/-- What a byte means at the start of a character: a character, or the state inside one. -/
def startChar (b : UInt8) : List Char × Utf8State :=
  if b < 0x80 then ([Char.ofNat b.toNat], .between)
  else match leadByte? b with
    | some (more, value, first, last) => ([], .inside more value first last)
    | none => ([replacement], .between)

/-- The characters that one more byte completes, and the state after it. A byte that cannot go on
with the character begun ends it as a replacement and is read anew. -/
def stepByte (b : UInt8) : Utf8State → List Char × Utf8State
  | .between => startChar b
  | .inside more value first last =>
    if first ≤ b && b ≤ last then
      let value := value * 64 + b.toNat % 64
      if more ≤ 1 then ([Char.ofNat value], .between) else ([], .inside (more - 1) value 0x80 0xbf)
    else
      let (cs, state) := startChar b
      (replacement :: cs, state)

/-- The characters of bytes read from a given state. -/
def lossyChars : Utf8State → List UInt8 → List Char
  | .between, [] => []
  | .inside .., [] => [replacement]
  | state, b :: rest =>
    let (cs, state) := stepByte b state
    cs ++ lossyChars state rest

/-- Bytes as text, with replacements for what is no text. -/
def ofBytesLossy (bytes : List UInt8) : String := String.ofList (lossyChars .between bytes)

/-- Bytes as text, if all of them are text. -/
def ofBytes? (bytes : List UInt8) : Option String := String.fromUTF8? ⟨bytes.toArray⟩

/-- The bytes of a text. -/
def toBytes (text : String) : List UInt8 := text.toUTF8.data.toList

end RecordMapping.Text

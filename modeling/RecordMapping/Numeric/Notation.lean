import RecordMapping.Numeric.Shortest

/-!
# Writing a number

A number is written as its shortest decimal, positional or with an exponent. The two places where
the library writes numbers, JSON text and descriptions in messages, differ in a few decisions,
which are the fields of `NumberStyle`.
-/

namespace RecordMapping

/-- The decisions of one written form of numbers. -/
structure NumberStyle where
  /-- The least exponent of the leading digit that is written positionally. -/
  leastPositional : Int
  /-- The greatest exponent of the leading digit that is written positionally. -/
  greatestPositional : Int
  /-- What stands before the digits of an exponent that is not negative. -/
  exponentSign : String
  /-- Which of two equally near shortest decimals is written. -/
  tie : Tie
  /-- What is written for a word that is no number. -/
  notANumber : String
  /-- What is written for infinity, after the sign. -/
  infinity : String

namespace NumberStyle

/-- Places between the point and the digits, or digits before the point, as zeros. -/
def zeros (n : Nat) : String := String.ofList (List.replicate n '0')

/-- Positional notation, with at least one digit on each side of the point. -/
def positional (d : Decimal) : String :=
  let text := toString d.digits
  if d.exponent ≥ 0 then text ++ zeros d.exponent.toNat ++ ".0"
  else
    let places := (-d.exponent).toNat
    let padded := zeros (places + 1 - text.length) ++ text
    String.ofList (padded.toList.take (padded.length - places)) ++ "." ++
      String.ofList (padded.toList.drop (padded.length - places))

/-- One digit, the other digits after a point if there are any, and the exponent. -/
def scientific (style : NumberStyle) (d : Decimal) : String :=
  let exponent := d.leading
  let mark := if exponent < 0 then "-" else style.exponentSign
  let digits :=
    match (toString d.digits).toList with
    | [] => ""
    | [c] => String.ofList [c]
    | c :: rest => String.ofList (c :: '.' :: rest)
  digits ++ "e" ++ mark ++ toString exponent.natAbs

/-- The written form of a decimal. Zero is positional. -/
def decimal (style : NumberStyle) (d : Decimal) : String :=
  if d.digits = 0 ∨ (style.leastPositional ≤ d.leading ∧ d.leading ≤ style.greatestPositional) then
    positional d
  else style.scientific d

/-- The written form of a word of the given format. -/
def unpacked (style : NumberStyle) (f : BinaryFormat) : Unpacked → String
  | ⟨_, .notANumber⟩ => style.notANumber
  | ⟨negative, .infinite⟩ => (if negative then "-" else "") ++ style.infinity
  | ⟨negative, .finite m q⟩ =>
    (if negative then "-" else "") ++ style.decimal (f.shortest style.tie m q)

/-- The written form of a double-precision number. -/
def double (style : NumberStyle) (x : Binary64) : String :=
  style.unpacked BinaryFormat.double x.unpack

/-- The written form of a single-precision number, with the digits that precision needs. -/
def single (style : NumberStyle) (x : Binary32) : String :=
  style.unpacked BinaryFormat.single x.unpack

end NumberStyle

end RecordMapping

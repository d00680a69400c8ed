import RecordMapping.Numeric.Binary

/-!
# Sums of two numbers

A sum of two double-precision numbers that is not carried out holds about twice as many digits as
one number: the high part is the value rounded, and the low part is what the rounding left over.
A product is found from the halves of its factors, whose products are exact.
-/

namespace RecordMapping

/-- A value as the sum of two numbers. -/
structure Expansion where
  high : Binary64
  low : Binary64

namespace Binary64

/-- The number with the 26 last digits of its significand cleared. -/
def leadingHalf (x : Binary64) : Binary64 := ⟨x.bits &&& 0xfffffffffc000000⟩

/-- What the leading half of a number leaves over. -/
def trailingHalf (x : Binary64) : Binary64 := x.sub x.leadingHalf

end Binary64

namespace Expansion

/-- The number nearest to the positive rational `n / d`, and the one nearest to what it leaves
over. -/
def ofRatio (n d : Nat) : Expansion :=
  let high := Binary64.ofRatio false n d
  match high.unpack.magnitude with
  | .finite m q =>
    let up := Nat.pow 2 q.toNat
    let down := Nat.pow 2 (-q).toNat
    let rest : Int := n * down - m * up * d
    ⟨high, .ofRatio (rest < 0) rest.natAbs (d * down)⟩
  | _ => ⟨high, .zero⟩

/-- The product of two sums. The product of the two low parts is too small to count. -/
def mul (x y : Expansion) : Expansion :=
  let outer := x.high.leadingHalf.mul y.high.leadingHalf
  let crossed := (x.high.leadingHalf.mul y.high.trailingHalf).add
    (x.high.trailingHalf.mul y.high.leadingHalf)
  let inner := x.high.trailingHalf.mul y.high.trailingHalf
  let sum := outer.add crossed
  let missed := ((outer.sub sum).add crossed).add inner
  let low := ((x.high.mul y.low).add (x.low.mul y.high)).add missed
  let high := sum.add low
  ⟨high, (sum.sub high).add low⟩

/-- The sum, carried out. -/
def total (x : Expansion) : Binary64 := x.high.add x.low

end Expansion

end RecordMapping

import Mathlib.Algebra.Order.Field.Power
import Mathlib.Data.Rat.Cast.Order
import Mathlib.Tactic.NormNum
import Mathlib.Tactic.Ring
import RecordMapping.Proofs.Numeric.Rounding

/-!
# The rational that a word denotes

`Binary64.rational?` reads the sign, the exponent and the fraction of a word as the interchange
format defines them, without the significands and places of the model. The integer that a number
has is the rational that it denotes (`Binary64.toInt?_eq_some_iff`), and the one that it stands for
as an identifier is the nearest of the range (`Binary64.toInt64?_eq_some_iff`).
-/

namespace RecordMapping

namespace Binary64

open BinaryFormat

/-! ## Fields of a word -/

/-- The exponent, as it is stored. -/
def exponentField (x : Binary64) : Nat := x.bits.toNat / 2 ^ 52 % 2 ^ 11

/-- The digits after the point. -/
def fractionField (x : Binary64) : Nat := x.bits.toNat % 2 ^ 52

/-- What the fields denote without the sign: in front of the point stands a one, unless the exponent
is the least. -/
def magnitude (x : Binary64) : ℚ :=
  if x.exponentField = 0 then 2 ^ (-1022 : ℤ) * (x.fractionField / 2 ^ 52)
  else 2 ^ ((x.exponentField : ℤ) - 1023) * (1 + x.fractionField / 2 ^ 52)

/-- The rational that a word denotes; infinities and what is no number denote none. -/
def rational? (x : Binary64) : Option ℚ :=
  if x.exponentField = 2047 then none
  else some (if x.bits.toNat / 2 ^ 63 % 2 = 1 then -x.magnitude else x.magnitude)

variable {x : Binary64}

/-- A word with the greatest exponent is not finite. -/
theorem unpack_special (h : x.exponentField = 2047) :
    ∃ negative, x.unpack = ⟨negative, .infinite⟩ ∨ x.unpack = ⟨negative, .notANumber⟩ := by
  have hspecial : x.bits.toNat / Nat.pow 2 double.fractionBits % Nat.pow 2 double.exponentBits
      = double.specialExponent := h
  unfold unpack BinaryFormat.unpack
  dsimp only
  rw [if_pos hspecial]
  split
  · exact ⟨_, .inl rfl⟩
  · exact ⟨_, .inr rfl⟩

/-- Other words are the significand and the place that their fields denote. -/
theorem exists_unpack_finite (h : x.exponentField ≠ 2047) : ∃ m q,
    x.unpack = ⟨decide (x.bits.toNat / 2 ^ 63 % 2 = 1), .finite m q⟩ ∧
      (m : ℚ) * 2 ^ q = x.magnitude := by
  have htwo : (2 : ℚ) ≠ 0 := by norm_num
  have hspecial : ¬x.bits.toNat / Nat.pow 2 double.fractionBits % Nat.pow 2 double.exponentBits
      = double.specialExponent := h
  have hfield : x.bits.toNat / Nat.pow 2 double.fractionBits % Nat.pow 2 double.exponentBits
      = x.exponentField := rfl
  have hfraction : x.bits.toNat % Nat.pow 2 double.fractionBits = x.fractionField := rfl
  unfold unpack BinaryFormat.unpack magnitude
  dsimp only
  rw [if_neg hspecial, hfield, hfraction, leastExponent_double]
  split
  · refine ⟨_, _, rfl, ?_⟩
    rw [show (-1074 : ℤ) = -1022 - 52 by norm_num, zpow_sub₀ htwo]
    ring
  · refine ⟨_, _, rfl, ?_⟩
    rw [show -1074 + (x.exponentField : ℤ) - 1 = x.exponentField - 1023 - 52 by ring,
      zpow_sub₀ htwo]
    have hpow : Nat.pow 2 double.fractionBits = 2 ^ 52 := by decide
    rw [hpow]
    push_cast
    ring

/-! ## Integral numbers -/

/-- A significand from the point on is a whole number. -/
theorem natCast_mul_zpow (m : ℕ) {q : ℤ} (hq : 0 ≤ q) :
    ((m * Nat.pow 2 q.toNat : ℕ) : ℚ) = m * 2 ^ q := by
  rw [two_zpow_of_nonneg hq, Nat.cast_mul, Nat.pow_eq, Nat.cast_pow, Nat.cast_ofNat]

/-- One with places after the point is a whole number if and only if these divide it. -/
theorem natCast_eq_mul_zpow_iff (m k : ℕ) {q : ℤ} (hq : ¬0 ≤ q) :
    (k : ℚ) = m * 2 ^ q ↔ m = k * Nat.pow 2 (-q).toNat := by
  have hpos : (0 : ℚ) < 2 ^ (-q).toNat := by positivity
  rw [two_zpow_of_neg hq, eq_mul_inv_iff_mul_eq₀ hpos.ne', Nat.pow_eq]
  constructor
  · intro h
    exact_mod_cast h.symm
  · intro h
    exact_mod_cast h.symm

/-- A signed magnitude is an integer if and only if the magnitude is one. -/
theorem signed_eq_intCast_iff (negative : Bool) {r : ℚ} (hr : 0 ≤ r) (n : ℤ) :
    (if negative then -r else r) = n ↔
      ∃ k : ℕ, (k : ℚ) = r ∧ (if negative then -(k : ℤ) else k) = n := by
  constructor
  · intro h
    refine ⟨n.natAbs, ?_, ?_⟩
    · rw [Nat.cast_natAbs, Int.cast_abs, ← h]
      cases negative
      · exact abs_of_nonneg hr
      · rw [if_pos rfl, abs_neg, abs_of_nonneg hr]
    · cases negative
      · have hn : (0 : ℚ) ≤ n := h ▸ hr
        exact Int.natAbs_of_nonneg (by exact_mod_cast hn)
      · have hn : (n : ℚ) ≤ 0 := by
          rw [← h, if_pos rfl]
          exact neg_nonpos.2 hr
        have hn : n ≤ 0 := by exact_mod_cast hn
        rw [if_pos rfl]
        omega
  · rintro ⟨k, rfl, rfl⟩
    cases negative
    · simp
    · simp

/-- A number has an integer if and only if this is the rational that it denotes. -/
theorem toInt?_eq_some_iff {n : ℤ} : x.toInt? = some n ↔ x.rational? = some (n : ℚ) := by
  by_cases hspecial : x.exponentField = 2047
  · have hnone : x.toInt? = none := by
      unfold toInt?
      obtain ⟨negative, h | h⟩ := unpack_special hspecial <;> rw [h]
    rw [hnone, rational?, if_pos hspecial]
    simp
  obtain ⟨m, q, hunpack, hvalue⟩ := exists_unpack_finite hspecial
  generalize hnegative : decide (x.bits.toNat / 2 ^ 63 % 2 = 1) = negative at hunpack
  have hrational : x.rational? = some (if negative then -(m * 2 ^ q : ℚ) else m * 2 ^ q) := by
    rw [rational?, if_neg hspecial, hvalue, ← hnegative]
    simp only [decide_eq_true_eq]
  have hpos : (0 : ℚ) ≤ m * 2 ^ q := by positivity
  rw [hrational, Option.some.injEq, signed_eq_intCast_iff negative hpos]
  unfold toInt?
  rw [hunpack]
  dsimp only
  split
  · next hq =>
    rw [Option.some.injEq]
    constructor
    · rintro rfl
      exact ⟨_, natCast_mul_zpow m hq, rfl⟩
    · rintro ⟨k, hk, rfl⟩
      rw [← natCast_mul_zpow m hq, Nat.cast_inj] at hk
      rw [hk]
  · next hq =>
    simp only [natCast_eq_mul_zpow_iff m _ hq]
    have hplaces : 0 < Nat.pow 2 (-q).toNat := Nat.two_pow_pos _
    split
    · next hdvd =>
      rw [Option.some.injEq]
      constructor
      · rintro rfl
        exact ⟨_, (Nat.div_mul_cancel (Nat.dvd_of_mod_eq_zero hdvd)).symm, rfl⟩
      · rintro ⟨k, rfl, rfl⟩
        rw [Nat.mul_div_cancel _ hplaces]
    · next hdvd =>
      constructor
      · intro h
        cases h
      · rintro ⟨k, rfl, -⟩
        exact absurd (Nat.mul_mod_left _ _) hdvd

/-! ## Identifiers -/

/-- The nearest integer of the range. -/
theorem toInt_clampToInt64 (n : ℤ) :
    (clampToInt64 n).toInt = max (-2 ^ 63) (min n (2 ^ 63 - 1)) := by
  have hmin : Int64.minValue.toInt = -2 ^ 63 := by decide
  have hmax : Int64.maxValue.toInt = 2 ^ 63 - 1 := by decide
  unfold clampToInt64
  split
  · omega
  · split
    · omega
    · rw [Int64.toInt_ofInt_of_le (by omega) (by omega)]
      omega

/-- A number stands for the integer that it denotes, or for the nearer end of the range if that is
beyond it. -/
theorem toInt64?_eq_some_iff {i : Int64} : x.toInt64? = some i ↔
    ∃ n : ℤ, x.rational? = some (n : ℚ) ∧ i.toInt = max (-2 ^ 63) (min n (2 ^ 63 - 1)) := by
  unfold toInt64?
  simp only [Option.map_eq_some_iff, toInt?_eq_some_iff]
  refine exists_congr fun n => and_congr_right fun _ => ?_
  rw [← toInt_clampToInt64, ← Int64.toInt_inj, eq_comm]

/-- What is no integer stands for nothing. -/
theorem toInt64?_eq_none_iff :
    x.toInt64? = none ↔ ∀ n : ℤ, x.rational? ≠ some (n : ℚ) := by
  unfold toInt64?
  rw [Option.map_eq_none_iff, Option.eq_none_iff_forall_ne_some]
  simp only [ne_eq, toInt?_eq_some_iff]

/-- A number is an integer beyond the range of identifiers. -/
def Overshoots (x : Binary64) : Prop :=
  ∃ n : ℤ, x.rational? = some (n : ℚ) ∧ (n < -2 ^ 63 ∨ 2 ^ 63 ≤ n)

/-- A number stands for exactly the integer that it is if and only if it is not beyond the range. -/
theorem toInt64?_exact_iff :
    (∀ i : Int64, x.toInt64? = some i ↔ x.rational? = some (i.toInt : ℚ)) ↔ ¬x.Overshoots := by
  simp only [toInt64?_eq_some_iff]
  constructor
  · rintro hexact ⟨n, hn, hbeyond⟩
    have heq := (hexact (clampToInt64 n)).1 ⟨n, hn, toInt_clampToInt64 n⟩
    rw [hn, Option.some.injEq, Int.cast_inj, toInt_clampToInt64] at heq
    omega
  · intro hwithin i
    constructor
    · rintro ⟨n, hn, hi⟩
      have hrange : ¬(n < -2 ^ 63 ∨ 2 ^ 63 ≤ n) := fun h => hwithin ⟨n, hn, h⟩
      rw [hn, hi, show max (-2 ^ 63) (min n (2 ^ 63 - 1)) = n by omega]
    · intro hi
      have hle := i.le_toInt
      have hlt := i.toInt_lt
      exact ⟨i.toInt, hi, by omega⟩

end Binary64

end RecordMapping

import Mathlib.Algebra.Order.Field.Power
import Mathlib.Data.Rat.Cast.Order
import Mathlib.Tactic.FieldSimp
import Mathlib.Tactic.Linarith
import Mathlib.Tactic.NormNum
import Mathlib.Tactic.Positivity
import Mathlib.Tactic.Ring
import RecordMapping.Numeric.Shortest

/-!
# The shortest decimal is near

The decimal that is written for a number lies in the interval of the rationals that round to it, so
it is greater than the number by half a unit in the last place at most
(`BinaryFormat.value_shortest_le`).
-/

namespace RecordMapping

namespace Decimal

/-- What a decimal denotes. -/
def value (d : Decimal) : ℚ := d.digits * 10 ^ d.exponent

/-- Zero has one form. -/
def IsNormal (d : Decimal) : Prop := d.digits = 0 → d.exponent = 0

/-- Dropping trailing zeros changes nothing. -/
theorem value_normal (digits : Nat) (exponent : Int) :
    (normal digits exponent).value = digits * 10 ^ exponent := by
  fun_induction normal digits exponent with
  | case1 => simp [value]
  | case2 digits exponent _ hzero ih =>
    have hdigits : ((digits / 10 : Nat) : ℚ) * 10 = digits := by
      exact_mod_cast Nat.div_mul_cancel (Nat.dvd_of_mod_eq_zero hzero)
    rw [ih, zpow_add_one₀ (by norm_num)]
    calc ((digits / 10 : Nat) : ℚ) * (10 ^ exponent * 10)
        = (digits / 10 : Nat) * 10 * 10 ^ exponent := by ring
      _ = digits * 10 ^ exponent := by rw [hdigits]
  | case3 => rfl

theorem isNormal_normal (digits : Nat) (exponent : Int) : (normal digits exponent).IsNormal := by
  fun_induction normal digits exponent with
  | case1 => exact fun _ => rfl
  | case2 digits exponent _ _ ih => exact ih
  | case3 digits exponent hne _ => exact fun hzero => absurd hzero hne

end Decimal

namespace RoundingInterval

/-- The upper end of an interval. -/
def upper (r : RoundingInterval) : ℚ := r.high / r.denominator

theorem upper_ofFinite (f : BinaryFormat) (m : Nat) (q : Int) :
    (ofFinite f m q).upper = (m + 1 / 2) * 2 ^ q ∧ 0 < (ofFinite f m q).denominator := by
  unfold ofFinite upper
  dsimp only
  split
  · next hq =>
    have hpow : (2 : ℚ) ^ q = 2 ^ 2 * 2 ^ (q - 2).toNat := by
      rw [← zpow_natCast, ← zpow_natCast, ← zpow_add₀ (by norm_num)]
      congr 1
      push_cast
      omega
    refine ⟨?_, Nat.one_pos⟩
    rw [hpow, Nat.cast_one, div_one, Nat.cast_mul, Nat.pow_eq, Nat.cast_pow]
    push_cast
    ring
  · next hq =>
    have hpow : (2 : ℚ) ^ q = 2 ^ 2 / 2 ^ (2 - q).toNat := by
      rw [← zpow_natCast, ← zpow_natCast, ← zpow_sub₀ (by norm_num)]
      congr 1
      push_cast
      omega
    refine ⟨?_, Nat.two_pow_pos _⟩
    rw [hpow, mul_one, Nat.pow_eq, Nat.cast_pow]
    push_cast
    ring

theorem upper_inUnits (r : RoundingInterval) (hr : 0 < r.denominator) (e : Int) :
    (r.inUnits e).upper = r.upper / 10 ^ e ∧ 0 < (r.inUnits e).denominator := by
  unfold inUnits upper
  split
  · next he =>
    have hpow : (10 : ℚ) ^ e = 10 ^ e.toNat := by
      rw [← zpow_natCast, Int.toNat_of_nonneg he]
    have hpos : 0 < Nat.pow 10 e.toNat := Nat.pow_pos (by decide)
    refine ⟨?_, Nat.mul_pos hr hpos⟩
    rw [hpow, Nat.cast_mul, Nat.pow_eq, Nat.cast_pow, Nat.cast_ofNat, div_div]
  · next he =>
    have hpow : (10 : ℚ) ^ e = (10 ^ (-e).toNat)⁻¹ := by
      rw [← zpow_natCast, Int.toNat_of_nonneg (by omega), zpow_neg, inv_inv]
    refine ⟨?_, hr⟩
    rw [hpow, Nat.cast_mul, Nat.pow_eq, Nat.cast_pow, Nat.cast_ofNat, div_inv_eq_mul]
    ring

theorem le_upper_of_contains {r : RoundingInterval} (hr : 0 < r.denominator) {n : Nat}
    (h : r.contains n = true) (hle : r.low ≤ r.high) : (n : ℚ) ≤ r.upper := by
  have hnat : n * r.denominator ≤ r.high := by
    unfold contains at h
    simp only [Bool.or_eq_true, Bool.and_eq_true, decide_eq_true_eq, beq_iff_eq] at h
    omega
  rw [upper, le_div_iff₀ (Nat.cast_pos.2 hr)]
  exact_mod_cast hnat

/-- The nearest integer is one of the interval. -/
theorem contains_of_nearest? {r : RoundingInterval} {tie : Tie} {n : Nat}
    (h : r.nearest? tie = some n) : r.contains n = true := by
  unfold nearest? at h
  dsimp only at h
  split at h
  · cases h
  · next hbelow _ =>
    cases h
    exact hbelow
  · next _ habove =>
    cases h
    exact habove
  · next hbelow habove =>
    obtain rfl := Option.some.inj h
    split
    · exact habove
    · exact hbelow

theorem low_le_high_ofFinite (f : BinaryFormat) (m : Nat) (q : Int) :
    (ofFinite f m q).low ≤ (ofFinite f m q).high := by
  unfold ofFinite
  exact Nat.mul_le_mul_right _ (by omega)

theorem low_le_high_inUnits {r : RoundingInterval} (h : r.low ≤ r.high) (e : Int) :
    (r.inUnits e).low ≤ (r.inUnits e).high := by
  unfold inUnits
  split
  · exact h
  · exact Nat.mul_le_mul_right _ h

/-- A decimal of the interval is not beyond its upper end. -/
theorem value_le_of_onGrid? {r : RoundingInterval} (hr : 0 < r.denominator) (hle : r.low ≤ r.high)
    {tie : Tie} {e : Int} {d : Decimal} (h : r.onGrid? tie e = some d) :
    d.value ≤ r.upper ∧ d.IsNormal := by
  obtain ⟨n, hn, rfl⟩ := Option.map_eq_some_iff.1 h
  obtain ⟨hupper, hpos⟩ := upper_inUnits r hr e
  have hcontains := le_upper_of_contains hpos (contains_of_nearest? hn) (low_le_high_inUnits hle e)
  rw [hupper, le_div_iff₀ (by positivity)] at hcontains
  rw [Decimal.value_normal]
  exact ⟨hcontains, Decimal.isNormal_normal n e⟩

end RoundingInterval

/-- The shortest decimal for a number exceeds it by half a unit in the last place at most. -/
theorem BinaryFormat.value_shortest_le (f : BinaryFormat) (tie : Tie) (m : Nat) (q : Int) :
    (f.shortest tie m q).value ≤ (m + 1 / 2) * 2 ^ q ∧ (f.shortest tie m q).IsNormal := by
  have hzero : (Decimal.mk 0 0).value ≤ ((m : ℚ) + 1 / 2) * 2 ^ q ∧ (Decimal.mk 0 0).IsNormal := by
    refine ⟨?_, fun _ => rfl⟩
    rw [Decimal.value, Nat.cast_zero, zero_mul]
    positivity
  unfold shortest
  split
  · exact hzero
  dsimp only
  obtain ⟨hupper, hpos⟩ := RoundingInterval.upper_ofFinite f m q
  have hle := RoundingInterval.low_le_high_ofFinite f m q
  generalize RoundingInterval.ofFinite f m q = r at *
  rw [← hupper]
  rw [← hupper] at hzero
  generalize hfound : List.findSome? _ _ = found
  cases found with
  | none => exact hzero
  | some d =>
    obtain ⟨e, -, hgrid⟩ := List.exists_of_findSome?_eq_some hfound
    exact RoundingInterval.value_le_of_onGrid? hpos hle hgrid

end RecordMapping

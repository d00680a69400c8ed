import RecordMapping.Proofs.Json.Numeral
import RecordMapping.Proofs.Numeric.Rounding

/-!
# Numerals read by scaling

A numeral with a point or an exponent is read by scaling: its digits are rounded to a number, and
that is multiplied or divided by a rounded power of ten. Division always ends with a finite number.
Multiplication does where the value of the numeral leaves room for two roundings
(`Numeral.isSome_real?`).
-/

namespace RecordMapping

/-! ## Digits -/

namespace Text

theorem foldl_digits (n : Nat) (cs : List Char) :
    cs.foldl (fun n c => 10 * n + (c.toNat - '0'.toNat)) n
      = n * 10 ^ cs.length + digitsValue cs := by
  unfold digitsValue
  induction cs generalizing n with
  | nil => simp
  | cons c rest ih =>
    rw [List.foldl_cons, List.foldl_cons, ih, ih (10 * 0 + _), List.length_cons, pow_succ]
    ring

theorem digitsValue_append (a b : List Char) :
    digitsValue (a ++ b) = digitsValue a * 10 ^ b.length + digitsValue b := by
  conv_lhs => unfold digitsValue
  rw [List.foldl_append, foldl_digits]
  rfl

theorem digitsValue_cons (c : Char) (rest : List Char) :
    digitsValue (c :: rest) = Json.Numeral.digitValue c * 10 ^ rest.length + digitsValue rest := by
  have h := digitsValue_append [c] rest
  rw [List.singleton_append] at h
  rw [h]
  simp [digitsValue, Json.Numeral.digitValue]

/-- Digits denote less than the power of ten with as many zeros. -/
theorem digitsValue_lt {cs : List Char} (h : ∀ c ∈ cs, c.isDigit = true) :
    digitsValue cs < 10 ^ cs.length := by
  induction cs with
  | nil => exact Nat.one_pos
  | cons c rest ih =>
    have hdigit : Json.Numeral.digitValue c ≤ 9 := by
      have hc := h c List.mem_cons_self
      rw [Char.isDigit, Bool.and_eq_true, decide_eq_true_eq, decide_eq_true_eq] at hc
      have hle : c.toNat ≤ 57 := hc.2
      unfold Json.Numeral.digitValue
      rw [show '0'.toNat = 48 from rfl]
      omega
    have hrest := ih fun c' hc' => h c' (List.mem_cons_of_mem c hc')
    rw [digitsValue_cons, List.length_cons, pow_succ]
    calc Json.Numeral.digitValue c * 10 ^ rest.length + digitsValue rest
        < 9 * 10 ^ rest.length + 10 ^ rest.length :=
          Nat.add_lt_add_of_le_of_lt (Nat.mul_le_mul_right _ hdigit) hrest
      _ = 10 ^ rest.length * 10 := by ring

end Text

namespace Json.Numeral

/-! ## The significand -/

/-- What a numeral denotes, but for its sign. -/
def value (numeral : Numeral) : ℚ :=
  Text.digitsValue (numeral.whole ++ numeral.fraction) *
    10 ^ (numeral.exponent.getD 0 - numeral.fraction.length)

/-- Digits that are left over count as zeros. -/
theorem accumulate_spec (s : Nat) (cs : List Char) :
    (accumulate s cs).2 ≤ cs.length ∧
      (accumulate s cs).1 * 10 ^ (accumulate s cs).2
        ≤ s * 10 ^ cs.length + Text.digitsValue cs ∧
      (s < UInt64.size → (accumulate s cs).1 < UInt64.size) := by
  induction cs generalizing s with
  | nil => exact ⟨Nat.le_refl 0, Nat.le_refl _, id⟩
  | cons c rest ih =>
    unfold accumulate
    dsimp only
    split
    · next hfits =>
      obtain ⟨hunused, hle, hlt⟩ := ih (s * 10 + digitValue c)
      refine ⟨hunused.trans (Nat.le_succ _), hle.trans_eq ?_, fun _ => hlt hfits⟩
      rw [Text.digitsValue_cons, List.length_cons, pow_succ]
      ring
    · exact ⟨Nat.le_refl _, Nat.le_add_right _ _, id⟩

/-- Where all digits fit, none is left over. -/
theorem accumulate_of_lt {s : Nat} {cs : List Char}
    (h : s * 10 ^ cs.length + Text.digitsValue cs < UInt64.size) :
    accumulate s cs = (s * 10 ^ cs.length + Text.digitsValue cs, 0) := by
  induction cs generalizing s with
  | nil => simp [accumulate, Text.digitsValue]
  | cons c rest ih =>
    have hstep : s * 10 ^ (c :: rest).length + Text.digitsValue (c :: rest)
        = (s * 10 + digitValue c) * 10 ^ rest.length + Text.digitsValue rest := by
      rw [Text.digitsValue_cons, List.length_cons, pow_succ]
      ring
    rw [hstep] at h ⊢
    have hpos : 0 < 10 ^ rest.length := Nat.pow_pos (by decide)
    have hfits : s * 10 + digitValue c < UInt64.size :=
      (Nat.le_mul_of_pos_right _ hpos).trans_lt ((Nat.le_add_right _ _).trans_lt h)
    unfold accumulate
    dsimp only
    rw [if_pos hfits]
    exact ih h

/-- Where the digits before the point fit, the significand with its power of ten is not greater than
what the numeral denotes. -/
theorem scaled_spec {numeral : Numeral} (h : Text.digitsValue numeral.whole < UInt64.size) :
    numeral.scaled.1 < UInt64.size ∧
      (numeral.scaled.1 : ℚ) * 10 ^ numeral.scaled.2 ≤ numeral.value := by
  have hwhole : accumulate 0 numeral.whole = (Text.digitsValue numeral.whole, 0) := by
    have hsum : 0 * 10 ^ numeral.whole.length + Text.digitsValue numeral.whole
        = Text.digitsValue numeral.whole := by omega
    rw [accumulate_of_lt (hsum.trans_lt h), hsum]
  obtain ⟨hunused, hle, hlt⟩ := accumulate_spec (Text.digitsValue numeral.whole) numeral.fraction
  rw [← Text.digitsValue_append] at hle
  unfold scaled value
  rw [hwhole]
  dsimp only
  generalize accumulate (Text.digitsValue numeral.whole) numeral.fraction = r at *
  refine ⟨hlt h, ?_⟩
  -- the power makes up for the digits after the point that were used
  have hpower : ((0 : Nat) : Int) - (numeral.fraction.length - r.2 : Nat) + numeral.exponent.getD 0
      = r.2 + (numeral.exponent.getD 0 - numeral.fraction.length) := by omega
  rw [hpower, zpow_add₀ (by norm_num), zpow_natCast, ← mul_assoc]
  gcongr
  exact_mod_cast hle

/-! ## Scaling -/

open BinaryFormat Binary64

/-- By how much one rounding can make a number greater. -/
def slack : ℚ := 1 + 1 / 2 ^ 53

theorem one_le_slack : 1 ≤ slack := by
  rw [slack]
  norm_num

/-- The midpoint from which on numbers are infinite, as an integer. -/
def midpoint : Nat := (2 ^ 54 - 1) * 2 ^ 970

theorem overflow_eq : overflow = (midpoint : ℚ) := by
  have hpow : (2 : ℚ) ^ greatestPlace = 2 * 2 ^ 970 := by
    rw [← pow_succ', ← zpow_natCast]
    rfl
  rw [overflow, hpow, midpoint, Nat.cast_mul, Nat.cast_pow, Nat.cast_ofNat]
  generalize (2 : ℚ) ^ 970 = unit
  push_cast
  ring

/-- The significand is rounded to a finite number. -/
theorem exists_unpack_ofNat {n : Nat} (h : n < UInt64.size) :
    ∃ m q, (ofInt (n : Int)).unpack = ⟨false, .finite m q⟩ ∧ (m : ℚ) * 2 ^ q ≤ n * slack := by
  have hint : ofInt (n : Int) = ofRatio false n 1 := by
    unfold ofInt
    rw [Int.natAbs_natCast, decide_eq_false (by omega)]
  rw [hint]
  rcases Nat.eq_zero_or_pos n with rfl | hn
  · exact ⟨0, -1074, by decide, by norm_num⟩
  have hfinite : (n : ℚ) / (1 : Nat) < overflow := by
    have hsize : UInt64.size ≤ midpoint := by decide +kernel
    rw [Nat.cast_one, div_one, overflow_eq]
    exact Nat.cast_lt.2 (h.trans_le hsize)
  obtain ⟨m, q, hunpack, hnear⟩ := exists_unpack_ofRatio false Nat.one_pos hfinite
  have hone : (1 : ℚ) ≤ n / (1 : Nat) := by
    rw [Nat.cast_one, div_one]
    exact_mod_cast hn
  obtain ⟨-, -, hle⟩ := hnear hone
  rw [Nat.cast_one, div_one] at hle
  exact ⟨m, q, hunpack, hle⟩

/-- Powers of ten are rounded to finite numbers from one on. -/
theorem exists_unpack_powerOfTen {k : Nat} (hk : k ≤ greatestPower) :
    ∃ m q, (powerOfTen k).unpack = ⟨false, .finite m q⟩ ∧ 2 ^ 52 ≤ m ∧ -52 ≤ q ∧
      (m : ℚ) * 2 ^ q ≤ 10 ^ k * slack := by
  have hmost : 10 ^ greatestPower < midpoint := by decide +kernel
  have hpow : 10 ^ k ≤ 10 ^ greatestPower := Nat.pow_le_pow_right (by decide) hk
  have hfinite : ((Nat.pow 10 k : Nat) : ℚ) / (1 : Nat) < overflow := by
    rw [Nat.cast_one, div_one, overflow_eq]
    exact Nat.cast_lt.2 (hpow.trans_lt hmost)
  obtain ⟨m, q, hunpack, hnear⟩ := exists_unpack_ofRatio false Nat.one_pos hfinite
  rw [Nat.cast_one, div_one, Nat.pow_eq, Nat.cast_pow, Nat.cast_ofNat] at hnear
  obtain ⟨hm, hq, hle⟩ := hnear (one_le_pow₀ (by norm_num))
  exact ⟨m, q, hunpack, hm, hq, hle⟩

/-- Division by powers of ten ends with a finite number. -/
theorem isFinite_scaleDown {x : Binary64} (h : x.isFinite = true) (k : Nat) :
    (scaleDown x k).isFinite = true := by
  have hdiv : ∀ x : Binary64, x.isFinite = true → ∀ k ≤ greatestPower,
      (x.div (powerOfTen k)).isFinite = true := by
    intro x hx k hk
    obtain ⟨_, _, _, hfinite⟩ := exists_unpack_of_isFinite hx
    obtain ⟨m, q, hunpack, hm, hq, -⟩ := exists_unpack_powerOfTen hk
    exact isFinite_div hfinite hunpack hm hq
  fun_induction scaleDown x k with
  | case1 x k hk => exact hdiv x h k hk
  | case2 x k _ _ => exact h
  | case3 x k _ _ ih => exact ih (hdiv x h greatestPower (Nat.le_refl _))

/-- Multiplication by a power of ten gives a finite number, where the exact product leaves room for
two roundings. -/
theorem exists_scaleUp? {n : Nat} (hn : n < UInt64.size) {k : Nat}
    (h : (n : ℚ) * 10 ^ k * (slack * slack) < overflow) :
    ∃ y, scaleUp? (ofInt (n : Int)) k = some y ∧ y.isFinite = true := by
  obtain ⟨m, q, hstart, hle⟩ := exists_unpack_ofNat hn
  unfold scaleUp?
  by_cases hk : k ≤ greatestPower
  · obtain ⟨m', q', hpower, -, -, hle'⟩ := exists_unpack_powerOfTen hk
    have hproduct : (m : ℚ) * 2 ^ q * (m' * 2 ^ q') < overflow :=
      calc (m : ℚ) * 2 ^ q * (m' * 2 ^ q') ≤ n * slack * (10 ^ k * slack) :=
          mul_le_mul hle hle' (by positivity) ((by positivity : (0 : ℚ) ≤ m * 2 ^ q).trans hle)
        _ = n * 10 ^ k * (slack * slack) := by ring
        _ < overflow := h
    have hfinite := isFinite_mul hstart hpower hproduct
    have hinfinite : ((ofInt (n : Int)).mul (powerOfTen k)).isInfinite = false := by
      unfold isFinite at hfinite
      unfold isInfinite
      split at hfinite
      · next hmagnitude =>
        rw [hmagnitude]
        rfl
      · cases hfinite
    rw [if_pos hk]
    dsimp only
    rw [hinfinite]
    exact ⟨_, rfl, hfinite⟩
  · -- no other significand than zero is small enough for such a power
    have hzero : n = 0 := by
      by_contra hne
      have hone : (1 : ℚ) ≤ n := by exact_mod_cast Nat.pos_of_ne_zero hne
      have hpow : 10 ^ (greatestPower + 1) ≤ 10 ^ k :=
        Nat.pow_le_pow_right (by decide) (Nat.lt_of_not_le hk)
      have hmost : midpoint ≤ 10 ^ (greatestPower + 1) := by decide +kernel
      have hover : overflow ≤ (10 : ℚ) ^ k := by
        have hcast : ((10 ^ k : Nat) : ℚ) = 10 ^ k := by rw [Nat.cast_pow, Nat.cast_ofNat]
        rw [overflow_eq, ← hcast]
        exact Nat.cast_le.2 (hmost.trans hpow)
      have hslack := one_le_slack
      have : overflow ≤ (n : ℚ) * 10 ^ k * (slack * slack) :=
        calc overflow ≤ 1 * 10 ^ k * (1 * 1) := by linarith
          _ ≤ n * 10 ^ k * (slack * slack) := by gcongr
      exact absurd h (not_lt.2 this)
    subst hzero
    rw [if_neg hk]
    exact ⟨_, rfl, by decide⟩

/-- A numeral is read by scaling, if what it denotes leaves room for two roundings. -/
theorem isSome_real? {numeral : Numeral} (hwhole : Text.digitsValue numeral.whole < UInt64.size)
    (hvalue : numeral.value * (slack * slack) < overflow) : numeral.real?.isSome = true := by
  obtain ⟨hsignificand, hle⟩ := scaled_spec hwhole
  have hfinish : ∀ x : Binary64, x.isFinite = true →
      (JsonNumber.ofReal? (if numeral.negative then x.neg else x)).isSome = true := by
    intro x hx
    have hsigned : (if numeral.negative then x.neg else x).isFinite = true := by
      split
      · exact isFinite_neg hx
      · exact hx
    rw [JsonNumber.ofReal?, dif_pos hsigned]
    rfl
  -- a positive power multiplies once, a negative one divides as often as it takes
  unfold real?
  generalize numeral.scaled = scaled at *
  obtain ⟨significand, power⟩ := scaled
  dsimp only at hsignificand hle ⊢
  by_cases hpower : power ≥ 0
  · have hpow : (10 : ℚ) ^ power = 10 ^ power.toNat := by
      rw [← zpow_natCast, Int.toNat_of_nonneg hpower]
    have hproduct : (significand : ℚ) * 10 ^ power.toNat * (slack * slack) < overflow := by
      have hslack : 0 ≤ slack * slack := mul_self_nonneg slack
      rw [← hpow]
      exact (mul_le_mul_of_nonneg_right hle hslack).trans_lt hvalue
    obtain ⟨y, hy, hfinite⟩ := exists_scaleUp? hsignificand hproduct
    rw [if_pos hpower, hy]
    exact hfinish y hfinite
  · obtain ⟨m, q, hstart, -⟩ := exists_unpack_ofNat hsignificand
    rw [if_neg hpower]
    exact hfinish _ (isFinite_scaleDown (isFinite_of_unpack hstart) _)

end Json.Numeral

end RecordMapping

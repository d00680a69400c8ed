import Mathlib.Algebra.Order.Field.Power
import Mathlib.Data.Rat.Cast.Order
import Mathlib.Tactic.FieldSimp
import Mathlib.Tactic.Linarith
import Mathlib.Tactic.NormNum
import Mathlib.Tactic.Positivity
import Mathlib.Tactic.Ring
import RecordMapping.Numeric.Binary

/-!
# Rounding to a finite number

A rational below the midpoint beyond the greatest finite number is rounded to a finite word
(`Binary64.exists_unpack_ofRatio`), and from one on the word is too great by a factor of
`1 + 2 ^ -53` at most. So quotients by a number that is not less than one are finite, and so are
products that leave room for the errors of their factors.
-/

namespace RecordMapping

namespace BinaryFormat

/-! ## The nearest integer -/

theorem div_le_roundedQuotient (n d : Nat) : n / d ≤ roundedQuotient n d := by
  unfold roundedQuotient
  dsimp only
  split <;> omega

/-- Rounding adds one half at most. -/
theorem roundedQuotient_le (n : Nat) {d : Nat} (hd : 0 < d) :
    (roundedQuotient n d : ℚ) ≤ n / d + 1 / 2 := by
  have hnat : 2 * (roundedQuotient n d * d) ≤ 2 * n + d := by
    have hdiv := Nat.div_add_mod n d
    rw [Nat.mul_comm] at hdiv
    unfold roundedQuotient
    dsimp only
    split
    · next hup =>
      have hhalf : d ≤ 2 * (n % d) := by
        rw [Bool.or_eq_true, Bool.and_eq_true, decide_eq_true_eq, beq_iff_eq] at hup
        omega
      rw [Nat.add_mul, Nat.one_mul]
      omega
    · omega
  have hpos : (0 : ℚ) < d := Nat.cast_pos.2 hd
  have hcast : 2 * ((roundedQuotient n d : ℚ) * d) ≤ 2 * n + d := by exact_mod_cast hnat
  rw [← mul_le_mul_iff_of_pos_right hpos]
  calc (roundedQuotient n d : ℚ) * d ≤ n + d / 2 := by linarith
    _ = (n / d + 1 / 2) * d := by field_simp

/-! ## The last place -/

theorem two_zpow_of_nonneg {e : Int} (he : 0 ≤ e) : (2 : ℚ) ^ e = 2 ^ e.toNat := by
  rw [← zpow_natCast, Int.toNat_of_nonneg he]

theorem two_zpow_of_neg {e : Int} (he : ¬0 ≤ e) : (2 : ℚ) ^ e = (2 ^ (-e).toNat)⁻¹ := by
  rw [← zpow_natCast, Int.toNat_of_nonneg (by omega), zpow_neg, inv_inv]

/-- A ratio in units of a power of two, as it is divided out. -/
theorem exists_scaled (n : Nat) {d : Nat} (hd : 0 < d) (place : Int) :
    ∃ n' d' : Nat, 0 < d' ∧ (n' : ℚ) / d' = n / d / 2 ^ place ∧
      ∀ g : Nat → Nat → Nat,
        (if place ≥ 0 then g n (d * Nat.pow 2 place.toNat)
          else g (n * Nat.pow 2 (-place).toNat) d) = g n' d' := by
  by_cases hplace : 0 ≤ place
  · have hpos : 0 < Nat.pow 2 place.toNat := Nat.two_pow_pos _
    refine ⟨n, d * Nat.pow 2 place.toNat, Nat.mul_pos hd hpos, ?_, fun g => if_pos hplace⟩
    rw [two_zpow_of_nonneg hplace, Nat.cast_mul, Nat.pow_eq, Nat.cast_pow, Nat.cast_ofNat, div_div]
  · refine ⟨n * Nat.pow 2 (-place).toNat, d, hd, ?_, fun g => if_neg hplace⟩
    rw [two_zpow_of_neg hplace, Nat.cast_mul, Nat.pow_eq, Nat.cast_pow, Nat.cast_ofNat, div_inv_eq_mul]
    ring

theorem log2_bounds {n : Nat} (hn : 0 < n) :
    (2 : ℚ) ^ (n.log2 : Int) ≤ n ∧ (n : ℚ) < 2 ^ ((n.log2 : Int) + 1) := by
  rw [zpow_add_one₀ (by norm_num), zpow_natCast, ← pow_succ]
  exact ⟨by exact_mod_cast Nat.log2_self_le hn.ne', by exact_mod_cast Nat.lt_log2_self⟩

/-- What the lengths of its parts say of a ratio. -/
theorem ratio_bounds {n d : Nat} (hn : 0 < n) (hd : 0 < d) :
    (2 : ℚ) ^ ((n.log2 : Int) - d.log2 - 1) ≤ n / d ∧
      (n : ℚ) / d < 2 ^ ((n.log2 : Int) - d.log2 + 1) := by
  have hdpos : (0 : ℚ) < d := Nat.cast_pos.2 hd
  have htwo : (2 : ℚ) ≠ 0 := by norm_num
  obtain ⟨hnlow, hnhigh⟩ := log2_bounds hn
  obtain ⟨hdlow, hdhigh⟩ := log2_bounds hd
  constructor
  · rw [le_div_iff₀ hdpos]
    calc (2 : ℚ) ^ ((n.log2 : Int) - d.log2 - 1) * d
        ≤ 2 ^ ((n.log2 : Int) - d.log2 - 1) * 2 ^ ((d.log2 : Int) + 1) := by gcongr
      _ = 2 ^ (n.log2 : Int) := by
        rw [← zpow_add₀ htwo]
        congr 1
        omega
      _ ≤ n := hnlow
  · rw [div_lt_iff₀ hdpos]
    calc (n : ℚ) < 2 ^ ((n.log2 : Int) + 1) := hnhigh
      _ = 2 ^ ((n.log2 : Int) - d.log2 + 1) * 2 ^ (d.log2 : Int) := by
        rw [← zpow_add₀ htwo]
        congr 1
        omega
      _ ≤ 2 ^ ((n.log2 : Int) - d.log2 + 1) * d := by gcongr

/-- In units of the last place a ratio is below the next power of two, and unless the unit is the
least there is, it has as many digits as a word. -/
theorem lastPlace_spec (f : BinaryFormat) {n d : Nat} (hn : 0 < n) (hd : 0 < d) :
    (n : ℚ) / d < 2 ^ (f.fractionBits + 1) * 2 ^ f.lastPlace n d ∧
      (f.lastPlace n d = f.leastExponent ∨
        2 ^ f.fractionBits * 2 ^ f.lastPlace n d ≤ (n : ℚ) / d) := by
  have htwo : (2 : ℚ) ≠ 0 := by norm_num
  generalize hguess : (n.log2 : Int) - d.log2 - 1 - f.fractionBits = guess
  -- the guess is right or one too small
  obtain ⟨hlow, hhigh⟩ := ratio_bounds hn hd
  have hlog : (n.log2 : Int) - d.log2 = guess + f.fractionBits + 1 := by omega
  rw [hlog, add_sub_cancel_right, zpow_add₀ htwo, zpow_natCast, mul_comm] at hlow
  rw [hlog, zpow_add_one₀ htwo, zpow_add_one₀ htwo, zpow_add₀ htwo, zpow_natCast] at hhigh
  obtain ⟨n', d', hd', hratio, hscaled⟩ := exists_scaled n hd guess
  have hdpos : (0 : ℚ) < d' := Nat.cast_pos.2 hd'
  have hguesspos : (0 : ℚ) < 2 ^ guess := by positivity
  have hvalue : (n : ℚ) / d = n' / d' * 2 ^ guess := by
    rw [hratio, div_mul_cancel₀ _ hguesspos.ne']
  generalize hchosen : (if Nat.pow 2 (f.fractionBits + 1) ≤ n' / d' then guess + 1 else guess)
    = chosen
  have hplace : f.lastPlace n d = max f.leastExponent chosen := by
    unfold lastPlace
    rw [← hchosen, ← hscaled fun n d => n / d, hguess]
  have hbounds : (n : ℚ) / d < 2 ^ (f.fractionBits + 1) * 2 ^ chosen ∧
      2 ^ f.fractionBits * 2 ^ chosen ≤ (n : ℚ) / d := by
    split at hchosen
    · next hge =>
      rw [Nat.le_div_iff_mul_le hd'] at hge
      have hcast : (2 : ℚ) ^ (f.fractionBits + 1) * d' ≤ n' := by exact_mod_cast hge
      have hquotient : (2 : ℚ) ^ (f.fractionBits + 1) ≤ n' / d' := (le_div_iff₀ hdpos).2 hcast
      rw [← hchosen, zpow_add_one₀ htwo]
      constructor
      · calc (n : ℚ) / d < 2 ^ guess * 2 ^ f.fractionBits * 2 * 2 := hhigh
          _ = 2 ^ (f.fractionBits + 1) * (2 ^ guess * 2) := by ring
      · calc (2 : ℚ) ^ f.fractionBits * (2 ^ guess * 2)
            = 2 ^ (f.fractionBits + 1) * 2 ^ guess := by ring
          _ ≤ n' / d' * 2 ^ guess := by gcongr
          _ = n / d := hvalue.symm
    · next hlt =>
      rw [not_le, Nat.div_lt_iff_lt_mul hd'] at hlt
      have hcast : (n' : ℚ) < 2 ^ (f.fractionBits + 1) * d' := by exact_mod_cast hlt
      have hquotient : (n' : ℚ) / d' < 2 ^ (f.fractionBits + 1) := (div_lt_iff₀ hdpos).2 hcast
      rw [← hchosen]
      refine ⟨?_, hlow⟩
      rw [hvalue]
      gcongr
  -- a greater unit than the chosen one keeps the upper bound only
  rw [hplace]
  rcases le_total f.leastExponent chosen with hle | hle
  · rw [max_eq_right hle]
    exact ⟨hbounds.1, .inr hbounds.2⟩
  · rw [max_eq_left hle]
    refine ⟨hbounds.1.trans_le ?_, .inl rfl⟩
    gcongr
    norm_num

/-! ## Finite words -/

/-- The last place of the greatest finite words. -/
def greatestPlace : Int := 971

/-- The midpoint between the greatest finite number and the next power of two. -/
def overflow : ℚ := (2 ^ 53 - 1 / 2) * 2 ^ greatestPlace

theorem leastExponent_double : double.leastExponent = -1074 := by decide

theorem infinityBits_double : double.infinityBits = 2047 * 2 ^ 52 := by decide

/-- The last place of a finite word. -/
theorem lastPlace_mem {n d : Nat} (hn : 0 < n) (hd : 0 < d) (h : (n : ℚ) / d < overflow) :
    -1074 ≤ double.lastPlace n d ∧ double.lastPlace n d ≤ greatestPlace := by
  constructor
  · rw [← leastExponent_double]
    exact le_max_left _ _
  · rcases (lastPlace_spec double hn hd).2 with hleast | hplace
    · rw [hleast, leastExponent_double]
      decide
    · have hpow : (2 : ℚ) ^ double.lastPlace n d < 2 ^ (greatestPlace + 1) := by
        have hlt := hplace.trans_lt h
        have hpos : (0 : ℚ) < 2 ^ greatestPlace := by positivity
        rw [show double.fractionBits = 52 from rfl, overflow] at hlt
        rw [zpow_add_one₀ (by norm_num)]
        linarith
      exact Int.lt_add_one_iff.1 ((zpow_lt_zpow_iff_right₀ (by norm_num)).1 hpow)

/-- What is below the midpoint is rounded to a significand in units of the last place. -/
theorem exists_significand {n d : Nat} (hn : 0 < n) (hd : 0 < d) (h : (n : ℚ) / d < overflow) :
    ∃ s : Nat, double.roundMagnitude n d = (double.lastPlace n d + 1074).toNat * 2 ^ 52 + s ∧
      double.roundMagnitude n d < 2047 * 2 ^ 52 ∧ s ≤ 2 ^ 53 ∧
      (double.lastPlace n d = -1074 ∨ 2 ^ 52 ≤ s) ∧
      (s : ℚ) * 2 ^ double.lastPlace n d ≤ n / d + 2 ^ double.lastPlace n d / 2 := by
  obtain ⟨hlow, hhigh⟩ := lastPlace_mem hn hd h
  obtain ⟨hbelow, hfull⟩ := lastPlace_spec double hn hd
  rw [show double.fractionBits = 52 from rfl, leastExponent_double] at *
  have hround : double.roundMagnitude n d = min (2047 * 2 ^ 52)
      ((double.lastPlace n d + 1074).toNat * 2 ^ 52 +
        if double.lastPlace n d ≥ 0 then
          roundedQuotient n (d * Nat.pow 2 (double.lastPlace n d).toNat)
        else roundedQuotient (n * Nat.pow 2 (-double.lastPlace n d).toNat) d) := by
    unfold roundMagnitude
    rw [if_neg hn.ne', infinityBits_double, leastExponent_double]
    rfl
  generalize double.lastPlace n d = place at *
  obtain ⟨n', d', hd', hratio, hscaled⟩ := exists_scaled n hd place
  rw [hscaled roundedQuotient] at hround
  have hpos : (0 : ℚ) < 2 ^ place := by positivity
  have hround' := roundedQuotient_le n' hd'
  rw [hratio] at hround'
  have hmost : roundedQuotient n' d' ≤ 2 ^ 53 := by
    have hlt : (n : ℚ) / d / 2 ^ place < 2 ^ 53 := (div_lt_iff₀ hpos).2 hbelow
    have hcast : (roundedQuotient n' d' : ℚ) < (2 ^ 53 + 1 : Nat) := by
      push_cast
      linarith
    exact Nat.le_of_lt_succ (by exact_mod_cast hcast)
  -- in the greatest place, what is below the midpoint does not carry
  have htop : place = greatestPlace → roundedQuotient n' d' < 2 ^ 53 := by
    rintro rfl
    have hlt : (n : ℚ) / d / 2 ^ greatestPlace < 2 ^ 53 - 1 / 2 := (div_lt_iff₀ hpos).2 h
    have hcast : (roundedQuotient n' d' : ℚ) < (2 ^ 53 : Nat) := by
      push_cast
      linarith
    exact_mod_cast hcast
  have hbits : (place + 1074).toNat * 2 ^ 52 + roundedQuotient n' d' < 2047 * 2 ^ 52 := by
    have hgreatest : greatestPlace = 971 := rfl
    rcases hhigh.lt_or_eq with hlt | heq
    · omega
    · have := htop heq
      omega
  rw [min_eq_right hbits.le] at hround
  refine ⟨roundedQuotient n' d', hround, hround ▸ hbits, hmost, ?_, ?_⟩
  · refine hfull.imp_right fun hfull => ?_
    have hquotient : ((2 ^ 52 * d' : Nat) : ℚ) ≤ n' := by
      push_cast
      rwa [← le_div_iff₀ (Nat.cast_pos.2 hd'), hratio, le_div_iff₀ hpos]
    have hdiv : 2 ^ 52 ≤ n' / d' := (Nat.le_div_iff_mul_le hd').2 (by exact_mod_cast hquotient)
    exact hdiv.trans (div_le_roundedQuotient n' d')
  · calc (roundedQuotient n' d' : ℚ) * 2 ^ place
        ≤ (n / d / 2 ^ place + 1 / 2) * 2 ^ place := by gcongr
      _ = n / d + 2 ^ place / 2 := by field_simp

/-- A word below that of infinity, with or without the sign, taken apart. -/
theorem unpack_eq {bits : Nat} (h : bits < 2047 * 2 ^ 52) (negative : Bool) :
    double.unpack (bits + if negative then double.signBit else 0)
      = ⟨negative, if bits / 2 ^ 52 = 0 then .finite (bits % 2 ^ 52) (-1074)
          else .finite (2 ^ 52 + bits % 2 ^ 52) (bits / 2 ^ 52 - 1075)⟩ := by
  have hsign : (bits + if negative then double.signBit else 0) / double.signBit % 2
      = if negative then 1 else 0 := by
    rw [show double.signBit = 2 ^ 63 by decide]
    cases negative <;> simp only [if_true, Bool.false_eq_true, if_false] <;> omega
  have hfraction : (bits + if negative then double.signBit else 0) % Nat.pow 2 double.fractionBits
      = bits % 2 ^ 52 := by
    rw [show double.signBit = 2 ^ 63 by decide,
      show Nat.pow 2 double.fractionBits = 2 ^ 52 by decide]
    split <;> omega
  have hfield : (bits + if negative then double.signBit else 0) / Nat.pow 2 double.fractionBits %
      Nat.pow 2 double.exponentBits = bits / 2 ^ 52 := by
    rw [show double.signBit = 2 ^ 63 by decide,
      show Nat.pow 2 double.fractionBits = 2 ^ 52 by decide,
      show Nat.pow 2 double.exponentBits = 2 ^ 11 by decide]
    split <;> omega
  have hspecial : bits / 2 ^ 52 ≠ double.specialExponent := by
    rw [show double.specialExponent = 2047 by decide]
    omega
  unfold unpack
  dsimp only
  rw [hfraction, hfield, hsign, if_neg hspecial, leastExponent_double]
  congr 1
  · cases negative <;> rfl
  · congr 2
    omega

/-- A significand in units of a place is what the word of the two denotes, also where it has
carried into the exponent. -/
theorem exists_unpack_word {place : Int} (hplace : -1074 ≤ place) {s : Nat} (hs : s ≤ 2 ^ 53)
    (hfull : place = -1074 ∨ 2 ^ 52 ≤ s)
    (hbits : (place + 1074).toNat * 2 ^ 52 + s < 2047 * 2 ^ 52) (negative : Bool) :
    ∃ m q, double.unpack
        ((place + 1074).toNat * 2 ^ 52 + s + if negative then double.signBit else 0)
          = ⟨negative, .finite m q⟩ ∧ (m : ℚ) * 2 ^ q = s * 2 ^ place ∧
      (2 ^ 52 ≤ s → 2 ^ 52 ≤ m ∧ place ≤ q) := by
  rw [unpack_eq hbits]
  rcases Nat.lt_or_ge s (2 ^ 52) with hsmall | hlarge
  · -- no digit in front: the least place
    have hzero : place = -1074 := hfull.resolve_right (by omega)
    subst hzero
    rw [if_pos (by omega)]
    refine ⟨_, _, rfl, ?_, fun h => absurd h (by omega)⟩
    congr 2
    omega
  rw [if_neg (by omega)]
  refine ⟨_, _, rfl, ?_, fun _ => ⟨by omega, by omega⟩⟩
  rcases hs.lt_or_eq with hlt | rfl
  · congr 2 <;> omega
  · -- the carry doubles the unit and leaves a one with zeros
    have hm : 2 ^ 52 + ((place + 1074).toNat * 2 ^ 52 + 2 ^ 53) % 2 ^ 52 = 2 ^ 52 := by omega
    have hq : (((place + 1074).toNat * 2 ^ 52 + 2 ^ 53) / 2 ^ 52 : Nat) - (1075 : Int)
        = place + 1 := by omega
    rw [hm]
    push_cast at hq ⊢
    rw [hq, zpow_add_one₀ (by norm_num)]
    ring

/-- What a finite word denotes has at most 53 digits, and its last place is bounded. -/
theorem finite_bounds {bits : Nat} {negative : Bool} {m : Nat} {q : Int}
    (h : double.unpack bits = ⟨negative, .finite m q⟩) : m < 2 ^ 53 ∧ q ≤ greatestPlace := by
  have hfraction : bits % Nat.pow 2 double.fractionBits < 2 ^ 52 := Nat.mod_lt _ (by decide)
  have hfield : bits / Nat.pow 2 double.fractionBits % Nat.pow 2 double.exponentBits < 2048 :=
    Nat.mod_lt _ (by decide)
  have hpow : Nat.pow 2 double.fractionBits = 2 ^ 52 := by decide
  have hspecial : double.specialExponent = 2047 := by decide
  have hgreatest : greatestPlace = 971 := rfl
  unfold unpack at h
  rw [Unpacked.mk.injEq] at h
  obtain ⟨-, h⟩ := h
  rw [leastExponent_double] at h
  split at h
  · split at h <;> cases h
  · split at h
    · cases h
      omega
    · cases h
      omega

end BinaryFormat

/-! ## Operations on finite numbers -/

namespace Binary64

open BinaryFormat

theorem isFinite_of_unpack {x : Binary64} {negative : Bool} {m : Nat} {q : Int}
    (h : x.unpack = ⟨negative, .finite m q⟩) : x.isFinite = true := by
  unfold isFinite
  rw [h]

/-- What a finite number denotes is below the midpoint. -/
theorem lt_overflow {x : Binary64} {negative : Bool} {m : Nat} {q : Int}
    (h : x.unpack = ⟨negative, .finite m q⟩) : (m : ℚ) * 2 ^ q < overflow := by
  obtain ⟨hm, hq⟩ := finite_bounds h
  have hcast : (m : ℚ) ≤ 2 ^ 53 - 1 := by
    have : ((m + 1 : Nat) : ℚ) ≤ (2 ^ 53 : Nat) := Nat.cast_le.2 hm
    push_cast at this
    linarith
  calc (m : ℚ) * 2 ^ q ≤ (2 ^ 53 - 1) * 2 ^ greatestPlace := by
        gcongr
        norm_num
    _ < overflow := by
        rw [overflow]
        gcongr
        norm_num

/-- A ratio below the midpoint is rounded to a finite number. From one on, the number has all its
digits, and is too great by half a unit in the last of them at most. -/
theorem exists_unpack_ofRatio (negative : Bool) {n d : Nat} (hd : 0 < d)
    (h : (n : ℚ) / d < overflow) :
    ∃ m q, (ofRatio negative n d).unpack = ⟨negative, .finite m q⟩ ∧
      (1 ≤ (n : ℚ) / d →
        2 ^ 52 ≤ m ∧ -52 ≤ q ∧ (m : ℚ) * 2 ^ q ≤ n / d * (1 + 1 / 2 ^ 53)) := by
  have hunpack : double.roundMagnitude n d < 2047 * 2 ^ 52 →
      (ofRatio negative n d).unpack = double.unpack
        (double.roundMagnitude n d + if negative then double.signBit else 0) := by
    intro hbits
    have hsign : double.signBit = 2 ^ 63 := by decide
    have hword : (double.roundMagnitude n d + if negative then double.signBit else 0) < 2 ^ 64 := by
      split <;> omega
    unfold unpack ofRatio BinaryFormat.round
    rw [Nat.toUInt64, UInt64.toNat_ofNat_of_lt' hword]
  rcases Nat.eq_zero_or_pos n with rfl | hn
  · have hzero : double.roundMagnitude 0 d = 0 := rfl
    rw [hunpack (by rw [hzero]; norm_num), hzero, unpack_eq (by norm_num)]
    refine ⟨_, _, rfl, fun hone => ?_⟩
    rw [Nat.cast_zero, zero_div] at hone
    exact absurd hone (by norm_num)
  obtain ⟨s, hround, hbits, hs, hfull, herror⟩ := exists_significand hn hd h
  obtain ⟨hbelow, hplaces⟩ := lastPlace_spec double hn hd
  obtain ⟨hleast, -⟩ := lastPlace_mem hn hd h
  rw [show double.fractionBits = 52 from rfl, leastExponent_double] at *
  rw [hunpack hbits, hround]
  generalize double.lastPlace n d = place at *
  obtain ⟨m, q, hword, hvalue, hlarge⟩ :=
    exists_unpack_word hleast hs hfull (hround ▸ hbits) negative
  refine ⟨m, q, hword, fun hone => ?_⟩
  have hplace : -52 ≤ place := by
    have hpow : (2 : ℚ) ^ (-53 : Int) < 2 ^ place := by
      have hfrom := hone.trans_lt hbelow
      norm_num at hfrom ⊢
      linarith
    have := (zpow_lt_zpow_iff_right₀ (by norm_num)).1 hpow
    omega
  obtain ⟨hm, hq⟩ := hlarge (hfull.resolve_left (by omega))
  refine ⟨hm, hplace.trans hq, ?_⟩
  have hunits : 2 ^ 52 * (2 : ℚ) ^ place ≤ n / d := hplaces.resolve_left (by omega)
  rw [hvalue]
  calc (s : ℚ) * 2 ^ place ≤ n / d + 2 ^ place / 2 := herror
    _ ≤ n / d * (1 + 1 / 2 ^ 53) := by
      norm_num at hunits ⊢
      linarith

theorem isFinite_ofScaledRatio (negative : Bool) (n : Nat) {d : Nat} (hd : 0 < d) {e : Int}
    (h : (n : ℚ) / d * 2 ^ e < overflow) : (ofScaledRatio negative n d e).isFinite = true := by
  unfold ofScaledRatio
  split
  · next he =>
    have hratio : ((n * Nat.pow 2 e.toNat : Nat) : ℚ) / d < overflow := by
      rw [two_zpow_of_nonneg he] at h
      rwa [Nat.cast_mul, Nat.pow_eq, Nat.cast_pow, Nat.cast_ofNat, mul_div_right_comm]
    obtain ⟨m, q, hunpack, -⟩ := exists_unpack_ofRatio negative hd hratio
    exact isFinite_of_unpack hunpack
  · next he =>
    have hratio : (n : ℚ) / (d * Nat.pow 2 (-e).toNat : Nat) < overflow := by
      rw [two_zpow_of_neg he, ← div_eq_mul_inv] at h
      rwa [Nat.cast_mul, Nat.pow_eq, Nat.cast_pow, Nat.cast_ofNat, ← div_div]
    have hpos : 0 < Nat.pow 2 (-e).toNat := Nat.two_pow_pos _
    obtain ⟨m, q, hunpack, -⟩ := exists_unpack_ofRatio negative (Nat.mul_pos hd hpos) hratio
    exact isFinite_of_unpack hunpack

/-- A product below the midpoint is finite. -/
theorem isFinite_mul {x y : Binary64} {s t : Bool} {m n : Nat} {p q : Int}
    (hx : x.unpack = ⟨s, .finite m p⟩) (hy : y.unpack = ⟨t, .finite n q⟩)
    (h : (m : ℚ) * 2 ^ p * (n * 2 ^ q) < overflow) : (x.mul y).isFinite = true := by
  unfold mul
  rw [hx, hy]
  refine isFinite_ofScaledRatio _ _ Nat.one_pos ?_
  rw [zpow_add₀ (by norm_num), Nat.cast_one, div_one]
  calc ((m * n : Nat) : ℚ) * (2 ^ p * 2 ^ q) = m * 2 ^ p * (n * 2 ^ q) := by
        push_cast
        ring
    _ < overflow := h

/-- Division by a number from one on stays finite. -/
theorem isFinite_div {x y : Binary64} {s t : Bool} {m n : Nat} {p q : Int}
    (hx : x.unpack = ⟨s, .finite m p⟩) (hy : y.unpack = ⟨t, .finite n q⟩) (hn : 2 ^ 52 ≤ n)
    (hq : -52 ≤ q) : (x.div y).isFinite = true := by
  have hpos : 0 < n := by omega
  unfold div
  rw [hx, hy]
  dsimp only
  rw [if_neg hpos.ne']
  refine isFinite_ofScaledRatio _ _ hpos ?_
  have hone : (1 : ℚ) ≤ n * 2 ^ q := by
    have hcast : (2 : ℚ) ^ 52 ≤ n := by exact_mod_cast hn
    calc (1 : ℚ) = 2 ^ 52 * 2 ^ (-52 : Int) := by norm_num
      _ ≤ n * 2 ^ q := by
        gcongr
        norm_num
  calc (m : ℚ) / n * 2 ^ (p - q) = m * 2 ^ p / (n * 2 ^ q) := by
        rw [zpow_sub₀ (by norm_num)]
        field_simp
    _ ≤ m * 2 ^ p := div_le_self (by positivity) hone
    _ < overflow := lt_overflow hx

/-- The sign does not matter. -/
theorem isFinite_neg {x : Binary64} (h : x.isFinite = true) : x.neg.isFinite = true := by
  have hmod : (x.bits ^^^ 0x8000000000000000).toNat % 2 ^ 63 = x.bits.toNat % 2 ^ 63 := by
    rw [UInt64.toNat_xor, Nat.xor_mod_two_pow]
    exact Nat.xor_zero _
  have hmagnitude : x.neg.unpack.magnitude = x.unpack.magnitude := by
    have hfraction : (x.bits ^^^ 0x8000000000000000).toNat % 2 ^ 52 = x.bits.toNat % 2 ^ 52 := by
      omega
    have hfield : (x.bits ^^^ 0x8000000000000000).toNat / 2 ^ 52 % 2 ^ 11
        = x.bits.toNat / 2 ^ 52 % 2 ^ 11 := by
      omega
    unfold neg unpack BinaryFormat.unpack
    dsimp only
    rw [show Nat.pow 2 double.fractionBits = 2 ^ 52 by decide,
      show Nat.pow 2 double.exponentBits = 2 ^ 11 by decide, hfraction, hfield]
  unfold isFinite at h ⊢
  rwa [hmagnitude]

end Binary64

end RecordMapping

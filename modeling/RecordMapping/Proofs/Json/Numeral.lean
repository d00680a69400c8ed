import Mathlib.Data.List.TakeWhile
import RecordMapping.Json.Lexer

/-!
# The numerals of documents

The text of a number is made of the characters of numerals and begins with a digit or a minus sign,
so that it is read as one token. An integer is read back from its text. A number with a point or an
exponent need not be: it is read by scaling, and that may find a neighbour.
-/

namespace RecordMapping

/-! ## Decimal digits -/

/-- The digits of a natural number. -/
def digits (n : Nat) : List Char := Nat.toDigits 10 n

theorem toList_toString (n : Nat) : (toString n).toList = digits n := Nat.toList_repr

theorem isDigit_of_mem_digits {n : Nat} {c : Char} (h : c ∈ digits n) : c.isDigit = true :=
  Nat.isDigit_of_mem_toDigits (by decide) (by decide) h

theorem digits_ne_nil (n : Nat) : digits n ≠ [] := Nat.toDigits_ne_nil

/-- A number that is not zero does not begin with one. -/
theorem head?_digits_ne_zero {n : Nat} (h : 0 < n) : (digits n).head? ≠ some '0' := by
  induction n using Nat.strongRecOn with
  | ind n ih =>
    unfold digits
    rcases Nat.lt_or_ge n 10 with hlt | hge
    · rw [Nat.toDigits_of_lt_base hlt]
      intro hzero
      have hvalue : n.digitChar.toNat - 48 = n := Nat.toNat_digitChar_sub_48_of_lt_ten hlt
      rw [Option.some.inj hzero] at hvalue
      exact absurd hvalue (Nat.ne_of_lt h)
    · -- a number of several digits begins like the tenth part of it
      have hhead : (Nat.toDigits 10 n).head? = (digits (n / 10)).head? := by
        rw [Nat.toDigits_of_base_le (by decide) hge, List.head?_append, ← digits]
        exact Option.or_of_isSome (List.isSome_head?.2 (digits_ne_nil _))
      rw [hhead]
      exact ih (n / 10) (Nat.div_lt_self h (by decide)) (by omega)

theorem digitsValue_digits (n : Nat) : Text.digitsValue (digits n) = n :=
  Nat.ofDigitChars_ten_toDigits

theorem isAlpha_of_isDigit {c : Char} (h : c.isDigit = true) : c.isAlpha = false := by
  have hdigits : ∀ n < 58, 48 ≤ n → (Char.ofNat n).isAlpha = false := by decide
  rw [Char.isDigit, Bool.and_eq_true, decide_eq_true_eq, decide_eq_true_eq] at h
  have hc := hdigits c.toNat (Nat.lt_succ_of_le h.2) h.1
  rwa [Char.ofNat_toNat] at hc

namespace Json

/-! ## The characters of numerals -/

/-- Characters of numerals, the first of them one that a numeral can begin with. -/
structure IsNumeralText (cs : List Char) : Prop where
  chars : ∀ c ∈ cs, isNumeralChar c = true
  head : ∃ c rest, cs = c :: rest ∧ c.isAlpha = false

theorem isNumeralChar_of_isDigit {c : Char} (h : c.isDigit = true) : isNumeralChar c = true := by
  simp [isNumeralChar, h]

/-- Digits and what may follow them in a numeral. -/
theorem IsNumeralText.of_digits {cs rest : List Char} (hne : cs ≠ [])
    (hdigits : ∀ c ∈ cs, c.isDigit = true) (hrest : ∀ c ∈ rest, isNumeralChar c = true) :
    IsNumeralText (cs ++ rest) where
  chars := by
    intro c hc
    rcases List.mem_append.1 hc with hc | hc
    · exact isNumeralChar_of_isDigit (hdigits c hc)
    · exact hrest c hc
  head := by
    obtain ⟨c, more, rfl⟩ := List.exists_cons_of_ne_nil hne
    exact ⟨c, more ++ rest, rfl, isAlpha_of_isDigit (hdigits c List.mem_cons_self)⟩

theorem IsNumeralText.neg {cs : List Char} (h : IsNumeralText cs) : IsNumeralText ('-' :: cs) where
  chars := by
    intro c hc
    rcases List.mem_cons.1 hc with rfl | hc
    · rfl
    · exact h.chars c hc
  head := ⟨'-', cs, rfl, rfl⟩

theorem isNumeralText_digits (n : Nat) : IsNumeralText (digits n) := by
  have h : IsNumeralText (digits n ++ []) :=
    .of_digits (digits_ne_nil n) (fun c => isDigit_of_mem_digits) (by simp)
  rwa [List.append_nil] at h

theorem isDigit_of_mem_zeros {n : Nat} {c : Char} (h : c ∈ (NumberStyle.zeros n).toList) :
    c.isDigit = true := by
  rw [NumberStyle.zeros, String.toList_ofList] at h
  rw [List.eq_of_mem_replicate h]
  rfl

theorem isNumeralText_positional (d : Decimal) :
    IsNumeralText (NumberStyle.positional d).toList := by
  unfold NumberStyle.positional
  split
  · rw [String.toList_append, String.toList_append, toList_toString, List.append_assoc]
    refine .of_digits (digits_ne_nil _) (fun c => isDigit_of_mem_digits) ?_
    have hpoint : ".0".toList.all isNumeralChar = true := by decide
    intro c hc
    rcases List.mem_append.1 hc with hc | hc
    · exact isNumeralChar_of_isDigit (isDigit_of_mem_zeros hc)
    · exact List.all_eq_true.1 hpoint c hc
  · -- the digits are padded with zeros, so that some stand before the point
    dsimp only
    generalize (-d.exponent).toNat = places
    generalize hpadded : NumberStyle.zeros (places + 1 - (toString d.digits).length)
      ++ toString d.digits = padded
    have hlength : places < padded.length := by
      rw [← hpadded, String.length_append, NumberStyle.zeros, String.length_ofList,
        List.length_replicate]
      omega
    have hdigits : ∀ c ∈ padded.toList, c.isDigit = true := by
      intro c hc
      rw [← hpadded, String.toList_append, List.mem_append, toList_toString] at hc
      rcases hc with hc | hc
      · exact isDigit_of_mem_zeros hc
      · exact isDigit_of_mem_digits hc
    have hpoint : ".".toList.all isNumeralChar = true := by decide
    simp only [String.toList_append, String.toList_ofList, List.append_assoc]
    refine .of_digits ?_ (fun c hc => hdigits c (List.mem_of_mem_take hc)) ?_
    · rw [← List.length_pos_iff, List.length_take, String.length_toList]
      omega
    · intro c hc
      rcases List.mem_append.1 hc with hc | hc
      · exact List.all_eq_true.1 hpoint c hc
      · exact isNumeralChar_of_isDigit (hdigits c (List.mem_of_mem_drop hc))

/-- The exponent of a number in scientific form. -/
def exponentText (d : Decimal) : String :=
  "e" ++ (if d.leading < 0 then "-" else numberStyle.exponentSign) ++ toString d.leading.natAbs

theorem isNumeralChar_of_mem_exponentText {d : Decimal} {c : Char}
    (hc : c ∈ (exponentText d).toList) : isNumeralChar c = true := by
  have hmark : (if d.leading < 0 then "-" else numberStyle.exponentSign).toList.all isNumeralChar
      = true := by
    split <;> decide
  rw [exponentText, String.toList_append, String.toList_append, toList_toString, List.mem_append,
    List.mem_append] at hc
  rcases hc with (hc | hc) | hc
  · obtain rfl : c = 'e' := List.mem_singleton.1 hc
    rfl
  · exact List.all_eq_true.1 hmark c hc
  · exact isNumeralChar_of_isDigit (isDigit_of_mem_digits hc)

theorem isNumeralText_scientific (d : Decimal) :
    IsNumeralText (numberStyle.scientific d).toList := by
  obtain ⟨c, rest, hdigits⟩ := List.exists_cons_of_ne_nil (digits_ne_nil d.digits)
  have hdigit : ∀ c' ∈ c :: rest, c'.isDigit = true := fun c' hc' =>
    isDigit_of_mem_digits (hdigits ▸ hc')
  have hfirst : ∀ c' ∈ [c], c'.isDigit = true := by
    simpa using hdigit c List.mem_cons_self
  cases rest with
  | nil =>
    have hscientific : (numberStyle.scientific d).toList = [c] ++ (exponentText d).toList := by
      rw [NumberStyle.scientific, toList_toString, hdigits]
      simp [exponentText]
    rw [hscientific]
    exact .of_digits (List.cons_ne_nil c []) hfirst fun c' => isNumeralChar_of_mem_exponentText
  | cons c' rest =>
    have hscientific : (numberStyle.scientific d).toList
        = [c] ++ ('.' :: c' :: rest ++ (exponentText d).toList) := by
      rw [NumberStyle.scientific, toList_toString, hdigits]
      simp [exponentText]
    rw [hscientific]
    refine .of_digits (List.cons_ne_nil c []) hfirst ?_
    intro c'' hc''
    rcases List.mem_append.1 hc'' with hc'' | hc''
    · rcases List.mem_cons.1 hc'' with rfl | hc''
      · rfl
      · exact isNumeralChar_of_isDigit (hdigit c'' (List.mem_cons_of_mem c hc''))
    · exact isNumeralChar_of_mem_exponentText hc''

theorem isNumeralText_decimal (d : Decimal) : IsNumeralText (numberStyle.decimal d).toList := by
  unfold NumberStyle.decimal
  split
  · exact isNumeralText_positional d
  · exact isNumeralText_scientific d

/-- The text of an integer. -/
theorem toList_toString_int (i : Int) :
    (toString i).toList = if 0 ≤ i then digits i.natAbs else '-' :: digits i.natAbs := by
  rw [Int.toString_eq_repr, Int.repr_eq_if]
  by_cases hi : 0 ≤ i
  · have hnat : i.toNat = i.natAbs := by omega
    rw [if_pos hi, if_pos hi, Nat.toList_repr, hnat, digits]
  · have hnat : (-i).toNat = i.natAbs := by omega
    rw [if_neg hi, if_neg hi, String.toList_append, Nat.toList_repr, hnat, digits]
    rfl

/-- A finite number has a significand and an exponent. -/
theorem exists_unpack_of_isFinite {x : Binary64} (h : x.isFinite = true) :
    ∃ negative m q, x.unpack = ⟨negative, .finite m q⟩ := by
  unfold Binary64.isFinite at h
  rcases hx : x.unpack with ⟨negative, magnitude⟩
  rw [hx] at h
  cases magnitude with
  | finite m q => exact ⟨negative, m, q, rfl⟩
  | infinite | notANumber => cases h

/-- The text of a number of a document is that of one numeral. -/
theorem isNumeralText_numberText (n : JsonNumber) : IsNumeralText (numberText n).toList := by
  cases n with
  | integer i _ =>
    rw [numberText, toList_toString_int]
    split
    · exact isNumeralText_digits _
    · exact (isNumeralText_digits _).neg
  | real x finite =>
    obtain ⟨negative, m, q, hx⟩ := exists_unpack_of_isFinite finite
    rw [numberText, NumberStyle.double, hx, NumberStyle.unpacked, String.toList_append]
    cases negative with
    | true => exact (isNumeralText_decimal _).neg
    | false => exact isNumeralText_decimal _

/-! ## Reading integers back -/

theorem ofUnsigned?_digits (negative : Bool) (n : Nat) :
    Numeral.ofUnsigned? negative (digits n) = some ⟨negative, digits n, [], none⟩ := by
  have htake : (digits n).takeWhile Char.isDigit = digits n :=
    List.takeWhile_eq_self_iff.2 fun c => isDigit_of_mem_digits
  have hdrop : (digits n).dropWhile Char.isDigit = [] :=
    List.dropWhile_eq_nil_iff.2 fun c => isDigit_of_mem_digits
  have hzero : ¬((digits n).isEmpty = true ∨
      ((digits n).head? = some '0' ∧ (digits n).length ≠ 1)) := by
    rintro (hempty | ⟨hhead, hlength⟩)
    · exact digits_ne_nil n (List.isEmpty_iff.1 hempty)
    · rcases Nat.eq_zero_or_pos n with rfl | hpos
      · exact hlength rfl
      · exact head?_digits_ne_zero hpos hhead
  unfold Numeral.ofUnsigned?
  rw [htake, hdrop, if_neg hzero]
  rfl

/-- The number of a numeral without point and exponent is the integer that it is written as. -/
theorem number?_digits {negative : Bool} {n : Nat} (hnegative : negative = true → 0 < n) {i : Int}
    (hi : (if negative then -(n : Int) else n) = i)
    (inRange : -9223372036854775808 ≤ i ∧ i < 18446744073709551616) :
    Numeral.number? ⟨negative, digits n, [], none⟩ = some (.integer i inRange) := by
  have hzero : (negative && n == 0) = false := by
    cases negative with
    | false => rfl
    | true => simpa using Nat.ne_of_gt (hnegative rfl)
  unfold Numeral.number?
  simp only [digitsValue_digits, hzero, Numeral.isInteger, hi, JsonNumber.ofInt?, dif_pos inRange,
    List.isEmpty_nil, Option.isNone_none, Bool.and_self, Bool.not_false, if_true]

/-- An integer is read back from its text. -/
theorem readNumber_numberText_integer (i : Int)
    (inRange : -9223372036854775808 ≤ i ∧ i < 18446744073709551616) :
    readNumber (numberText (.integer i inRange)).toList = some (.integer i inRange) := by
  rw [numberText, toList_toString_int, readNumber]
  split
  · next hi =>
    have hchars : Numeral.ofChars? (digits i.natAbs)
        = Numeral.ofUnsigned? false (digits i.natAbs) := by
      unfold Numeral.ofChars?
      split
      · next cs hcs =>
        -- no digit is a minus sign
        have hdigit : ('-').isDigit = true := isDigit_of_mem_digits (hcs ▸ List.mem_cons_self)
        cases hdigit
      · rfl
    have hvalue : (if false = true then -(i.natAbs : Int) else i.natAbs) = i := by
      rw [if_neg Bool.false_ne_true]
      omega
    rw [hchars, ofUnsigned?_digits, Option.bind_some]
    exact number?_digits (fun h => absurd h Bool.false_ne_true) hvalue inRange
  · next hi =>
    have hvalue : (if true = true then -(i.natAbs : Int) else i.natAbs) = i := by
      rw [if_pos rfl]
      omega
    show (Numeral.ofUnsigned? true (digits i.natAbs)).bind _ = _
    rw [ofUnsigned?_digits, Option.bind_some]
    exact number?_digits (fun _ => by omega) hvalue inRange

end Json

end RecordMapping

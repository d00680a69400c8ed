import RecordMapping.Proofs.Json.Invariant
import RecordMapping.Proofs.Json.Scaling
import RecordMapping.Proofs.Numeric.Shortest

/-!
# Which texts of documents are read

The text of every number of a document is read as some number (`isSome_readNumber_numberText`). So
the text of a document is read as some document exactly if it is not nested too deeply
(`isSome_parse_text_iff`).
-/

namespace RecordMapping

/-! ## Numerals of decimals -/

namespace Json

theorem length_digits (n : Nat) : (digits n).length = Decimal.length n := by
  fun_induction Decimal.length n with
  | case1 n h =>
    rw [digits, Nat.toDigits_of_lt_base h]
    rfl
  | case2 n h ih =>
    rw [digits, Nat.toDigits_of_base_le (by decide) (Nat.le_of_not_lt h), List.length_append, ← ih]
    rfl

theorem readNatural_digits (n : Nat) : Text.readNatural (digits n) = some n := by
  have hdigits : (!(digits n).isEmpty && (digits n).all Char.isDigit) = true := by
    rw [Bool.and_eq_true, Bool.not_eq_true', List.isEmpty_eq_false_iff, List.all_eq_true]
    exact ⟨digits_ne_nil n, fun c => isDigit_of_mem_digits⟩
  rw [Text.readNatural, if_pos hdigits, digitsValue_digits]

/-- Digits before a point or an exponent. -/
structure IsWhole (cs : List Char) : Prop where
  ne_nil : cs ≠ []
  digits : ∀ c ∈ cs, c.isDigit = true
  /-- A zero begins no longer number. -/
  head : cs.head? = some '0' → cs.length = 1

theorem IsWhole.not_refused {cs : List Char} (h : IsWhole cs) :
    ¬(cs.isEmpty = true ∨ (cs.head? = some '0' ∧ cs.length ≠ 1)) := by
  rintro (hempty | ⟨hhead, hlength⟩)
  · exact h.ne_nil (List.isEmpty_iff.1 hempty)
  · exact hlength (h.head hhead)

/-- The first digits, up to something else. -/
theorem takeWhile_digits {cs : List Char} (hcs : ∀ c ∈ cs, c.isDigit = true) (rest : List Char)
    (hrest : ∀ c ∈ rest.head?, c.isDigit = false) :
    (cs ++ rest).takeWhile Char.isDigit = cs ∧ (cs ++ rest).dropWhile Char.isDigit = rest := by
  rw [List.takeWhile_append_of_pos hcs, List.dropWhile_append_of_pos hcs]
  cases rest with
  | nil => exact ⟨List.append_nil cs, rfl⟩
  | cons c rest =>
    have hc : ¬c.isDigit = true := by
      rw [hrest c rfl]
      decide
    rw [List.takeWhile_cons_of_neg hc, List.dropWhile_cons_of_neg hc]
    exact ⟨List.append_nil cs, rfl⟩

/-- The parts of a numeral with a point. -/
theorem ofUnsigned?_point (negative : Bool) {whole fraction rest : List Char}
    (hwhole : IsWhole whole) (hne : fraction ≠ [])
    (hfraction : ∀ c ∈ fraction, c.isDigit = true) (hrest : ∀ c ∈ rest.head?, c.isDigit = false) :
    Numeral.ofUnsigned? negative (whole ++ '.' :: (fraction ++ rest))
      = Numeral.withExponent? negative whole fraction rest := by
  obtain ⟨htake, hdrop⟩ := takeWhile_digits hwhole.digits ('.' :: (fraction ++ rest))
    (by rintro _ ⟨⟩; rfl)
  obtain ⟨htake', hdrop'⟩ := takeWhile_digits hfraction rest hrest
  unfold Numeral.ofUnsigned?
  rw [htake, hdrop, if_neg hwhole.not_refused]
  show (if (List.takeWhile Char.isDigit (fraction ++ rest)).isEmpty = true then none
    else Numeral.withExponent? negative whole (List.takeWhile Char.isDigit (fraction ++ rest))
      (List.dropWhile Char.isDigit (fraction ++ rest))) = _
  rw [htake', hdrop', if_neg]
  rwa [List.isEmpty_iff]

/-- The parts of a numeral with an exponent right after the first digits. -/
theorem ofUnsigned?_exponent (negative : Bool) {whole rest : List Char} (hwhole : IsWhole whole) :
    Numeral.ofUnsigned? negative (whole ++ 'e' :: rest)
      = Numeral.withExponent? negative whole [] ('e' :: rest) := by
  obtain ⟨htake, hdrop⟩ := takeWhile_digits hwhole.digits ('e' :: rest)
    (by rintro _ ⟨⟩; rfl)
  unfold Numeral.ofUnsigned?
  rw [htake, hdrop, if_neg hwhole.not_refused]
  rfl

/-- An exponent is read back. -/
theorem withExponent?_exponentText (negative : Bool) (whole fraction : List Char) (d : Decimal) :
    Numeral.withExponent? negative whole fraction (exponentText d).toList
      = some ⟨negative, whole, fraction, some d.leading⟩ := by
  have htext : (exponentText d).toList
      = 'e' :: (if d.leading < 0 then '-' else '+') :: digits d.leading.natAbs := by
    rw [exponentText, String.toList_append, String.toList_append, toList_toString]
    split <;> rfl
  have hexponent : Numeral.exponentOf? ((if d.leading < 0 then '-' else '+') ::
      digits d.leading.natAbs) = some d.leading := by
    split
    · have hleading : -(d.leading.natAbs : Int) = d.leading := by omega
      show (Text.readNatural (digits d.leading.natAbs)).map (fun n => -(n : Int)) = _
      rw [readNatural_digits]
      exact congrArg some hleading
    · have hleading : (d.leading.natAbs : Int) = d.leading := by omega
      show (Text.readNatural (digits d.leading.natAbs)).map Int.ofNat = _
      rw [readNatural_digits]
      exact congrArg some hleading
  rw [htext, Numeral.withExponent?, if_pos (.inl rfl), hexponent]
  rfl

/-- The numeral of a decimal: it is no integer, its first digits fit into a significand, and it
denotes the decimal. -/
structure IsNumeralOf (d : Decimal) (negative : Bool) (numeral : Numeral) : Prop where
  negative : numeral.negative = negative
  real : numeral.isInteger = false
  fits : Text.digitsValue numeral.whole < UInt64.size
  value : numeral.value = d.value

/-- A number of sixteen digits fits into a significand. -/
theorem digitsValue_lt_size {cs : List Char} (hcs : ∀ c ∈ cs, c.isDigit = true)
    (hlength : cs.length ≤ 16) : Text.digitsValue cs < UInt64.size :=
  calc Text.digitsValue cs < 10 ^ cs.length := Text.digitsValue_lt hcs
    _ ≤ 10 ^ 16 := Nat.pow_le_pow_right (by decide) hlength
    _ < UInt64.size := by decide

theorem digitsValue_zeros (n : Nat) : Text.digitsValue (List.replicate n '0') = 0 := by
  induction n with
  | zero => rfl
  | succ n ih =>
    rw [List.replicate_succ, Text.digitsValue_cons, ih]
    simp [Numeral.digitValue]

theorem isDigit_of_mem_replicate {n : Nat} {c : Char} (h : c ∈ List.replicate n '0') :
    c.isDigit = true := by
  rw [List.eq_of_mem_replicate h]
  rfl

/-- A decimal without places after the point. -/
theorem exists_numeral_of_nonneg (negative : Bool) {d : Decimal} (hnormal : d.IsNormal)
    (hleading : d.leading ≤ 15) (he : 0 ≤ d.exponent) :
    ∃ numeral, Numeral.ofUnsigned? negative (NumberStyle.positional d).toList = some numeral ∧
      IsNumeralOf d negative numeral := by
  generalize hwholeEq : digits d.digits ++ List.replicate d.exponent.toNat '0' = whole
  have htext : (NumberStyle.positional d).toList = whole ++ '.' :: (['0'] ++ []) := by
    rw [NumberStyle.positional, if_pos he, String.toList_append, String.toList_append,
      toList_toString, NumberStyle.zeros, String.toList_ofList, hwholeEq]
    rfl
  have hdigits : ∀ c ∈ whole, c.isDigit = true := by
    intro c hc
    rw [← hwholeEq] at hc
    rcases List.mem_append.1 hc with hc | hc
    · exact isDigit_of_mem_digits hc
    · exact isDigit_of_mem_replicate hc
  have hwhole : IsWhole whole := by
    refine ⟨?_, hdigits, ?_⟩
    · rw [← hwholeEq]
      exact List.append_ne_nil_of_left_ne_nil (digits_ne_nil _) _
    · intro hhead
      rcases Nat.eq_zero_or_pos d.digits with hzero | hpos
      · rw [← hwholeEq, hnormal hzero, hzero]
        rfl
      · rw [← hwholeEq, List.head?_append_of_ne_nil _ (digits_ne_nil _)] at hhead
        exact absurd hhead (head?_digits_ne_zero hpos)
  have hlength : whole.length ≤ 16 := by
    unfold Decimal.leading at hleading
    rw [← length_digits] at hleading
    rw [← hwholeEq, List.length_append, List.length_replicate]
    omega
  refine ⟨⟨negative, whole, ['0'], none⟩, ?_, rfl, rfl, digitsValue_lt_size hdigits hlength, ?_⟩
  · rw [htext, ofUnsigned?_point negative hwhole (List.cons_ne_nil _ _) (by simp) (by simp)]
    rfl
  · have hpow : (10 : ℚ) ^ d.exponent = 10 ^ d.exponent.toNat := by
      rw [← zpow_natCast, Int.toNat_of_nonneg he]
    have hvalue : Text.digitsValue (whole ++ ['0']) = d.digits * 10 ^ d.exponent.toNat * 10 := by
      rw [Text.digitsValue_append, ← hwholeEq, Text.digitsValue_append, digitsValue_zeros,
        digitsValue_digits, List.length_replicate]
      rfl
    rw [Numeral.value, hvalue, Decimal.value, hpow]
    push_cast
    norm_num
    ring

/-- A decimal with places after the point. -/
theorem exists_numeral_of_neg (negative : Bool) {d : Decimal} (hnormal : d.IsNormal)
    (hleading : d.leading ≤ 15) (he : d.exponent < 0) :
    ∃ numeral, Numeral.ofUnsigned? negative (NumberStyle.positional d).toList = some numeral ∧
      IsNumeralOf d negative numeral := by
  have hpos : 0 < d.digits := by
    refine Nat.pos_of_ne_zero fun hzero => ?_
    have := hnormal hzero
    omega
  generalize hplaces : (-d.exponent).toNat = places
  generalize hpadding : places + 1 - (digits d.digits).length = padding
  generalize hpadded : List.replicate padding '0' ++ digits d.digits = padded
  have hlength : padded.length = padding + (digits d.digits).length := by
    rw [← hpadded, List.length_append, List.length_replicate]
  have hdigits : ∀ c ∈ padded, c.isDigit = true := by
    intro c hc
    rw [← hpadded] at hc
    rcases List.mem_append.1 hc with hc | hc
    · exact isDigit_of_mem_replicate hc
    · exact isDigit_of_mem_digits hc
  -- zeros in front make sure that there is a digit before the point
  generalize hwholeEq : padded.take (padded.length - places) = whole
  generalize hfractionEq : padded.drop (padded.length - places) = fraction
  have htext : (NumberStyle.positional d).toList = whole ++ '.' :: (fraction ++ []) := by
    have hchars : (NumberStyle.zeros padding ++ toString d.digits).toList = padded := by
      rw [String.toList_append, NumberStyle.zeros, String.toList_ofList, toList_toString, hpadded]
    have htextLength : (toString d.digits).length = (digits d.digits).length := by
      rw [← String.length_toList, toList_toString]
    rw [NumberStyle.positional, if_neg (not_le.2 he)]
    dsimp only
    rw [hplaces, htextLength, hpadding, hchars, ← String.length_toList, hchars, hwholeEq,
      hfractionEq, List.append_nil, String.toList_append, String.toList_append,
      String.toList_ofList, String.toList_ofList (l := fraction), List.append_assoc]
    rfl
  have hsplit : whole ++ fraction = padded := by
    rw [← hwholeEq, ← hfractionEq, List.take_append_drop]
  have hwholeLength : whole.length = padded.length - places := by
    rw [← hwholeEq, List.length_take]
    omega
  have hfractionLength : fraction.length = places := by
    rw [← hfractionEq, List.length_drop]
    omega
  have hwholeDigits : ∀ c ∈ whole, c.isDigit = true := fun c hc =>
    hdigits c (hsplit ▸ List.mem_append_left _ hc)
  have hwhole : IsWhole whole := by
    refine ⟨?_, hwholeDigits, ?_⟩
    · rw [← List.length_pos_iff]
      omega
    · intro hhead
      -- without padding the first digit is that of the decimal
      rcases Nat.eq_zero_or_pos padding with rfl | hpadding
      · rw [← hwholeEq, List.head?_take, if_neg (by omega), ← hpadded] at hhead
        exact absurd hhead (head?_digits_ne_zero hpos)
      · omega
  have hshort : whole.length ≤ 16 := by
    unfold Decimal.leading at hleading
    rw [← length_digits] at hleading
    have := List.length_pos_iff.2 (digits_ne_nil d.digits)
    omega
  refine ⟨⟨negative, whole, fraction, none⟩, ?_, rfl, ?_,
    digitsValue_lt_size hwholeDigits hshort, ?_⟩
  · have hne : fraction ≠ [] := by
      rw [← List.length_pos_iff]
      omega
    have hfractionDigits : ∀ c ∈ fraction, c.isDigit = true := fun c hc =>
      hdigits c (hsplit ▸ List.mem_append_right _ hc)
    rw [htext, ofUnsigned?_point negative hwhole hne hfractionDigits (by simp)]
    rfl
  · have hne : fraction.isEmpty = false := by
      rw [List.isEmpty_eq_false_iff, ← List.length_pos_iff]
      omega
    rw [Numeral.isInteger, hne, Bool.false_and]
  · have hvalue : Text.digitsValue padded = d.digits := by
      rw [← hpadded, Text.digitsValue_append, digitsValue_zeros, digitsValue_digits]
      omega
    have hexponent : (0 : Int) - places = d.exponent := by omega
    rw [Numeral.value, hsplit, hvalue, Decimal.value, hfractionLength]
    exact congrArg (fun e : Int => (d.digits : ℚ) * 10 ^ e) hexponent

/-- A decimal in scientific notation. -/
theorem exists_numeral_scientific (negative : Bool) (d : Decimal) :
    ∃ numeral, Numeral.ofUnsigned? negative (numberStyle.scientific d).toList = some numeral ∧
      IsNumeralOf d negative numeral := by
  obtain ⟨c, rest, hdigits⟩ := List.exists_cons_of_ne_nil (digits_ne_nil d.digits)
  have hdigit : ∀ c' ∈ c :: rest, c'.isDigit = true := fun c' hc' =>
    isDigit_of_mem_digits (hdigits ▸ hc')
  have hwholeDigits : ∀ c' ∈ [c], c'.isDigit = true := by
    simpa using hdigit c List.mem_cons_self
  have hwhole : IsWhole [c] := ⟨List.cons_ne_nil c [], hwholeDigits, fun _ => rfl⟩
  have hvalue : Numeral.value ⟨negative, [c], rest, some d.leading⟩ = d.value := by
    have hleading : d.leading - rest.length = d.exponent := by
      rw [Decimal.leading, ← length_digits, hdigits, List.length_cons]
      omega
    rw [Numeral.value, Decimal.value, List.singleton_append, ← hdigits, digitsValue_digits]
    exact congrArg (fun e : Int => (d.digits : ℚ) * 10 ^ e) hleading
  refine ⟨⟨negative, [c], rest, some d.leading⟩, ?_, rfl, ?_,
    digitsValue_lt_size hwholeDigits (by simp), hvalue⟩
  · cases rest with
    | nil =>
      have htext : (numberStyle.scientific d).toList = [c] ++ (exponentText d).toList := by
        rw [NumberStyle.scientific, toList_toString, hdigits]
        simp [exponentText]
      have hread := withExponent?_exponentText negative [c] [] d
      obtain ⟨cs, hcs⟩ : ∃ cs, (exponentText d).toList = 'e' :: cs := by
        rw [exponentText, String.toList_append, String.toList_append]
        exact ⟨_, rfl⟩
      rw [htext, hcs, ofUnsigned?_exponent negative hwhole, ← hcs, hread]
    | cons c' rest =>
      have htext : (numberStyle.scientific d).toList
          = [c] ++ '.' :: (c' :: rest ++ (exponentText d).toList) := by
        rw [NumberStyle.scientific, toList_toString, hdigits]
        simp [exponentText]
      have hrest : ∀ e ∈ (exponentText d).toList.head?, e.isDigit = false := by
        rw [exponentText, String.toList_append, String.toList_append]
        rintro _ ⟨⟩
        rfl
      rw [htext, ofUnsigned?_point negative hwhole (List.cons_ne_nil c' rest)
        (fun e he => hdigit e (List.mem_cons_of_mem c he)) hrest,
        withExponent?_exponentText]
  · simp [Numeral.isInteger]

/-- The text of a decimal is read as a numeral that denotes it. -/
theorem exists_numeral_decimal (negative : Bool) {d : Decimal} (hnormal : d.IsNormal) :
    ∃ numeral, Numeral.ofUnsigned? negative (numberStyle.decimal d).toList = some numeral ∧
      IsNumeralOf d negative numeral := by
  unfold NumberStyle.decimal
  split
  · next hpositional =>
    have hleading : d.leading ≤ 15 := by
      rcases hpositional with hzero | ⟨-, hgreatest⟩
      · have hlength : Decimal.length 0 = 1 := by rw [Decimal.length, if_pos (by decide)]
        rw [Decimal.leading, hnormal hzero, hzero, hlength]
        decide
      · exact hgreatest
    rcases lt_or_ge d.exponent 0 with he | he
    · exact exists_numeral_of_neg negative hnormal hleading he
    · exact exists_numeral_of_nonneg negative hnormal hleading he
  · exact exists_numeral_scientific negative d

/-! ## Numbers -/

/-- Half a place above any number but the two greatest ones there is room for two roundings. -/
theorem room_of_finite {m : Nat} {q : Int} (hm : m < 2 ^ 53) (hq : q ≤ BinaryFormat.greatestPlace)
    (h : q = BinaryFormat.greatestPlace → m < 2 ^ 53 - 2) :
    ((m : ℚ) + 1 / 2) * 2 ^ q * (Numeral.slack * Numeral.slack) < BinaryFormat.overflow := by
  unfold BinaryFormat.overflow Numeral.slack
  generalize BinaryFormat.greatestPlace = place at hq h
  have hpow : (0 : ℚ) < 2 ^ place := by positivity
  rcases eq_or_lt_of_le hq with rfl | hlt
  · have hcast : (m : ℚ) + 3 ≤ 2 ^ 53 := by
      have : m + 3 ≤ 2 ^ 53 := by
        have := h rfl
        omega
      exact_mod_cast this
    calc ((m : ℚ) + 1 / 2) * 2 ^ q * ((1 + 1 / 2 ^ 53) * (1 + 1 / 2 ^ 53))
        = (m + 1 / 2) * ((1 + 1 / 2 ^ 53) * (1 + 1 / 2 ^ 53)) * 2 ^ q := by ring
      _ < (2 ^ 53 - 1 / 2) * 2 ^ q := by
        refine mul_lt_mul_of_pos_right ?_ hpow
        linarith
  · have hcast : (m : ℚ) + 1 ≤ 2 ^ 53 := by exact_mod_cast hm
    have hhalf : 2 * (2 : ℚ) ^ q ≤ 2 ^ place := by
      rw [mul_comm, ← zpow_add_one₀ (by norm_num)]
      exact zpow_le_zpow_right₀ (by norm_num) hlt
    have hplace : (0 : ℚ) < 2 ^ q := by positivity
    calc ((m : ℚ) + 1 / 2) * 2 ^ q * ((1 + 1 / 2 ^ 53) * (1 + 1 / 2 ^ 53))
        = (m + 1 / 2) * ((1 + 1 / 2 ^ 53) * (1 + 1 / 2 ^ 53)) * 2 ^ q := by ring
      _ < (2 ^ 53 - 1 / 2) * 2 * 2 ^ q := by
        refine mul_lt_mul_of_pos_right ?_ hplace
        linarith
      _ = (2 ^ 53 - 1 / 2) * (2 * 2 ^ q) := by ring
      _ ≤ (2 ^ 53 - 1 / 2) * 2 ^ place := by
        refine mul_le_mul_of_nonneg_left hhalf ?_
        norm_num

/-- A numeral with its sign in front. -/
theorem ofChars?_signed {negative : Bool} {cs : List Char} {numeral : Numeral}
    (h : Numeral.ofUnsigned? negative cs = some numeral) :
    Numeral.ofChars? (if negative then '-' :: cs else cs) = some numeral := by
  cases negative with
  | true => exact h
  | false =>
    show Numeral.ofChars? cs = some numeral
    unfold Numeral.ofChars?
    split
    · -- what begins with a minus sign is no numeral without a sign
      cases h
    · exact h

/-- A numeral that is no integer is read if half a place above it there is room for two
roundings. -/
theorem IsNumeralOf.isSome_number? {d : Decimal} {negative : Bool} {numeral : Numeral}
    (h : IsNumeralOf d negative numeral)
    (hvalue : d.value * (Numeral.slack * Numeral.slack) < BinaryFormat.overflow) :
    numeral.number?.isSome = true := by
  have hreal : numeral.number? = numeral.real? := by
    unfold Numeral.number?
    rw [h.real]
    rfl
  rw [hreal]
  exact Numeral.isSome_real? h.fits (h.value.symm ▸ hvalue)

/-- The texts of the two greatest numbers and of their negatives are read. -/
theorem isSome_readNumber_greatest : ∀ negative, ∀ m ∈ [2 ^ 53 - 2, 2 ^ 53 - 1],
    (readNumber (numberStyle.unpacked BinaryFormat.double
      ⟨negative, .finite m BinaryFormat.greatestPlace⟩).toList).isSome = true := by
  decide +kernel

/-- The text of a number of a document is read as a number. -/
theorem isSome_readNumber_numberText (n : JsonNumber) :
    (readNumber (numberText n).toList).isSome = true := by
  cases n with
  | integer i inRange =>
    rw [readNumber_numberText_integer]
    rfl
  | real x finite =>
    obtain ⟨negative, m, q, hx⟩ := exists_unpack_of_isFinite finite
    obtain ⟨hm, hq⟩ := BinaryFormat.finite_bounds hx
    rw [numberText, NumberStyle.double, hx]
    -- the estimate is too coarse for the two greatest numbers, so these are computed
    by_cases hgreatest : q = BinaryFormat.greatestPlace ∧ 2 ^ 53 - 2 ≤ m
    · obtain ⟨rfl, hle⟩ := hgreatest
      have hmem : m ∈ [2 ^ 53 - 2, 2 ^ 53 - 1] := by
        rw [List.mem_cons, List.mem_singleton]
        omega
      exact isSome_readNumber_greatest negative m hmem
    · obtain ⟨hle, hnormal⟩ := BinaryFormat.double.value_shortest_le numberStyle.tie m q
      obtain ⟨numeral, hread, hnumeral⟩ := exists_numeral_decimal negative hnormal
      have hvalue : (BinaryFormat.double.shortest numberStyle.tie m q).value *
          (Numeral.slack * Numeral.slack) < BinaryFormat.overflow := by
        refine lt_of_le_of_lt ?_ (room_of_finite hm hq fun hplace => ?_)
        · exact mul_le_mul_of_nonneg_right hle (mul_self_nonneg _)
        · exact Nat.lt_of_not_le fun h => hgreatest ⟨hplace, h⟩
      have hsigned (s : String) : ((if negative then "-" else "") ++ s).toList
          = if negative then '-' :: s.toList else s.toList := by
        rw [String.toList_append]
        cases negative <;> rfl
      rw [readNumber, NumberStyle.unpacked, hsigned, ofChars?_signed hread, Option.bind_some]
      exact hnumeral.isSome_number? hvalue

/-! ## Documents -/

mutual
/-- The numbers of a document are all read anew. -/
theorem isSome_reread (json : Json) : json.reread.isSome = true := by
  match json with
  | .null | .bool _ | .string _ => rfl
  | .number n => rw [reread, Option.isSome_map, isSome_readNumber_numberText]
  | .array items => rw [reread, Option.isSome_map, isSome_rereadItems]
  | .object members => rw [reread, Option.isSome_map, isSome_rereadMembers]
theorem isSome_rereadItems (items : List Json) : (rereadItems items).isSome = true := by
  match items with
  | [] => rfl
  | item :: rest =>
    obtain ⟨item', hitem⟩ := Option.isSome_iff_exists.1 (isSome_reread item)
    rw [rereadItems, hitem, Option.bind_some, Option.isSome_map, isSome_rereadItems]
theorem isSome_rereadMembers (members : List (String × Json)) :
    (rereadMembers members).isSome = true := by
  match members with
  | [] => rfl
  | (key, value) :: rest =>
    obtain ⟨value', hvalue⟩ := Option.isSome_iff_exists.1 (isSome_reread value)
    rw [rereadMembers, hvalue, Option.bind_some, Option.isSome_map, isSome_rereadMembers]
end

mutual
/-- The tokens of a document are read as some document, inside open arrays and objects, exactly if
these leave it enough room. -/
theorem exists_parseTokens_tokens (json : Json) (stack : List Frame)
    (hstack : stack.length ≤ mostOpen) :
    ∃ read : Option Json, (read.isSome = true ↔ stack.length + json.depth ≤ mostOpen) ∧
      ∀ rest, parseTokens (.value stack) (tokens json ++ rest)
        = read.bind fun json' => parseTokens (deliver json' stack) rest := by
  match json with
  | .null | .bool _ | .number _ | .string _ =>
    exact ⟨some _, iff_of_true rfl hstack, fun _ => rfl⟩
  | .array items =>
    by_cases hopen : stack.length < mostOpen
    · have hstep : parseStep (.value stack) .openArray = some (.firstItem stack) := if_pos hopen
      match items with
      | [] =>
        refine ⟨some (.array []), iff_of_true rfl ?_, fun rest => ?_⟩
        · rw [depth, depthItems]
          omega
        · rw [tokens, List.append_assoc, List.cons_append, parseTokens_step hstep]
          rfl
      | item :: items =>
        have hne : item :: items ≠ [] := List.cons_ne_nil item items
        obtain ⟨read, hread, hitems⟩ :=
          exists_parseTokens_itemTokens (item :: items) hne [] stack hopen
        refine ⟨read.map .array, ?_, fun rest => ?_⟩
        · rw [Option.isSome_map, hread, depth]
          omega
        · rw [tokens, List.append_assoc, List.cons_append, parseTokens_step hstep,
            List.singleton_append, parseTokens_firstItem hne, hitems, Option.bind_map]
          rfl
    · have hstep : parseStep (.value stack) .openArray = none := if_neg hopen
      refine ⟨none, iff_of_false Bool.false_ne_true ?_, fun rest => ?_⟩
      · rw [depth]
        omega
      · rw [tokens, List.append_assoc, List.cons_append, parseTokens_cons, hstep]
        rfl
  | .object members =>
    by_cases hopen : stack.length < mostOpen
    · have hstep : parseStep (.value stack) .openObject = some (.firstKey stack) := if_pos hopen
      match members with
      | [] =>
        refine ⟨some (.object []), iff_of_true rfl ?_, fun rest => ?_⟩
        · rw [depth, depthMembers]
          omega
        · rw [tokens, List.append_assoc, List.cons_append, parseTokens_step hstep]
          rfl
      | member :: members =>
        have hne : member :: members ≠ [] := List.cons_ne_nil member members
        obtain ⟨read, hread, hmembers⟩ :=
          exists_parseTokens_memberTokens (member :: members) hne [] stack hopen
        refine ⟨read.map .object, ?_, fun rest => ?_⟩
        · rw [Option.isSome_map, hread, depth]
          omega
        · rw [tokens, List.append_assoc, List.cons_append, parseTokens_step hstep,
            List.singleton_append, parseTokens_firstKey hne, hmembers, Option.bind_map]
          rfl
    · have hstep : parseStep (.value stack) .openObject = none := if_neg hopen
      refine ⟨none, iff_of_false Bool.false_ne_true ?_, fun rest => ?_⟩
      · rw [depth]
        omega
      · rw [tokens, List.append_assoc, List.cons_append, parseTokens_cons, hstep]
        rfl
/-- The items of an array are read if there is room for each of them. -/
theorem exists_parseTokens_itemTokens (items : List Json) (hitems : items ≠ [])
    (before : List Json) (stack : List Frame) (hstack : stack.length < mostOpen) :
    ∃ read : Option (List Json),
      (read.isSome = true ↔ stack.length + 1 + depthItems items ≤ mostOpen) ∧
      ∀ rest, parseTokens (.value (.array before :: stack))
          (itemTokens items ++ .closeArray :: rest)
        = read.bind fun items' => parseTokens (deliver (.array items') stack) rest := by
  match items with
  | [] => exact absurd rfl hitems
  | [item] =>
    obtain ⟨read, hread, hitem⟩ := exists_parseTokens_tokens item (.array before :: stack) hstack
    refine ⟨read.map fun item' => (item' :: before).reverse, ?_, fun rest => ?_⟩
    · rw [Option.isSome_map, hread, depthItems, depthItems, List.length_cons, Nat.max_zero]
    · rw [itemTokens, hitem, Option.bind_map]
      rfl
  | item :: next :: more =>
    obtain ⟨read, hread, hitem⟩ := exists_parseTokens_tokens item (.array before :: stack) hstack
    have hne : next :: more ≠ [] := List.cons_ne_nil next more
    rw [List.length_cons] at hread
    have hsplit (rest : List Token) : itemTokens (item :: next :: more) ++ .closeArray :: rest
        = tokens item ++ .comma :: (itemTokens (next :: more) ++ .closeArray :: rest) := by
      rw [itemTokens_cons hne, List.append_assoc, List.cons_append]
    rw [depthItems]
    cases read with
    | none =>
      -- what comes after an item without room is not looked at
      have hdeep : ¬stack.length + 1 + item.depth ≤ mostOpen := fun h =>
        Bool.false_ne_true (hread.2 h)
      refine ⟨none, iff_of_false Bool.false_ne_true (by omega), fun rest => ?_⟩
      rw [hsplit, hitem]
      rfl
    | some item' =>
      have hshallow := hread.1 rfl
      obtain ⟨read, hread, hmore⟩ :=
        exists_parseTokens_itemTokens (next :: more) hne (item' :: before) stack hstack
      refine ⟨read, hread.trans (by omega), fun rest => ?_⟩
      rw [hsplit, hitem, ← hmore]
      rfl
/-- The members of an object are read if there is room for each of their values. -/
theorem exists_parseTokens_memberTokens (members : List (String × Json)) (hmembers : members ≠ [])
    (before : Members) (stack : List Frame) (hstack : stack.length < mostOpen) :
    ∃ read : Option Members,
      (read.isSome = true ↔ stack.length + 1 + depthMembers members ≤ mostOpen) ∧
      ∀ rest, parseTokens (.key before stack) (memberTokens members ++ .closeObject :: rest)
        = read.bind fun members' => parseTokens (deliver (.object members') stack) rest := by
  match members with
  | [] => exact absurd rfl hmembers
  | [(key, value)] =>
    obtain ⟨read, hread, hvalue⟩ :=
      exists_parseTokens_tokens value (.object before key :: stack) hstack
    refine ⟨read.map (before.insert key), ?_, fun rest => ?_⟩
    · rw [Option.isSome_map, hread, depthMembers, depthMembers, List.length_cons, Nat.max_zero]
    · show parseTokens (.value (.object before key :: stack)) (tokens value ++ _) = _
      rw [hvalue, Option.bind_map]
      rfl
  | (key, value) :: next :: more =>
    obtain ⟨read, hread, hvalue⟩ :=
      exists_parseTokens_tokens value (.object before key :: stack) hstack
    have hne : next :: more ≠ [] := List.cons_ne_nil next more
    rw [List.length_cons] at hread
    have hsplit (rest : List Token) : parseTokens (.key before stack)
        (memberTokens ((key, value) :: next :: more) ++ .closeObject :: rest)
          = parseTokens (.value (.object before key :: stack)) (tokens value ++
            .comma :: (memberTokens (next :: more) ++ .closeObject :: rest)) := by
      rw [memberTokens_cons hne, List.append_assoc]
      rfl
    rw [depthMembers]
    cases read with
    | none =>
      have hdeep : ¬stack.length + 1 + value.depth ≤ mostOpen := fun h =>
        Bool.false_ne_true (hread.2 h)
      refine ⟨none, iff_of_false Bool.false_ne_true (by omega), fun rest => ?_⟩
      rw [hsplit, hvalue]
      rfl
    | some value' =>
      have hshallow := hread.1 rfl
      obtain ⟨read, hread, hmore⟩ :=
        exists_parseTokens_memberTokens (next :: more) hne (before.insert key value') stack hstack
      refine ⟨read, hread.trans (by omega), fun rest => ?_⟩
      rw [hsplit, hvalue, ← hmore]
      rfl
end

/-- The text of a document is read, as some document, exactly if it is not nested too deeply. -/
theorem isSome_parse_text_iff (json : Json) :
    (parse (text json)).isSome = true ↔ json.depth ≤ mostOpen := by
  obtain ⟨json', hjson'⟩ := Option.isSome_iff_exists.1 (isSome_reread json)
  obtain ⟨-, hdepth⟩ := structure_of_reread hjson'
  obtain ⟨read, hread, htokens⟩ := exists_parseTokens_tokens json' [] (Nat.zero_le _)
  have hparse : parse (text json) = read := by
    have hrest := htokens []
    rw [List.append_nil] at hrest
    rw [parse, lex_text, mapM_reread_tokens, hjson', Option.map_some, Option.bind_some, hrest]
    cases read <;> rfl
  rw [hparse, hread, hdepth, List.length_nil, Nat.zero_add]

end Json

end RecordMapping

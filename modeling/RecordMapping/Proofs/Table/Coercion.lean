import RecordMapping.Proofs.Numeric.Rational
import RecordMapping.Proofs.Table.Nulls

/-!
# Numbers as identifiers

Wherever an identifier is called for, in an operation, in a filter, in a reference or in a row, a number
stands for the integer that it is (`Binary64.Identifies`), and one that is no integer stands for
nothing (`Binary64.IdentifiesNothing`). An integer beyond the range of identifiers does not stand for
nothing: it stands for the nearer end of the range, so all numbers from `2 ^ 63` on stand for one row
(`Binary64.identifies_integer`).
-/

namespace RecordMapping

/-! ## Where a number is an identifier -/

/-- A value is a number, or a record with the number as its identifier. -/
inductive Value.Carries : Value → Binary64 → Prop where
  | number (x : Binary64) : Carries (.number x) x
  | record {r : Record} {x : Binary64} (h : r.get? idName = some (.number x)) : Carries (.record r) x

/-- A key of a filter asks for the row that a number stands for: under the name of the identifier, or
by itself under a reference. -/
inductive Clause.AsksFor (fields : FieldSet) : String → Value → Binary64 → Prop where
  | identifier {v : Value} {x : Binary64} (h : v.Carries x) : AsksFor fields idName v x
  | reference {name : String} {field : FieldSpec} (x : Binary64) (hname : name ≠ idName)
      (hfield : fields.get? name = some field) (htype : field.type = .reference) :
    AsksFor fields name (.number x) x

/-- A number stands for an identifier: in each place it does what the identifier does there. -/
structure Binary64.Identifies (x : Binary64) (i : Int64) : Prop where
  value : ∀ v : Value, v.Carries x → v.id? = some i
  datum : (Datum.double (some x)).integer? = some i
  findById : ∀ (t : Table) (v : Value), v.Carries x → t.findById v = t.findRow i
  update : ∀ (t : Table) (v : Value) (changes : Record), v.Carries x →
    t.update v changes = t.update (.integer i) changes
  filter : ∀ (fields : FieldSet) (name : String) (v : Value) (before after : Record),
    Clause.AsksFor fields name v x →
      Clause.compile fields (before ++ (name, v) :: after)
        = Clause.compile fields (before ++ (name, .integer i) :: after)
  /-- In the filter of a reference, which names the identifier alone. -/
  nested : ∀ (t : Table) (field : FieldSpec) (v : Value), v.Carries x →
    t.localReference ⟨field, [(idName, v)]⟩ = t.localReference ⟨field, Record.withId i⟩
  /-- As the value of a reference. -/
  cast : ∀ (name : String) (v : Value), v.Carries x →
    FieldType.store name .reference v = .ok (.bigInt (some i))
  /-- In a column of dates or of references. -/
  load : ∀ (name : String) (type : FieldType), type = .date ∨ type = .reference →
    ∀ value, type.load name (.double (some x)) = .ok value ↔
      type.load name (.int64 (some i)) = .ok value
  /-- Under the name of the identifier in a row. -/
  row : ∀ (fields : FieldSet) (embedded : List Embedded) (row row' rest : Row),
    row.take idName = (some (.double (some x)), rest) →
      row'.take idName = (some (.int64 (some i)), rest) →
        decode fields embedded row = decode fields embedded row'
  /-- Under the name of the identifier in an embedded object. -/
  object : ∀ (name : String) (fields : FieldSet) (readers : Readers) (members members' rest : Members)
    (json json' : Json), Named.take idName members = (some json, rest) →
      Named.take idName members' = (some json', rest) → json.datum = .double (some x) →
        json'.datum = .int64 (some i) →
          readObject name fields readers (.object members)
            = readObject name fields readers (.object members')

/-- A number stands for no identifier: it finds and changes nothing, is refused as a value, and is
passed over in a row, as a null is. -/
structure Binary64.IdentifiesNothing (x : Binary64) : Prop where
  value : ∀ v : Value, v.Carries x → v.id? = none
  datum : (Datum.double (some x)).integer? = none
  findById : ∀ (t : Table) (v : Value), v.Carries x → t.findById v = pure none
  update : ∀ (t : Table) (v : Value) (changes : Record), v.Carries x →
    t.update v changes = pure none
  filter : ∀ (fields : FieldSet) (name : String) (v : Value) (filter : Record),
    Clause.AsksFor fields name v x → (name, v) ∈ filter → ∃ e, Clause.compile fields filter = .error e
  nested : ∀ (t : Table) (field : FieldSpec) (v : Value), v.Carries x →
    t.localReference ⟨field, [(idName, v)]⟩ = .error (.nestedFilter t.name field.name)
  cast : ∀ (name : String) (v : Value), v.Carries x →
    FieldType.store name .reference v = .error (.invalidValue name .identifier (.value v))
  load : ∀ (name : String) (type : FieldType), type = .date ∨ type = .reference →
    ∃ expected, type.load name (.double (some x))
      = .error (.invalidValue name expected (.datum (.double (some x))))
  row : ∀ (fields : FieldSet) (embedded : List Embedded) (row row' rest : Row),
    row.take idName = (some (.double (some x)), rest) →
      row'.take idName = (some (.int64 none), rest) →
        decode fields embedded row = decode fields embedded row'
  object : ∀ (name : String) (fields : FieldSet) (readers : Readers) (members members' rest : Members)
    (json : Json), Named.take idName members = (some json, rest) →
      Named.take idName members' = (some .null, rest) → json.datum = .double (some x) →
        readObject name fields readers (.object members)
          = readObject name fields readers (.object members')

/-! ## What each place asks of a value -/

variable {v : Value} {x : Binary64} {i : Int64}

namespace Value.Carries

theorem id?_eq (h : v.Carries x) : v.id? = x.toInt64? := by
  cases h with
  | number x => rfl
  | @record r x h =>
    show Record.id? r = _
    rw [Record.id?, h]
    rfl

theorem lookupId?_eq (h : v.Carries x) : v.lookupId? = x.toInt64? := by
  rw [← h.id?_eq]
  cases h <;> rfl

theorem ne_null (h : v.Carries x) : v ≠ .null := by
  rintro rfl
  cases h

/-- A value is stored in a reference by its identifier alone. -/
theorem store_eq (h : v.Carries x) (name : String) :
    FieldType.store name .reference v = match v.id? with
      | some id => .ok (.bigInt (some id))
      | none => .error (.invalidValue name .identifier (.value v)) := by
  cases h <;> rfl

end Value.Carries

theorem Table.findById_eq (t : Table) (v : Value) :
    t.findById v = v.lookupId?.elim (pure none) t.findRow := by
  unfold findById
  cases v.lookupId? <;> rfl

theorem Table.update_congr (t : Table) {v v' : Value} (h : v.lookupId? = v'.lookupId?)
    (changes : Record) : t.update v changes = t.update v' changes := by
  unfold update
  rw [h]

theorem Table.update_of_lookupId?_eq_none (t : Table) (h : v.lookupId? = none) (changes : Record) :
    t.update v changes = pure none := by
  unfold update
  rw [h]

/-- A reference with a filter that names the identifier alone. -/
theorem Table.localReference_id (t : Table) (field : FieldSpec) (h : v ≠ .null) :
    t.localReference ⟨field, [(idName, v)]⟩ = match v.id? with
      | some id => .ok (some (.equal none field.column (.bigInt (some id))))
      | none => .error (.nestedFilter t.name field.name) := by
  cases v with
  | null => exact absurd rfl h
  | _ => rfl

namespace FieldType

variable {name : String} {type : FieldType} {d d' : Datum}

theorem load_eq_map (hd : d.isNull = false) : type.load name d = (type.loadValue name d).map some := by
  rw [load, hd]
  rfl

/-- A column of dates or of references is read by the integer in it. -/
theorem load_eq_ok_congr (htype : type = .date ∨ type = .reference) (hd : d.isNull = false)
    (hd' : d'.isNull = false) (h : d.integer? = d'.integer?) (value : Option Value) :
    type.load name d = .ok value ↔ type.load name d' = .ok value := by
  rw [load_eq_map hd, load_eq_map hd']
  rcases htype with rfl | rfl
  · rw [loadValue, loadValue, loadDate, loadDate, h]
    cases d'.integer? with
    | none => simp [Except.map]
    | some millis =>
      -- beyond the calendar the two errors name what was found
      dsimp only
      cases Instant.ofMillis? millis.toInt <;> simp [Except.map]
  · rw [loadValue, loadValue, loadReference, loadReference, h]
    cases d'.integer? <;> simp [Except.map]

theorem load_of_integer?_eq_none (htype : type = .date ∨ type = .reference) (hd : d.isNull = false)
    (h : d.integer? = none) :
    ∃ expected, type.load name d = .error (.invalidValue name expected (.datum d)) := by
  rw [load_eq_map hd]
  rcases htype with rfl | rfl
  · rw [loadValue, loadDate, h]
    exact ⟨.milliseconds, rfl⟩
  · rw [loadValue, loadReference, h]
    exact ⟨.identifier, rfl⟩

end FieldType

/-- What a row says of its identifier is the integer under it. -/
theorem decode_eq_of_take (fields : FieldSet) (embedded : List Embedded) {row row' rest : Row}
    {d d' : Datum} (hrow : row.take idName = (some d, rest)) (hrow' : row'.take idName = (some d', rest))
    (h : d.integer? = d'.integer?) : decode fields embedded row = decode fields embedded row' := by
  unfold decode
  rw [hrow, hrow']
  dsimp only [Option.bind_some]
  rw [h]

/-- So is what an embedded object says. -/
theorem readObject_eq_of_take (name : String) (fields : FieldSet) (readers : Readers)
    {members members' rest : Members} {json json' : Json}
    (hmembers : Named.take idName members = (some json, rest))
    (hmembers' : Named.take idName members' = (some json', rest))
    (h : json.datum.integer? = json'.datum.integer?) :
    readObject name fields readers (.object members)
      = readObject name fields readers (.object members') := by
  unfold readObject
  dsimp only
  rw [← Named.take_fst, ← Named.take_fst, Named.erase, Named.erase, hmembers, hmembers']
  dsimp only [Option.bind_some]
  rw [h]

namespace Clause

variable {fields : FieldSet} {name : String}

/-- A key that asks for the row of a number asks for that of the identifier it stands for. -/
theorem AsksFor.item_eq (h : AsksFor fields name v x) (hx : x.toInt64? = some i) :
    item fields name v = item fields name (.integer i) := by
  cases h with
  | identifier hv =>
    have hinteger : (Value.integer i).id? = some i := rfl
    rw [item_idName, item_idName, identifierFilter_of_ne_null hv.ne_null, hv.id?_eq, hx,
      identifierFilter_of_ne_null (by simp), hinteger]
  | reference x hname hfield htype =>
    have hnumber : (Value.number x).id? = some i := hx
    have hinteger : (Value.integer i).id? = some i := rfl
    rw [item_reference hname hfield htype, item_reference hname hfield htype,
      referenceFilter_of_ne_record (by simp) rfl, hnumber,
      referenceFilter_of_ne_record (by simp) rfl, hinteger]

/-- It is refused where the number stands for nothing. -/
theorem AsksFor.exists_refused (h : AsksFor fields name v x) (hx : x.toInt64? = none) :
    ∃ e, Refused fields name v e := by
  cases h with
  | identifier hv => exact ⟨_, .identifier hv.ne_null (hv.id?_eq.trans hx)⟩
  | reference x hname hfield htype =>
    exact ⟨_, .reference hname hfield htype (by simp) rfl hx⟩

theorem compile_congr_item {v' : Value} (h : item fields name v = item fields name v')
    (before after : Record) : compile fields (before ++ (name, v) :: after)
      = compile fields (before ++ (name, v') :: after) := by
  unfold compile
  rw [List.mapM_append, List.mapM_append, List.mapM_cons, List.mapM_cons]
  dsimp only
  rw [h]

end Clause

/-! ## Numbers that are integers, and others -/

namespace Binary64

theorem identifies_of_toInt64? (h : x.toInt64? = some i) : x.Identifies i where
  value v hv := hv.id?_eq.trans h
  datum := h
  findById t v hv := by
    rw [t.findById_eq, hv.lookupId?_eq, h]
    rfl
  update t v changes hv := by
    have hinteger : (Value.integer i).lookupId? = some i := rfl
    exact t.update_congr (by rw [hv.lookupId?_eq, h, hinteger]) changes
  filter fields name v before after hasks :=
    Clause.compile_congr_item (hasks.item_eq h) before after
  nested t field v hv := by
    rw [t.localReference_id field hv.ne_null, hv.id?_eq, h]
    rfl
  cast name v hv := by rw [hv.store_eq, hv.id?_eq, h]
  load name type htype value := by
    have hx : (Datum.double (some x)).integer? = (Datum.int64 (some i)).integer? := h
    exact FieldType.load_eq_ok_congr htype rfl rfl hx value
  row fields embedded row row' rest hrow hrow' := decode_eq_of_take fields embedded hrow hrow' h
  object name fields readers members members' rest json json' hmembers hmembers' hjson hjson' := by
    refine readObject_eq_of_take name fields readers hmembers hmembers' ?_
    rw [hjson, hjson']
    exact h

theorem identifiesNothing_of_toInt64? (h : x.toInt64? = none) : x.IdentifiesNothing where
  value v hv := hv.id?_eq.trans h
  datum := h
  findById t v hv := by
    rw [t.findById_eq, hv.lookupId?_eq, h]
    rfl
  update t v changes hv := t.update_of_lookupId?_eq_none (hv.lookupId?_eq.trans h) changes
  filter fields name v filter hasks hkey :=
    Clause.exists_compile_eq_error_iff.2 ⟨(name, v), hkey, hasks.exists_refused h⟩
  nested t field v hv := by rw [t.localReference_id field hv.ne_null, hv.id?_eq, h]
  cast name v hv := by rw [hv.store_eq, hv.id?_eq, h]
  load name type htype := FieldType.load_of_integer?_eq_none htype rfl h
  row fields embedded row row' rest hrow hrow' := decode_eq_of_take fields embedded hrow hrow' h
  object name fields readers members members' rest json hmembers hmembers' hjson := by
    refine readObject_eq_of_take name fields readers hmembers hmembers' ?_
    rw [hjson]
    exact h

theorem identifies_iff : x.Identifies i ↔ x.toInt64? = some i :=
  ⟨fun h => h.datum, identifies_of_toInt64?⟩

theorem identifiesNothing_iff : x.IdentifiesNothing ↔ x.toInt64? = none :=
  ⟨fun h => h.datum, identifiesNothing_of_toInt64?⟩

/-- A number stands for the integer that it is, or for the nearer end of the range if it is an integer
beyond it; all others stand for nothing. So a number stands for exactly the integer that it is if and
only if it is not beyond the range, and of two such numbers that stand for one row, both are the same
rational. -/
theorem identifies_integer (x : Binary64) :
    (∀ i : Int64, x.Identifies i ↔
      ∃ n : ℤ, x.rational? = some (n : ℚ) ∧ i.toInt = max (-2 ^ 63) (min n (2 ^ 63 - 1))) ∧
    (x.IdentifiesNothing ↔ ∀ n : ℤ, x.rational? ≠ some (n : ℚ)) ∧
    ((∀ i : Int64, x.Identifies i ↔ x.rational? = some (i.toInt : ℚ)) ↔ ¬x.Overshoots) ∧
    ∀ (y : Binary64) (i : Int64), ¬x.Overshoots → ¬y.Overshoots →
      x.Identifies i → y.Identifies i → x.rational? = y.rational? := by
  simp only [identifies_iff, identifiesNothing_iff]
  refine ⟨fun i => toInt64?_eq_some_iff, toInt64?_eq_none_iff, toInt64?_exact_iff, ?_⟩
  intro y i hx hy hxi hyi
  rw [(toInt64?_exact_iff.2 hx i).1 hxi, (toInt64?_exact_iff.2 hy i).1 hyi]

/-- The two zeros stand for one row, and are one rational. -/
theorem identifies_integer_zeros :
    zero.Identifies 0 ∧ zero.neg.Identifies 0 ∧ zero.rational? = zero.neg.rational? := by
  have hzero : zero.rational? = some ((0 : ℤ) : ℚ) := toInt?_eq_some_iff.1 (by decide +kernel)
  have hneg : zero.neg.rational? = some ((0 : ℤ) : ℚ) := toInt?_eq_some_iff.1 (by decide +kernel)
  have hwithin : ∀ x : Binary64, x.rational? = some ((0 : ℤ) : ℚ) → ¬x.Overshoots := by
    rintro x hx ⟨n, hn, hbeyond⟩
    rw [hx, Option.some.injEq, Int.cast_inj] at hn
    omega
  have hx := (identifies_integer zero).2.2.1.2 (hwithin _ hzero) 0
  have hy := (identifies_integer zero.neg).2.2.1.2 (hwithin _ hneg) 0
  exact ⟨hx.2 hzero, hy.2 hneg, (identifies_integer zero).2.2.2 zero.neg 0 (hwithin _ hzero)
    (hwithin _ hneg) (hx.2 hzero) (hy.2 hneg)⟩

/-- The numbers `2 ^ 63` and `2 ^ 64` are different integers, neither of them an identifier, and both
stand for the last row. -/
theorem identifies_maxValue_beyond :
    (⟨0x43e0000000000000⟩ : Binary64).rational? = some ((2 ^ 63 : ℤ) : ℚ) ∧
    (⟨0x43f0000000000000⟩ : Binary64).rational? = some ((2 ^ 64 : ℤ) : ℚ) ∧
    (∀ i : Int64, i.toInt ≠ 2 ^ 63 ∧ i.toInt ≠ 2 ^ 64) ∧
    (⟨0x43e0000000000000⟩ : Binary64).Identifies Int64.maxValue ∧
    (⟨0x43f0000000000000⟩ : Binary64).Identifies Int64.maxValue := by
  refine ⟨toInt?_eq_some_iff.1 (by decide +kernel), toInt?_eq_some_iff.1 (by decide +kernel), ?_,
    identifies_of_toInt64? (by decide +kernel), identifies_of_toInt64? (by decide +kernel)⟩
  intro i
  have hlt := i.toInt_lt
  omega

end Binary64

end RecordMapping

import RecordMapping.Proofs.Query.Evaluation
import RecordMapping.Proofs.Record.Reading

/-!
# Values from the texts of an engine

An engine writes the values of a row into an object as texts, and the library reads these. What
comes back for a null, an integer or a text is what was written; what comes back for a number is a
number, which may be another one, or nothing (`Operators.returned?`). A row whose numbers come back
as they are is read the same as it comes back.
-/

namespace RecordMapping

/-! ## Stored values as members -/

/-- A 64-bit integer is in its own range. -/
theorem int64?_toInt (i : Int64) : int64? i.toInt = some i := by
  unfold int64?
  rw [if_pos ⟨i.minValue_le_toInt, i.toInt_le⟩, Int64.ofInt_toInt]

/-- Whether a physical value is one that rows hold: a null, an integer, a finite number or a
text. -/
def Datum.isStored (d : Datum) : Bool :=
  d.isNull || match d with
    | .int64 _ | .text _ => true
    | .double (some x) => x.isFinite
    | _ => false

/-- Whether a physical value is a double. -/
def Datum.isDouble : Datum → Bool
  | .double (some _) => true
  | _ => false

/-- A null holds no integer. -/
theorem Datum.integer?_of_isNull {d : Datum} (h : d.isNull = true) : d.integer? = none := by
  cases d with
  | boolean v | int32 v | int64 v | uint32 v | uint64 v | float v | double v | text v | binary v =>
    cases v with
    | none => rfl
    | some a => cases h

/-- What a row has in a column. -/
theorem Row.value_of_get? {row : Row} {column : String} {d : Datum} (h : row.get? column = some d) :
    row.value column = d := by
  rw [value, h, Option.getD_some]

/-- A column that a row lacks holds no integer. -/
theorem Row.integer?_value (row : Row) (column : String) :
    (row.value column).integer? = (row.get? column).bind Datum.integer? := by
  unfold value
  cases row.get? column <;> rfl

/-! ### Values as they come back -/

namespace Operators

variable (ops : Operators)

/-- What comes back for a value from its text in an object, if the text can be read. -/
def returned? (d : Datum) : Option Datum := (Json.parse (ops.write d)).map Json.datum

/-- What comes back for a value. One whose text cannot be read stands for itself. -/
def returned (d : Datum) : Datum := (ops.returned? d).getD d

/-- A null comes back as a null. -/
theorem returned?_of_isNull {d : Datum} (h : d.isNull = true) :
    ops.returned? d = some (.text none) := by
  rw [returned?, ops.parse_write_of_isNull h]
  rfl

/-- An integer comes back as it is. -/
theorem returned?_integer (i : Int64) :
    ops.returned? (.int64 (some i)) = some (.int64 (some i)) := by
  have hnumber : (JsonNumber.ofInt64 i).toInt64? = some i := int64?_toInt i
  rw [returned?, ops.parse_write_integer, Option.map_some, Json.ofInt64, Json.datum, hnumber]

/-- A text comes back as it is. -/
theorem returned?_text (s : String) :
    ops.returned? (.text (some s)) = some (.text (some s)) := by
  rw [returned?, ops.parse_write_text]
  rfl

/-- A number comes back as one, if it comes back at all. -/
theorem isNull_returned_double {x : Binary64} (hfinite : x.isFinite = true) :
    (ops.returned (.double (some x))).isNull = false := by
  unfold returned returned?
  cases hparse : Json.parse (ops.write (.double (some x))) with
  | none => rfl
  | some json =>
    obtain ⟨n, rfl⟩ := ops.write_number x json hfinite hparse
    show (Json.datum (.number n)).isNull = false
    simp only [Json.datum]
    split <;> rfl

/-- A stored value that is not null comes back as such a value. -/
theorem isNull_returned {d : Datum} (hstored : d.isStored = true) (hnull : d.isNull = false) :
    (ops.returned d).isNull = false := by
  unfold Datum.isStored at hstored
  rw [hnull, Bool.false_or] at hstored
  split at hstored
  · next i =>
    cases i with
    | none => cases hnull
    | some i =>
      rw [returned, ops.returned?_integer]
      rfl
  · next s =>
    cases s with
    | none => cases hnull
    | some s =>
      rw [returned, ops.returned?_text]
      rfl
  · exact ops.isNull_returned_double hstored
  · cases hstored

end Operators

/-- A row with its values as they come back from an object. -/
def Row.returned (ops : Operators) (row : Row) : Row where
  index := row.index
  columns := row.columns.map fun c => (c.1, ops.returned c.2)

/-- Bindings with the values of all rows as they come back from objects. -/
def Bindings.returned (ops : Operators) (b : Bindings) : Bindings := fun a => (b a).returned ops

namespace Row

variable (ops : Operators) (row : Row) (column : String)

theorem get?_returned : (row.returned ops).get? column = (row.get? column).map ops.returned := by
  unfold get? returned
  induction row.columns with
  | nil => rfl
  | cons c rest ih =>
    obtain ⟨name, d⟩ := c
    rw [List.map_cons, Named.get?_cons, Named.get?_cons, ih]
    split <;> rfl

/-- A column that a row lacks counts as null, and a null comes back as null. -/
theorem value_returned : (row.returned ops).value column = ops.returned (row.value column) := by
  unfold value
  rw [get?_returned]
  cases row.get? column with
  | some d => rfl
  | none =>
    have hnull : ops.returned? (.text none) = some (.text none) := ops.returned?_of_isNull rfl
    show Datum.text none = ops.returned (.text none)
    rw [Operators.returned, hnull]
    rfl

end Row

/-- A column that has a stored value is null as it comes back if it was null before. -/
theorem Operators.isNull_returned_value (ops : Operators) (b : Bindings) {a column : String}
    (hstored : ((b a).value column).isNull = false → ((b a).value column).isStored = true) :
    (((b.returned ops) a).value column).isNull = ((b a).value column).isNull := by
  rw [Bindings.returned, Row.value_returned]
  cases hnull : ((b a).value column).isNull with
  | true =>
    rw [returned, ops.returned?_of_isNull hnull]
    rfl
  | false => exact ops.isNull_returned (hstored hnull) hnull

/-! ### Numbers that come back as they are -/

section Kept

variable {ops : Operators} {d : Datum}

/-- A stored value comes back as it is, or as a null if it is one, unless it is a number. -/
theorem Operators.returned?_of_kept (hstored : d.isStored = true)
    (hkept : d.isDouble = true → ops.returned? d = some d) :
    ops.returned? d = some (if d.isNull then .text none else d) := by
  by_cases hnull : d.isNull = true
  · rw [if_pos hnull]
    exact ops.returned?_of_isNull hnull
  · rw [if_neg hnull]
    unfold Datum.isStored at hstored
    rw [Bool.eq_false_iff.2 hnull, Bool.false_or] at hstored
    split at hstored
    · next i =>
      cases i with
      | none => exact absurd rfl hnull
      | some i => exact ops.returned?_integer i
    · next s =>
      cases s with
      | none => exact absurd rfl hnull
      | some s => exact ops.returned?_text s
    · exact hkept rfl
    · cases hstored

theorem Operators.returned_of_kept (hstored : d.isStored = true)
    (hkept : d.isDouble = true → ops.returned? d = some d) :
    ops.returned d = if d.isNull then .text none else d := by
  rw [returned, returned?_of_kept hstored hkept]
  rfl

/-- A value that comes back as it is holds the same integer. -/
theorem Operators.integer?_returned_of_kept (hstored : d.isStored = true)
    (hkept : d.isDouble = true → ops.returned? d = some d) :
    (ops.returned d).integer? = d.integer? := by
  rw [returned_of_kept hstored hkept]
  split
  · next hnull => rw [Datum.integer?_of_isNull hnull]; rfl
  · rfl

/-- A field reads the same from a value that comes back as it is. -/
theorem FieldSpec.load_returned_of_kept (field : FieldSpec) (hstored : d.isStored = true)
    (hkept : d.isDouble = true → ops.returned? d = some d) :
    field.load (ops.returned d) = field.load d := by
  rw [Operators.returned_of_kept hstored hkept]
  split
  · next hnull =>
    unfold load FieldType.load
    rw [if_pos hnull]
    rfl
  · rfl

end Kept

end RecordMapping

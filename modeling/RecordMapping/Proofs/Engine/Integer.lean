import Mathlib.Algebra.Ring.Int.Defs
import Mathlib.Algebra.Ring.Nat
import RecordMapping.Engine.Storage
import RecordMapping.Proofs.Sql.Statement

/-!
# Integers across the boundary of the engine

The engine has integers of one kind, with 64 bits and a sign. What is bound for a whole number comes
back as the same number, by itself and out of a text field, if it is below `2 ^ 63`
(`Datum.crossesAs_iff`). That is all of them but the upper half of the unsigned ones, which wrap
around and come back negative. The limit of a selection is such an unsigned number.
-/

namespace RecordMapping

namespace Datum

/-- The integer that a physical value of an integral kind stands for; truth values are of this kind. -/
def whole? : Datum → Option Int
  | .boolean (some b) => some (if b then 1 else 0)
  | .int32 (some i) => some i.toInt
  | .int64 (some i) => some i.toInt
  | .uint32 (some n) => some n.toNat
  | .uint64 (some n) => some n.toNat
  | _ => none

/-- A physical value is bound as an integer, and comes back as this integer, whether it is read as an
integer or as what passes through a text field. -/
def CrossesAs (d : Datum) (n : Int) : Prop :=
  ∃ (i : Int64) (back : Datum), i.toInt = n ∧ d.stored = .integer i ∧
    d.stored.kept.datum = .ok back ∧ back.integer? = some i ∧
      ∀ name, FieldType.load name .string back = .ok (some (.integer i))

variable {d : Datum} {n m : Int}

theorem crossesAs_of_stored {i : Int64} (h : d.stored = .integer i) : d.CrossesAs i.toInt := by
  refine ⟨i, .int64 (some i), rfl, h, ?_, rfl, fun name => rfl⟩
  rw [h]
  rfl

/-- A physical value is bound as one integer. -/
theorem CrossesAs.unique (h : d.CrossesAs n) (h' : d.CrossesAs m) : n = m := by
  obtain ⟨i, -, rfl, hi, -⟩ := h
  obtain ⟨j, -, rfl, hj, -⟩ := h'
  have hij : StoredValue.integer i = .integer j := hi.symm.trans hj
  cases hij
  rfl

/-- The signed word with the bits of an unsigned one. -/
theorem toInt_toInt64 (n : UInt64) :
    n.toInt64.toInt = if (n.toNat : Int) < 2 ^ 63 then (n.toNat : Int) else n.toNat - 2 ^ 64 := by
  have hlt : n.toNat < 2 ^ 64 := n.toNat_lt
  show n.toBitVec.toInt = _
  rw [BitVec.toInt_eq_toNat_cond, UInt64.toNat_toBitVec]
  split <;> split <;> omega

/-- A whole number is bound as the integer that it is, or it is an unsigned word. -/
theorem exists_stored_or_eq_uint64 (h : d.whole? = some n) :
    (n < 2 ^ 63 ∧ ∃ i, d.stored = .integer i ∧ i.toInt = n) ∨
      ∃ k : UInt64, d = .uint64 (some k) ∧ n = k.toNat := by
  rcases d with (_ | b) | (_ | i) | (_ | i) | (_ | k) | (_ | k) | _ | _ | _ | _ <;> cases h
  case boolean.some =>
    refine .inl ⟨by cases b <;> decide, _, rfl, ?_⟩
    cases b <;> decide
  case int32.some =>
    have hlt : i.toInt < 2 ^ 31 := i.toInt_lt
    exact .inl ⟨by omega, _, rfl, Int32.toInt_toInt64 i⟩
  case int64.some => exact .inl ⟨i.toInt_lt, i, rfl, rfl⟩
  case uint32.some =>
    have hlt : k.toNat < 2 ^ 32 := k.toNat_lt
    exact .inl ⟨by omega, _, rfl, Int64.toInt_ofNat_of_lt (by omega)⟩
  case uint64.some => exact .inr ⟨k, rfl, rfl⟩

/-- A whole number keeps its value if and only if it is below `2 ^ 63`. -/
theorem crossesAs_iff (h : d.whole? = some n) : d.CrossesAs n ↔ n < 2 ^ 63 := by
  rcases exists_stored_or_eq_uint64 h with ⟨hlt, i, hstored, rfl⟩ | ⟨k, rfl, rfl⟩
  · exact ⟨fun _ => hlt, fun _ => crossesAs_of_stored hstored⟩
  · have hcrosses : (uint64 (some k)).CrossesAs k.toInt64.toInt := crossesAs_of_stored rfl
    rw [toInt_toInt64] at hcrosses
    constructor
    · intro hsame
      have heq := hcrosses.unique hsame
      split at heq <;> omega
    · intro hlt
      rwa [if_pos hlt] at hcrosses

/-- A greater one comes back negative, though it is no integer where it is read before. -/
theorem crossesAs_wrapped (h : d.whole? = some n) (hn : 2 ^ 63 ≤ n) :
    d.CrossesAs (n - 2 ^ 64) ∧ n - 2 ^ 64 < 0 ∧ d.integer? = none := by
  rcases exists_stored_or_eq_uint64 h with ⟨hlt, -⟩ | ⟨k, rfl, rfl⟩
  · omega
  · have hcrosses : (uint64 (some k)).CrossesAs k.toInt64.toInt := crossesAs_of_stored rfl
    rw [toInt_toInt64, if_neg (by omega)] at hcrosses
    have hlt : k.toNat < 2 ^ 64 := k.toNat_lt
    have hmax : Int64.maxValue.toInt = 2 ^ 63 - 1 := by decide
    exact ⟨hcrosses, by omega, if_neg (by omega)⟩

end Datum

/-! ## Limits -/

/-- A text and a bound value at the end of a statement. -/
theorem Pieces.query_append_bind (pieces : Pieces) (text : String) {param : Param} {d : Datum}
    (h : param.datum = .ok d) :
    query (pieces ++ [.text text, .bind param])
      = pieces.query.map fun q => ⟨q.sql ++ (text ++ "?"), q.params ++ [d]⟩ := by
  have hdata : Param.data (pieces.params ++ [param])
      = (Param.data pieces.params).map fun data => data ++ [d] := by
    unfold Param.data
    rw [List.mapM_append, List.mapM_cons, List.mapM_nil, h]
    cases pieces.params.mapM Param.datum <;> rfl
  have htext : Pieces.text (pieces ++ [.text text, .bind param]) = pieces.text ++ (text ++ "?") := by
    simp [pieceText]
  unfold query
  rw [params_append, params_text, params_bind, params_nil, hdata, htext]
  cases Param.data pieces.params <;> rfl

/-- A limit is bound at the end of a selection. -/
theorem Select.query_limit (s : Select) (n : UInt64) :
    Pieces.query { s with limit := some n }.pieces
      = (Pieces.query { s with limit := none }.pieces).map fun q =>
          ⟨q.sql ++ " LIMIT ?", q.params ++ [.uint64 (some n)]⟩ := by
  have hpieces : { s with limit := some n }.pieces
      = { s with limit := none }.pieces ++ [.text " LIMIT ", .bind (.bigUnsigned (some n))] := by
    simp [pieces, limitPieces, source]
  rw [hpieces, Pieces.query_append_bind _ _ rfl]
  rfl

/-- A whole number of any kind is bound as an integer and comes back as the same integer, by itself and
out of a text field, if and only if it is below `2 ^ 63`. From there on, where it is an unsigned word,
it comes back as a negative integer, less by `2 ^ 64`, although it is refused where it is read as an
integer before. A limit is bound at the end of a selection as such an unsigned word, so it reaches the
engine as it is if and only if it is below `2 ^ 63`. -/
theorem crossesAs_of_whole? {d : Datum} {n : Int} (h : d.whole? = some n) (s : Select) (k : UInt64) :
    (d.CrossesAs n ↔ n < 2 ^ 63) ∧
    (2 ^ 63 ≤ n → d.CrossesAs (n - 2 ^ 64) ∧ n - 2 ^ 64 < 0 ∧ d.integer? = none) ∧
    Pieces.query { s with limit := some k }.pieces
      = (Pieces.query { s with limit := none }.pieces).map (fun q =>
          ⟨q.sql ++ " LIMIT ?", q.params ++ [.uint64 (some k)]⟩) ∧
    ((Datum.uint64 (some k)).CrossesAs k.toNat ↔ k.toNat < 2 ^ 63) := by
  refine ⟨Datum.crossesAs_iff h, Datum.crossesAs_wrapped h, s.query_limit k, ?_⟩
  rw [Datum.crossesAs_iff rfl]
  omega

/-- The greatest integer that keeps its value crosses as an unsigned word, also as a limit. -/
theorem crossesAs_of_whole?_greatest :
    (Datum.uint64 (some 9223372036854775807)).whole? = some 9223372036854775807 ∧
      (Datum.uint64 (some 9223372036854775807)).CrossesAs 9223372036854775807 ∧
      Pieces.query { table := "people", limit := some 9223372036854775807 : Select }.pieces
        = .ok ⟨"SELECT \"people\".* FROM \"people\" LIMIT ?", [.uint64 (some 9223372036854775807)]⟩ := by
  have hwhole : (Datum.uint64 (some 9223372036854775807)).whole? = some 9223372036854775807 := by
    decide
  obtain ⟨hcrosses, -, hlimit, -⟩ :=
    crossesAs_of_whole? hwhole { table := "people" } 9223372036854775807
  exact ⟨hwhole, hcrosses.2 (by decide), hlimit⟩

/-- The next unsigned word is bound as the least integer, and a limit of it is bound as negative. -/
theorem not_crossesAs_two_pow :
    (Datum.uint64 (some 9223372036854775808)).whole? = some 9223372036854775808 ∧
      (Datum.uint64 (some 9223372036854775808)).stored = .integer (-9223372036854775808) ∧
      ¬(Datum.uint64 (some 9223372036854775808)).CrossesAs 9223372036854775808 ∧
      (Statement.select { table := "people", limit := some 9223372036854775808 }).query
        = .ok ⟨"SELECT \"people\".* FROM \"people\" LIMIT ?", [.uint64 (some 9223372036854775808)]⟩ := by
  refine ⟨by decide, by decide, ?_, rfl⟩
  rw [Datum.crossesAs_iff (by decide)]
  decide

end RecordMapping

import Mathlib.Data.List.Perm.Basic
import RecordMapping.Proofs.Record.Taking

/-!
# Rows in another order

A row is read by the names of its columns. Reading looks up some names only (`lookedUp`), and of the
columns that share such a name it takes one after the other, so the outcome depends on nothing but
the sequence of values under each of these names (`decode_congr`). In a row with distinct names such
a sequence is one value at most: neither the order of the columns matters then, nor what the row
holds under other names, nor its position in the result (`decode_eq_of_perm`).
-/

namespace RecordMapping

namespace Named

variable {α : Type} {l l' : Named α} {name : String}

/-- Another order of things is another order of those with one name. -/
theorem perm_all (h : l.Perm l') (name : String) : (l.all name).Perm (l'.all name) :=
  (h.filter _).map _

theorem all_eq_nil (h : name ∉ l.names) : l.all name = [] := by
  rw [← List.length_eq_zero_iff, length_all, List.count_eq_zero]
  exact h

/-- Distinct names have one thing each at most. -/
theorem length_all_le_one (h : l.names.Nodup) (name : String) : (l.all name).length ≤ 1 := by
  rw [length_all]
  exact List.nodup_iff_count_le_one.1 h name

end Named

/-- Two orders of one thing at most are the same. -/
theorem eq_of_perm_of_length_le_one {α : Type} {l l' : List α} (h : l.Perm l')
    (hlength : l'.length ≤ 1) : l = l' := by
  match l', hlength with
  | [], _ => exact List.perm_nil.1 h
  | [a], _ => exact List.perm_singleton.1 h

/-! ## The names that are looked up -/

/-- The names under which a row is looked into: that of the identifier, those of the columns of the
fields, and those of the fields with objects. -/
def lookedUp (fields : FieldSet) (embedded : List Embedded) : List String :=
  idName :: fields.columns ++ embedded.map Embedded.field

theorem names_readers (embedded : List Embedded) :
    (Embedded.readers embedded).names = embedded.map Embedded.field := by
  induction embedded with
  | nil => rfl
  | cons e rest ih => rw [Embedded.readers, Named.names_cons, ih, List.map_cons]

/-- Two rows have the same values under each of some names, in the same order. -/
def Row.Agree (names : List String) (row row' : Row) : Prop :=
  ∀ name ∈ names, row.columns.all name = row'.columns.all name

namespace Row.Agree

variable {names : List String} {row row' : Row} {name : String}

theorem get?_eq (h : row.Agree names row') (hname : name ∈ names) :
    row.get? name = row'.get? name := by
  show row.columns.get? name = row'.columns.get? name
  rw [Named.get?_eq_head?_all, Named.get?_eq_head?_all, h name hname]

/-- They still agree after columns were taken out of both, whatever the names of these are. -/
theorem drawn_eq (h : row.Agree names row') (hname : name ∈ names) (taken : List String) :
    row.drawn taken name = row'.drawn taken name := by
  rw [Row.drawn, Row.drawn, h name hname]

end Row.Agree

/-! ## Reading -/

section

variable {fields : FieldSet} {embedded : List Embedded} {row row' : Row}

/-- A field draws the same from rows that agree: its own name is looked up only if it has an
object. -/
theorem drawnValue_congr (h : row.Agree (lookedUp fields embedded) row') {field : FieldSpec}
    (hfield : field ∈ fields.specs) :
    drawnValue (Embedded.readers embedded) fields.specs row field
      = drawnValue (Embedded.readers embedded) fields.specs row' field := by
  have hcolumn : field.column ∈ lookedUp fields embedded :=
    List.mem_append_left _ (List.mem_cons_of_mem _ (List.mem_map_of_mem hfield))
  unfold drawnValue rowValue
  rw [h.drawn_eq hcolumn]
  cases hread : (Embedded.readers embedded).get? field.name with
  | none => rfl
  | some read =>
    have hname : field.name ∈ lookedUp fields embedded := by
      refine List.mem_append_right _ ?_
      rw [← names_readers]
      exact List.mem_map_of_mem (Named.mem_of_get? hread)
    rw [h.drawn_eq hname]

/-- Rows that agree under the names that are looked up are read alike. -/
theorem decode_congr (h : row.Agree (lookedUp fields embedded) row') :
    decode fields embedded row = decode fields embedded row' := by
  have hid : idName ∈ lookedUp fields embedded := List.mem_cons_self
  rw [decode_eq_gather_drawn, decode_eq_gather_drawn, h.get?_eq hid]
  exact gather_congr (fun field hfield => drawnValue_congr h hfield) _

/-- In a row with distinct names further columns under names that are not looked up, and any order
of all of them, leave the values under the other names as they are. -/
theorem Row.agree_of_perm {names : List String} {extra : Named Datum}
    (hnodup : row.columns.names.Nodup) (hperm : row'.columns.Perm (row.columns ++ extra))
    (hextra : ∀ name ∈ extra.names, name ∉ names) : row'.Agree names row := by
  intro name hname
  have hnone : extra.all name = [] := Named.all_eq_nil fun h => hextra name h hname
  have hall := Named.perm_all hperm name
  rw [Named.all_append, hnone, List.append_nil] at hall
  exact eq_of_perm_of_length_le_one hall (Named.length_all_le_one hnodup name)

/-- A row with distinct names is read as a map: in another order, at another position of the result
and with further columns that are not looked up it gives the same record, or the same error. -/
theorem decode_eq_of_perm (fields : FieldSet) (embedded : List Embedded) {extra : Named Datum}
    (hnodup : row.columns.names.Nodup) (hperm : row'.columns.Perm (row.columns ++ extra))
    (hextra : ∀ name ∈ extra.names, name ∉ lookedUp fields embedded) :
    decode fields embedded row' = decode fields embedded row :=
  decode_congr (Row.agree_of_perm hnodup hperm hextra)

end

/-- A parcel with a label, and a reference to the person that it comes from. -/
def parcelFields : FieldSet :=
  ⟨[{ name := "label", type := .string }, { name := "from", type := .reference }], by decide⟩

/-- The person that a parcel comes from, read from an object. -/
def parcelSender : Embedded := .mk "from" ⟨[{ name := "called", type := .string }], by decide⟩ []

/-- The columns of a parcel, as they are selected. -/
def parcelColumns : Named Datum :=
  [(idName, .int64 (some 4)), ("label", .text (some "books")), ("from::reference", .int64 (some 7)),
    ("from", .text (some "\x7b\"id\":7,\"called\":\"Ann\"\x7d"))]

/-- The same columns in another order, with one more of the name of a field's type. -/
def parcelColumns' : Named Datum :=
  [("from", .text (some "\x7b\"id\":7,\"called\":\"Ann\"\x7d")), ("from::reference", .int64 (some 7)),
    ("label::date", .int64 (some 0)), ("label", .text (some "books")), (idName, .int64 (some 4))]

theorem decode_eq_of_perm_parcel :
    parcelColumns.names.Nodup ∧ ("label::date" ∉ lookedUp parcelFields [parcelSender]) ∧
      parcelColumns'.Perm (parcelColumns ++ [("label::date", .int64 (some 0))]) ∧
      decode parcelFields [parcelSender] ⟨"9", parcelColumns'⟩
        = decode parcelFields [parcelSender] ⟨"0", parcelColumns⟩ ∧
      (decode parcelFields [parcelSender] ⟨"0", parcelColumns⟩).toOption.map Named.names
        = some [idName, "label", "from"] := by
  have hnodup : parcelColumns.names.Nodup := by decide
  have hextra : "label::date" ∉ lookedUp parcelFields [parcelSender] := by decide
  have hperm : parcelColumns'.Perm (parcelColumns ++ [("label::date", .int64 (some 0))]) := by
    decide +kernel
  refine ⟨hnodup, hextra, hperm, ?_, by decide +kernel⟩
  exact decode_eq_of_perm _ _ hnodup hperm (by simpa using hextra)

end RecordMapping

import Mathlib.Data.List.TakeWhile
import RecordMapping.Proofs.Query.Planning
import RecordMapping.Proofs.Record.Taking

/-!
# The objects of joined tables in rows

A row of a relational query has the columns of the table of the query, and then one object for each
joined table, under the name of its field. A column of the table may have that name too. Which of
them is read as the object follows from how many columns of the name the fields before it have taken
(`FieldSet.objectPlace`).
-/

namespace RecordMapping

/-- How many columns that have the name of a field are taken out of a row as columns of fields,
before the object of the field is. -/
def FieldSet.objectPlace (fields : FieldSet) (field : FieldSpec) : Nat :=
  ((fields.specs.takeWhile (·.name ≠ field.name)).map FieldSpec.column
    ++ [field.column]).count field.name

/-- Fields of other names take a name only as that of their column. -/
theorem count_flatMap_takenBy (readers : Readers) {fields : List FieldSpec} {name : String}
    (hname : ∀ f ∈ fields, f.name ≠ name) :
    (fields.flatMap (takenBy readers)).count name = (fields.map FieldSpec.column).count name := by
  induction fields with
  | nil => rfl
  | cons f rest ih =>
    have hf : (takenBy readers f).count name = [f.column].count name := by
      unfold takenBy
      split
      · rw [← List.singleton_append, List.count_append,
          List.count_eq_zero_of_not_mem (l := [f.name]), Nat.add_zero]
        simpa using (hname f List.mem_cons_self).symm
      · rfl
    have hrest := ih fun g hg => hname g (List.mem_cons_of_mem f hg)
    rw [List.flatMap_cons, List.count_append, hf, hrest, ← List.count_append,
      List.singleton_append, List.map_cons]

/-- The object of a field is at its place among the columns of its name. -/
theorem drawn_object (readers : Readers) (fields : FieldSet) {field : FieldSpec}
    (hid : field.name ≠ idName) (row : Row) :
    row.drawn (takenBefore readers fields.specs field ++ [field.column]) field.name
      = (row.columns.all field.name)[fields.objectPlace field]? := by
  have hname : ∀ f ∈ fields.specs.takeWhile (·.name ≠ field.name), f.name ≠ field.name := by
    intro f hf
    simpa using List.mem_takeWhile_imp hf
  rw [Row.drawn, takenBefore, FieldSet.objectPlace, List.cons_append,
    List.count_cons_of_ne hid.symm, List.count_append, List.count_append,
    count_flatMap_takenBy readers hname]

namespace JoinedTable

/-- What a record has for a joined table, by what was taken as its object. An object in text is
read, and anything else counts as none. -/
def Carries (j : JoinedTable) (object : Option Datum) (record : Record) : Prop :=
  match object with
  | some (.text (some text)) =>
    ∃ json r, Json.parse text = some json ∧ j.embedded.read json = .ok r ∧
      record.get? j.name = some (.record r)
  | _ => record.get? j.name = if j.field.required then some .null else none

/-- Why a row with objects of joined tables cannot be read: a column does not fit its field, or
what is taken as an object cannot be read. -/
inductive Unreadable (fields : FieldSet) (joins : List JoinedTable) (row : Row) : Error → Prop where
  | column {f : FieldSpec} {d : Datum} {e : Error} (hf : f ∈ fields.specs)
      (hname : f.name ∉ joins.map name) (hd : d ∈ row.columns.all f.column)
      (hload : f.load d = .error e) : Unreadable fields joins row e
  | object {j : JoinedTable} {text : String} {e : Error} (hj : j ∈ joins)
      (hobject : (row.columns.all j.name)[fields.objectPlace j.field]? = some (.text (some text)))
      (hread : readText j.name j.embedded.read text = .error e) : Unreadable fields joins row e

section Row

variable {fields : FieldSet} {joins : List JoinedTable} {row : Row}

theorem get?_readers (hnames : (joins.map name).Nodup) {j : JoinedTable} (hj : j ∈ joins) :
    (Embedded.readers (embeddedAll joins)).get? j.name = some j.embedded.read := by
  rw [readers_embeddedAll]
  exact get?_map_name hnames _ hj

/-- A joined field is read from what is at the place of its object. -/
theorem drawnValue_joined (hnames : (joins.map name).Nodup) {j : JoinedTable} (hj : j ∈ joins)
    (hid : j.name ≠ idName) :
    drawnValue (Embedded.readers (embeddedAll joins)) fields.specs row j.field
      = objectValue j.name j.embedded.read
          (row.columns.all j.name)[fields.objectPlace j.field]? := by
  have hreader := get?_readers hnames hj
  rw [name_eq] at hid hreader ⊢
  rw [drawnValue, drawn_object _ fields hid]
  simp only [rowValue, hreader]

/-- A record that is read from a row has for each joined table what is at the place of its
object. -/
theorem carries_of_decode (hnames : (joins.map name).Nodup) {record : Record}
    (h : decode fields (embeddedAll joins) row = .ok record) {j : JoinedTable} (hj : j ∈ joins)
    (hfield : j.field ∈ fields.specs) (hid : j.name ≠ idName) :
    j.Carries (row.columns.all j.name)[fields.objectPlace j.field]? record := by
  rw [decode_eq_gather_drawn, gather_eq_ok fields.nodup.of_map] at h
  obtain ⟨values, hvalues, rfl⟩ := h
  have hvalue := hvalues j.field hfield
  rw [drawnValue_joined hnames hj hid] at hvalue
  -- the identifier has another name, so nothing is there before
  have hstart : (assignId ((row.get? idName).bind Datum.integer?) []).get? j.name = none := by
    cases (row.get? idName).bind Datum.integer? with
    | none => rfl
    | some id =>
      rw [assignId, Named.get?_insert, if_neg hid.symm]
      rfl
  have hrecord : (assignAll values fields.specs
      (assignId ((row.get? idName).bind Datum.integer?) [])).get? j.name
        = (values j.field).or (if j.field.required then some .null else none) := by
    rw [name_eq, get?_assignAll fields.nodup hfield, get?_assign, if_pos rfl, ← name_eq, hstart]
  unfold Carries
  unfold objectValue at hvalue
  rw [hrecord]
  split
  · next text htext =>
    rw [htext] at hvalue
    obtain ⟨value, hread, hsome⟩ := map_eq_ok.1 hvalue
    unfold readText at hread
    split at hread
    · next json hparse =>
      obtain ⟨r, hr, rfl⟩ := map_eq_ok.1 hread
      exact ⟨json, r, hparse, hr, by rw [← hsome]; rfl⟩
    · cases hread
  · next hother =>
    split at hvalue
    · next text htext => exact absurd htext (hother text)
    · rw [← Except.ok.inj hvalue]
      rfl

/-- A row that cannot be read has a column that does not fit its field, or an object that cannot be
read. -/
theorem unreadable_of_decode (hnames : (joins.map name).Nodup)
    (hfields : ∀ j ∈ joins, j.field ∈ fields.specs) (hid : ∀ j ∈ joins, j.name ≠ idName)
    {e : Error} (h : decode fields (embeddedAll joins) row = .error e) :
    Unreadable fields joins row e := by
  rw [decode_eq_gather_drawn] at h
  obtain ⟨f, hf, hvalue⟩ := gather_eq_error h
  rcases mem_unjoined_or hfields hf with hown | ⟨j, hj, rfl⟩
  · have hname := (mem_unjoined.1 hown).2
    have hreader : (Embedded.readers (embeddedAll joins)).get? f.name = none := by
      rw [readers_embeddedAll]
      exact get?_map_name_eq_none _ hname
    unfold drawnValue rowValue at hvalue
    rw [hreader] at hvalue
    simp only at hvalue
    split at hvalue
    · next d hd => exact .column hf hname (List.mem_of_getElem? hd) hvalue
    · cases hvalue
  · rw [drawnValue_joined hnames hj (hid j hj)] at hvalue
    unfold objectValue at hvalue
    split at hvalue
    · next text htext =>
      cases hread : readText j.name j.embedded.read text with
      | error e' =>
        rw [hread] at hvalue
        cases hvalue
        exact .object hj htext hread
      | ok value =>
        rw [hread] at hvalue
        cases hvalue
    · cases hvalue

/-- In a row that has the columns of a table and then one object for each joined table, the object
is at its place if as many columns of the table have its name as are taken before it. -/
theorem getElem?_all_objectPlace {columns : List String} {root objects : Named Datum}
    (hroot : root.names = columns) (hobjects : objects.names = joins.map name)
    (hnames : (joins.map name).Nodup) {j : JoinedTable} :
    (Named.all (root ++ objects) j.name)[fields.objectPlace j.field]?
      = if fields.objectPlace j.field = columns.count j.name then objects.get? j.name
        else (root.all j.name)[fields.objectPlace j.field]? := by
  have hlength : (root.all j.name).length = columns.count j.name := by
    rw [Named.length_all, hroot]
  have hone : (objects.all j.name).length ≤ 1 := by
    rw [Named.length_all, hobjects]
    exact List.nodup_iff_count_le_one.1 hnames j.name
  rw [Named.all_append, Named.get?_eq_head?_all, List.head?_eq_getElem?]
  split
  · next hplace =>
    rw [hplace, ← hlength, List.getElem?_append_right (Nat.le_refl _), Nat.sub_self]
  · next hplace =>
    rcases Nat.lt_or_gt_of_ne hplace with hlt | hgt
    · rw [List.getElem?_append_left (hlength ▸ hlt)]
    · rw [List.getElem?_eq_none (by rw [List.length_append]; omega),
        List.getElem?_eq_none (by omega)]

end Row

end JoinedTable

end RecordMapping

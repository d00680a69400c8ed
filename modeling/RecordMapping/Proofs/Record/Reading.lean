import Mathlib.Data.List.Nodup
import RecordMapping.Proofs.Results
import RecordMapping.Record.Codec

/-!
# Reading the fields of rows and objects

The readers of rows and of embedded objects take out what they read, so that what one field has
read is not there for the next one. Where the fields read from places of their own this makes no
difference, and both readers do the same: they ask for the value of each field and gather the
values into a record (`gather`).
-/

namespace RecordMapping

/-! ## Lookups -/

/-- Where names are distinct each thing is found under its name. -/
theorem Named.get?_eq_some_of_mem {α : Type} {l : Named α} (h : l.names.Nodup) {name : String}
    {a : α} (hmem : (name, a) ∈ l) : l.get? name = some a := by
  induction l with
  | nil => cases hmem
  | cons p rest ih =>
    obtain ⟨n, b⟩ := p
    rw [names_cons, List.nodup_cons] at h
    rw [get?_cons]
    rcases List.mem_cons.1 hmem with hp | hrest
    · cases hp
      exact if_pos rfl
    · have hn : n ≠ name := by
        rintro rfl
        exact h.1 (List.mem_map_of_mem hrest)
      rw [if_neg hn]
      exact ih h.2 hrest

/-- What is found under a name is there with that name. -/
theorem Named.mem_of_get? {α : Type} {l : Named α} {name : String} {a : α}
    (h : l.get? name = some a) : (name, a) ∈ l := by
  induction l with
  | nil => cases h
  | cons p rest ih =>
    obtain ⟨n, b⟩ := p
    rw [get?_cons] at h
    split at h
    · next hn =>
      cases h
      rw [hn]
      exact List.mem_cons_self
    · exact List.mem_cons_of_mem _ (ih h)

/-- There is something under each of the names, and nothing under others. -/
theorem Named.contains_iff {α : Type} {l : Named α} {name : String} :
    l.contains name = true ↔ name ∈ l.names := by
  induction l with
  | nil => simp [contains]
  | cons p rest ih =>
    obtain ⟨n, b⟩ := p
    rw [contains, get?_cons, names_cons, List.mem_cons]
    by_cases hn : n = name
    · simp [hn]
    · rw [if_neg hn, ← contains, ih]
      simp [Ne.symm hn]

theorem Named.get?_eq_none {α : Type} {l : Named α} {name : String} (h : name ∉ l.names) :
    l.get? name = none := by
  rw [← contains_iff, contains, Bool.not_eq_true, Option.isSome_eq_false_iff] at h
  exact Option.isNone_iff_eq_none.1 h

/-- What an object holds under each key is what was given for it, if the keys were distinct. -/
theorem Members.get?_ofList {pairs : List (String × Json)} (h : (Named.names pairs).Nodup)
    {key : String} {value : Json} (hmem : (key, value) ∈ pairs) :
    Named.get? (ofList pairs) key = some value := by
  have hfoldl : ∀ (pairs : List (String × Json)) (members : Members),
      (Named.names pairs).Nodup →
        Named.get? (pairs.foldl (fun members p => insert p.1 p.2 members) members) key
          = (Named.get? pairs key).or (Named.get? members key) := by
    intro pairs
    induction pairs with
    | nil =>
      intro members _
      rfl
    | cons p rest ih =>
      obtain ⟨k, v⟩ := p
      intro members hnodup
      rw [Named.names_cons, List.nodup_cons] at hnodup
      rw [List.foldl_cons, ih _ hnodup.2, Members.get?_insert, Named.get?_cons]
      by_cases hk : k = key
      · subst hk
        rw [if_pos rfl, if_pos rfl, Named.get?_eq_none hnodup.1]
        rfl
      · rw [if_neg hk, if_neg hk]
  have hpairs := hfoldl pairs [] h
  rw [Named.get?_eq_some_of_mem h hmem] at hpairs
  exact hpairs

/-- Putting back what is there changes nothing. -/
theorem Named.insert_eq_self {α : Type} {l : Named α} {name : String} {a : α}
    (h : l.get? name = some a) : insert name a l = l := by
  induction l with
  | nil => cases h
  | cons p rest ih =>
    obtain ⟨n, b⟩ := p
    rw [get?_cons] at h
    by_cases hn : n = name
    · rw [if_pos hn] at h
      cases h
      rw [insert, if_pos hn, hn]
    · rw [if_neg hn] at h
      rw [insert, if_neg hn, ih h]

/-! ## Values into records -/

/-- What a field that was read adds is under its name; without a value, a field that is not
required leaves what was there. -/
theorem get?_assign (field : FieldSpec) (value : Option Value) (record : Record) (name : String) :
    (assign field value record).get? name =
      if field.name = name then
        value.or (if field.required then some .null else record.get? name)
      else record.get? name := by
  unfold assign
  cases value with
  | some v => rw [Named.get?_insert]; rfl
  | none =>
    by_cases hrequired : field.required = true
    · rw [if_pos hrequired, Named.get?_insert, if_pos hrequired]
      rfl
    · simp [hrequired]

/-- Asks for the values of fields one after the other and gathers them into a record. -/
def gather (value : FieldSpec → Except Error (Option Value)) :
    List FieldSpec → Record → Except Error Record
  | [], record => .ok record
  | field :: rest, record => do
    let v ← value field
    gather value rest (assign field v record)

/-- Puts the values of fields into a record, one after the other. -/
def assignAll (values : FieldSpec → Option Value) : List FieldSpec → Record → Record
  | [], record => record
  | field :: rest, record => assignAll values rest (assign field (values field) record)

/-- Only the values of the fields themselves matter. -/
theorem assignAll_congr {values values' : FieldSpec → Option Value} {fields : List FieldSpec}
    (h : ∀ f ∈ fields, values f = values' f) (start : Record) :
    assignAll values fields start = assignAll values' fields start := by
  induction fields generalizing start with
  | nil => rfl
  | cons field rest ih =>
    rw [assignAll, assignAll, h field List.mem_cons_self]
    apply ih
    intro f hf
    exact h f (List.mem_cons_of_mem field hf)

/-- Only the values of the fields themselves matter, and their errors. -/
theorem gather_congr {value value' : FieldSpec → Except Error (Option Value)}
    {fields : List FieldSpec} (h : ∀ f ∈ fields, value f = value' f) (start : Record) :
    gather value fields start = gather value' fields start := by
  induction fields generalizing start with
  | nil => rfl
  | cons field rest ih =>
    rw [gather, gather, h field List.mem_cons_self]
    refine bind_congr fun v => ih ?_ _
    exact fun f hf => h f (List.mem_cons_of_mem field hf)

/-- Gathering succeeds if all fields have a value, and the record has these values. -/
theorem gather_eq_ok {value : FieldSpec → Except Error (Option Value)} {fields : List FieldSpec}
    (hnodup : fields.Nodup) {start record : Record} :
    gather value fields start = .ok record ↔
      ∃ values : FieldSpec → Option Value, (∀ f ∈ fields, value f = .ok (values f)) ∧
        assignAll values fields start = record := by
  induction fields generalizing start with
  | nil =>
    constructor
    · intro h
      cases h
      exact ⟨fun _ => none, by simp, rfl⟩
    · rintro ⟨_, _, rfl⟩
      rfl
  | cons field rest ih =>
    rw [List.nodup_cons] at hnodup
    rw [gather, bind_eq_ok]
    constructor
    · rintro ⟨v, hv, h⟩
      obtain ⟨values, hvalues, hrecord⟩ := (ih hnodup.2).1 h
      -- the first field does not come again, so its value may be set apart
      have hrest : ∀ f ∈ rest, (if f = field then v else values f) = values f := by
        intro f hf
        have hne : f ≠ field := fun h => hnodup.1 (h ▸ hf)
        exact if_neg hne
      refine ⟨fun f => if f = field then v else values f, ?_, ?_⟩
      · intro f hf
        show value f = .ok (if f = field then v else values f)
        rcases List.mem_cons.1 hf with rfl | hf
        · rw [if_pos rfl, hv]
        · rw [hrest f hf, hvalues f hf]
      · show assignAll _ rest (assign field (if field = field then v else values field) start) = _
        rw [if_pos rfl, assignAll_congr hrest, hrecord]
    · rintro ⟨values, hvalues, hrecord⟩
      refine ⟨values field, hvalues field List.mem_cons_self, ?_⟩
      refine (ih hnodup.2).2 ⟨values, ?_, hrecord⟩
      intro f hf
      exact hvalues f (List.mem_cons_of_mem field hf)

/-- A name that no field has is left alone. -/
theorem get?_assignAll_of_notMem {values : FieldSpec → Option Value} {fields : List FieldSpec}
    {name : String} (hname : name ∉ specNames fields) (start : Record) :
    (assignAll values fields start).get? name = start.get? name := by
  induction fields generalizing start with
  | nil => rfl
  | cons f rest ih =>
    rw [specNames_cons, List.mem_cons, not_or] at hname
    have hne : f.name ≠ name := fun h => hname.1 h.symm
    rw [assignAll, ih hname.2, get?_assign, if_neg hne]

/-- Of fields with different names, each has put its own value under its name. -/
theorem get?_assignAll {values : FieldSpec → Option Value} {fields : List FieldSpec}
    (hnodup : (specNames fields).Nodup) {field : FieldSpec} (hfield : field ∈ fields)
    (start : Record) :
    (assignAll values fields start).get? field.name
      = (assign field (values field) start).get? field.name := by
  induction fields generalizing start with
  | nil => cases hfield
  | cons f rest ih =>
    rw [specNames_cons, List.nodup_cons] at hnodup
    rw [assignAll]
    rcases List.mem_cons.1 hfield with rfl | hrest
    · exact get?_assignAll_of_notMem hnodup.1 _
    · have hne : f.name ≠ field.name := by
        intro h
        exact hnodup.1 (h ▸ List.mem_map_of_mem hrest)
      rw [ih hnodup.2 hrest, get?_assign, if_pos rfl, get?_assign, if_neg hne, get?_assign,
        if_pos rfl]

/-! ## Objects -/

/-- The key of the member that a field is read from. -/
def memberKey (readers : Readers) (field : FieldSpec) : String :=
  if readers.contains field.name then field.name else field.column

/-- The value of a field whose member is given. -/
def memberValue (readers : Readers) (field : FieldSpec) (member : Option Json) :
    Except Error (Option Value) :=
  match readers.get? field.name with
  | some read =>
    match member with
    | none | some .null => .ok none
    | some (.string text) => (readText field.name read text).map some
    | some json => (read json).map fun record => some (.record record)
  | none =>
    match member with
    | none => .ok none
    | some json => field.load json.datum

/-- A field is read from the member with its key, which is taken out. -/
theorem readMember_eq (readers : Readers) (field : FieldSpec) (members : Members) :
    readMember readers field members
      = (memberValue readers field (members.get? (memberKey readers field))).map
          (·, Named.erase (memberKey readers field) members) := by
  unfold readMember memberValue memberKey Named.contains
  cases hread : readers.get? field.name with
  | none =>
    simp only [Option.isSome_none, Bool.false_eq_true, if_false]
    cases members.get? field.column <;> rfl
  | some read =>
    simp only [Option.isSome_some, if_true]
    cases members.get? field.name with
    | none => rfl
    | some json =>
      cases json with
      | null => rfl
      | string text =>
        show (readText field.name read text).map _ = ((readText field.name read text).map _).map _
        cases readText field.name read text <;> rfl
      | bool | number | array | object =>
        show (read _).map _ = ((read _).map _).map _
        cases read _ <;> rfl

/-- Fields with keys of their own are read as if nothing were taken out. -/
theorem readMembers_eq_gather (readers : Readers) (members : Members) {fields : List FieldSpec}
    (hkeys : (fields.map (memberKey readers)).Nodup) {left : Members}
    (hleft : ∀ f ∈ fields, left.get? (memberKey readers f) = members.get? (memberKey readers f))
    (record : Record) :
    readMembers readers fields left record
      = gather (fun f => memberValue readers f (members.get? (memberKey readers f))) fields
          record := by
  induction fields generalizing left record with
  | nil => rfl
  | cons field rest ih =>
    rw [List.map_cons, List.nodup_cons] at hkeys
    rw [readMembers, gather, readMember_eq, hleft field List.mem_cons_self]
    cases memberValue readers field (members.get? (memberKey readers field)) with
    | error e => rfl
    | ok value =>
      refine ih hkeys.2 ?_ _
      intro f hf
      have hne : memberKey readers field ≠ memberKey readers f := by
        intro h
        exact hkeys.1 (h ▸ List.mem_map_of_mem hf)
      rw [Named.get?_erase_of_ne hne]
      exact hleft f (List.mem_cons_of_mem field hf)

/-! ## Rows -/

/-- The value of a field of a row that holds no embedded objects. -/
def columnValue (row : Row) (field : FieldSpec) : Except Error (Option Value) :=
  match row.get? field.column with
  | none => .ok none
  | some d => field.load d

/-- Fields with columns of their own are read as if nothing were taken out. -/
theorem decodeFields_eq_gather (row : Row) {fields : List FieldSpec}
    (hcolumns : (fields.map FieldSpec.column).Nodup) {left : Row}
    (hleft : ∀ f ∈ fields, left.get? f.column = row.get? f.column) (record : Record) :
    decodeFields [] fields left record = gather (columnValue row) fields record := by
  induction fields generalizing left record with
  | nil => rfl
  | cons field rest ih =>
    rw [List.map_cons, List.nodup_cons] at hcolumns
    have hfield : decodeField [] field left
        = (columnValue row field).map (·, (left.take field.column).2) := by
      have htake : (left.take field.column).1 = row.get? field.column := by
        rw [← hleft field List.mem_cons_self]
        exact Named.take_fst field.column left.columns
      unfold decodeField columnValue
      rw [← htake]
      obtain ⟨physical, rest⟩ := left.take field.column
      cases physical <;> rfl
    rw [decodeFields, gather, hfield]
    cases columnValue row field with
    | error e => rfl
    | ok value =>
      refine ih hcolumns.2 ?_ _
      intro f hf
      have hne : field.column ≠ f.column := by
        intro h
        exact hcolumns.1 (h ▸ List.mem_map_of_mem hf)
      have := hleft f (List.mem_cons_of_mem field hf)
      rw [← this]
      exact Named.get?_erase_of_ne hne left.columns

/-- A row whose columns are distinct is read by its identifier and the values of its fields. -/
theorem decode_eq_gather (fields : FieldSet) (row : Row)
    (hcolumns : (idName :: fields.columns).Nodup) :
    decode fields [] row
      = gather (columnValue row) fields.specs (assignId ((row.get? idName).bind Datum.integer?) [])
    := by
  rw [List.nodup_cons] at hcolumns
  have hid : (row.take idName).1 = row.get? idName := Named.take_fst idName row.columns
  show decodeFields [] fields.specs (row.take idName).2
    (assignId ((row.take idName).1.bind Datum.integer?) []) = _
  rw [hid]
  refine decodeFields_eq_gather row hcolumns.2 ?_ _
  intro f hf
  refine Named.get?_erase_of_ne ?_ row.columns
  intro h
  exact hcolumns.1 (h ▸ List.mem_map_of_mem hf)

end RecordMapping

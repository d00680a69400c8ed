import RecordMapping.Proofs.Query.Returned

/-!
# Objects of joined tables, written and read

A statement hands the rows of joined tables over as nested objects, and the library reads these
back. On the way the values of the rows become texts, and what is read from the text of a number
need not be the number. The main result, `read_eval_projection`, says that nothing else is lost:
what is read from the object of a joined table is what would be read directly
(`JoinedTable.record?`) from its row and the rows below it, with their values as they come back
from such texts.
-/

namespace RecordMapping

/-! ## What an object is read as -/

/-- Adds one field of a joined table to a record: from the records of the tables joined to it, if
it is one of theirs, or else from what its own row gives. -/
def assemble (plain : Record) (nested : Named (Option Record)) (record : Record)
    (field : FieldSpec) : Record :=
  match nested.get? field.name with
  | some child => assign field (child.map .record) record
  | none =>
    match plain.get? field.name with
    | some value => record.insert field.name value
    | none => record

namespace JoinedTable

/-- The alias of a joined table. -/
def aliasName : JoinedTable → String
  | mk aliasName .. => aliasName

/-- The reference field along which a table is joined. -/
def field : JoinedTable → FieldSpec
  | mk _ _ _ field .. => field

/-- The fields that no table is joined along. -/
def unjoined (fields : FieldSet) (joins : List JoinedTable) : FieldSet :=
  ⟨fields.specs.filter (·.name ∉ joins.map name),
    (List.filter_sublist.map FieldSpec.name).nodup fields.nodup⟩

/-- The fields of a joined table that its own row is read for. -/
def own : JoinedTable → FieldSet
  | mk _ _ _ _ _ fields _ joins => unjoined fields joins

/-- The keys of the object of a joined table. -/
def keys (fields : FieldSet) (joins : List JoinedTable) : List String :=
  idName :: (unjoined fields joins).columns ++ joins.map name

mutual
/-- On each level the keys are distinct. -/
def WellKeyed : JoinedTable → Prop
  | mk _ _ _ _ _ fields _ joins => (keys fields joins).Nodup ∧ WellKeyedAll joins
/-- The same for all tables of a list. -/
def WellKeyedAll : List JoinedTable → Prop
  | [] => True
  | j :: rest => WellKeyed j ∧ WellKeyedAll rest
end

mutual
/-- On each level tables are joined along fields of the table above. -/
def Rooted : JoinedTable → Prop
  | mk _ _ _ _ _ fields _ joins => (∀ j ∈ joins, j.field ∈ fields.specs) ∧ RootedAll joins
/-- The same for all tables of a list. -/
def RootedAll : List JoinedTable → Prop
  | [] => True
  | j :: rest => Rooted j ∧ RootedAll rest
end

mutual
/-- The tables that are reached from a joined table through identifiers that are not null, its own
one included. -/
def reached (b : Bindings) : JoinedTable → List JoinedTable
  | mk aliasName parent kind field table fields predicates joins =>
    if ((b aliasName).value idName).isNull then []
    else mk aliasName parent kind field table fields predicates joins :: reachedAll b joins
/-- The tables that are reached from a list of joined tables. -/
def reachedAll (b : Bindings) : List JoinedTable → List JoinedTable
  | [] => []
  | j :: rest => reached b j ++ reachedAll b rest
end

/-- What the row of a joined table gives for its own fields; nothing if it cannot be read. -/
def plain (b : Bindings) (aliasName : String) (own : FieldSet) : Record :=
  match decode own [] (b aliasName) with
  | .ok record => record
  | .error _ => []

mutual
/-- The record that a joined table stands for, if there is a row of it: its identifier, and its
fields in their order. A field that a table is joined along holds the record of that table, if
there is one. -/
def record? (b : Bindings) : JoinedTable → Option Record
  | mk aliasName _ _ _ _ fields _ joins =>
    if ((b aliasName).value idName).isNull then none
    else some <| fields.specs.foldl
      (assemble (plain b aliasName (unjoined fields joins)) (records b joins))
      (assignId ((b aliasName).value idName).integer? [])
/-- The records that a list of joined tables stands for, each with the name of its field. -/
def records (b : Bindings) : List JoinedTable → Named (Option Record)
  | [] => []
  | j :: rest => (j.name, record? b j) :: records b rest
end

/-- The row of a joined table has its columns, and holds stored values in them. -/
def Stored (b : Bindings) (t : JoinedTable) : Prop :=
  ∀ column ∈ idName :: t.own.columns, ((b t.aliasName).get? column).any Datum.isStored = true

/-- The identifier of a row with stored values is one. -/
theorem Stored.value_id {b : Bindings} {t : JoinedTable} (h : t.Stored b) :
    ((b t.aliasName).value idName).isStored = true := by
  obtain ⟨d, hd, hd'⟩ := (Option.any_eq_true _ _).1 (h idName List.mem_cons_self)
  rwa [Row.value_of_get? hd]

/-- The row of a joined table can be read for its own fields. -/
def Decodes (b : Bindings) (t : JoinedTable) : Prop :=
  ∃ record, decode t.own [] (b t.aliasName) = .ok record

/-- All values of the row of a joined table come back from an object. -/
def Returns (ops : Operators) (b : Bindings) (t : JoinedTable) : Prop :=
  ∀ column ∈ idName :: t.own.columns,
    (ops.returned? ((b t.aliasName).value column)).isSome = true

/-- The row of a joined table comes back from an object, and can be read as it comes back. -/
def ReadsBack (ops : Operators) (b : Bindings) (t : JoinedTable) : Prop :=
  t.Returns ops b ∧ t.Decodes (b.returned ops)

/-- The numbers in the row of a joined table come back from an object as they are. -/
def KeepsNumbers (ops : Operators) (b : Bindings) (t : JoinedTable) : Prop :=
  ∀ column ∈ idName :: t.own.columns, ∀ d ∈ (b t.aliasName).get? column, d.isDouble = true →
    ops.returned? d = some d

/-- The object of a joined table is read as the record that it stands for, with the values that
come back. If they all do, the object can be read as such. -/
structure Agrees (ops : Operators) (b : Bindings) (t : JoinedTable) : Prop where
  identified : ((b.returned ops t.aliasName).value idName).isNull
    = ((b t.aliasName).value idName).isNull
  absent : ((b t.aliasName).value idName).isNull = true →
    t.projection.eval ops b = .datum (.text none)
  present : ((b t.aliasName).value idName).isNull = false → ∃ document : Option Members,
    t.projection.eval ops b = .json (document.map .object) ∧
      ((∀ s ∈ t.reached b, s.Returns ops b) → document.isSome = true) ∧
        ∀ record, (∃ members ∈ document, t.embedded.read (.object members) = .ok record) ↔
          (∀ s ∈ t.reached b, s.ReadsBack ops b) ∧ t.record? (b.returned ops) = some record

/-! ### Lists of joined tables -/

theorem projections_eq_map (joins : List JoinedTable) :
    projections joins = joins.map fun j => (j.name, j.projection) := by
  induction joins with
  | nil => rfl
  | cons j rest ih => rw [projections, ih, List.map_cons]

theorem names_projections (joins : List JoinedTable) :
    Named.names (projections joins) = joins.map name := by
  rw [projections_eq_map, Named.names, List.map_map]
  rfl

theorem readers_embeddedAll (joins : List JoinedTable) :
    Embedded.readers (embeddedAll joins) = joins.map fun j => (j.name, j.embedded.read) := by
  induction joins with
  | nil => rfl
  | cons j rest ih =>
    rw [embeddedAll, Embedded.readers, ih, List.map_cons]
    obtain ⟨_, _, _, field, _, fields, _, joins⟩ := j
    rfl

theorem records_eq_map (b : Bindings) (joins : List JoinedTable) :
    records b joins = joins.map fun j => (j.name, j.record? b) := by
  induction joins with
  | nil => rfl
  | cons j rest ih => rw [records, ih, List.map_cons]

theorem mem_reachedAll {b : Bindings} {joins : List JoinedTable} {s : JoinedTable} :
    s ∈ reachedAll b joins ↔ ∃ j ∈ joins, s ∈ j.reached b := by
  induction joins with
  | nil => simp [reachedAll]
  | cons j rest ih => simp [reachedAll, ih]

/-- What is listed for each joined table is found under its name. -/
theorem get?_map_name {α : Type} {joins : List JoinedTable} (h : (joins.map name).Nodup)
    (f : JoinedTable → α) {j : JoinedTable} (hj : j ∈ joins) :
    Named.get? (joins.map fun j => (j.name, f j)) j.name = some (f j) := by
  refine Named.get?_eq_some_of_mem ?_ (List.mem_map_of_mem hj)
  rwa [Named.names, List.map_map]

/-- Nothing is found under another name. -/
theorem get?_map_name_eq_none {α : Type} {joins : List JoinedTable} (f : JoinedTable → α)
    {other : String} (h : other ∉ joins.map name) :
    Named.get? (joins.map fun j => (j.name, f j)) other = none := by
  refine Named.get?_eq_none ?_
  rwa [Named.names, List.map_map]

/-! ### Writing -/

/-- The members of the object of a joined table. -/
def members (aliasName : String) (fields : FieldSet) (joins : List JoinedTable) :
    List (String × Expr) :=
  (idName, .column ⟨aliasName, idName⟩) ::
    (unjoined fields joins).specs.map (fun f => (f.column, .column ⟨aliasName, f.column⟩)) ++
    joins.map fun j => (j.name, j.projection)

/-- The keys of the members are the keys of the object. -/
theorem names_members (aliasName : String) (fields : FieldSet) (joins : List JoinedTable) :
    Named.names (members aliasName fields joins) = keys fields joins := by
  simp [members, keys, Named.names, FieldSet.columns, Function.comp_def]

/-- The fields that have no object of their own are those that no table is joined along. -/
theorem specs_unjoined (fields : FieldSet) (joins : List JoinedTable) :
    fields.specs.filter (fun f => !Named.contains (projections joins) f.name)
      = (unjoined fields joins).specs := by
  refine List.filter_congr ?_
  intro f _
  have hcontains : Named.contains (projections joins) f.name = true ↔
      f.name ∈ joins.map name := by
    rw [Named.contains_iff, names_projections]
  rw [Bool.eq_iff_iff, Bool.not_eq_true', ← Bool.not_eq_true, hcontains, decide_eq_true_iff]

/-- The object of a joined table has these members. -/
theorem eval_object (ops : Operators) (b : Bindings) (aliasName : String) (fields : FieldSet)
    (joins : List JoinedTable) :
    (object aliasName fields (projections joins)).eval ops b =
      if ((b aliasName).value idName).isNull then .datum (.text none)
      else .json (((Expr.evalMembers ops b (members aliasName fields joins)).map
        Members.ofList).map .object) := by
  have hmembers : (idName, .column ⟨aliasName, idName⟩) ::
      ownMembers aliasName fields (projections joins) ++ projections joins
        = members aliasName fields joins := by
    rw [ownMembers, specs_unjoined, projections_eq_map, members]
  rw [object, Expr.eval, Expr.eval, hmembers, Option.map_map]
  rfl

/-! ### Reading -/

/-- An object in an object is read, whether it is handed over as it stands or as text. -/
theorem memberValue_nest {ops : Operators} {readers : Readers} {f : FieldSpec}
    {read : Json → Except Error Record} (hread : readers.get? f.name = some read)
    {document : Option Members} {json : Json} (hjson : ops.nest (document.map .object) = some json)
    (value : Option Value) :
    memberValue readers f (some json) = .ok value ↔
      ∃ members ∈ document, ∃ record, read (.object members) = .ok record ∧
        some (.record record) = value := by
  unfold memberValue
  rw [hread]
  rcases ops.nest_document (document.map .object) with h | ⟨text, h, hparse⟩
  · -- the object as it stands
    rw [h] at hjson
    obtain ⟨members, rfl, rfl⟩ := Option.map_eq_some_iff.1 hjson
    simp [map_eq_ok]
  · -- a text, which is read anew
    rw [h] at hjson
    cases hjson
    show (readText f.name read text).map some = .ok value ↔ _
    unfold readText
    rw [hparse]
    cases document with
    | none => simp [Except.map]
    | some members => simp [map_eq_ok]

theorem reached_of_isNull {b : Bindings} {j : JoinedTable}
    (h : ((b j.aliasName).value idName).isNull = true) : j.reached b = [] := by
  cases j
  exact if_pos h

theorem record?_of_isNull {b : Bindings} {j : JoinedTable}
    (h : ((b j.aliasName).value idName).isNull = true) : j.record? b = none := by
  cases j
  exact if_pos h

theorem exists_record? {b : Bindings} {j : JoinedTable}
    (h : ((b j.aliasName).value idName).isNull = false) : ∃ record, j.record? b = some record := by
  cases j
  exact ⟨_, if_neg (Bool.eq_false_iff.1 h)⟩

/-- The member of a joined table is read as the record that the table stands for. -/
theorem memberValue_child {ops : Operators} {b : Bindings} {j : JoinedTable} (hj : j.Agrees ops b)
    {readers : Readers} {f : FieldSpec} (hread : readers.get? f.name = some j.embedded.read)
    {json : Json} (hjson : (j.projection.eval ops b).member? ops = some json)
    (value : Option Value) :
    memberValue readers f (some json) = .ok value ↔
      (∀ s ∈ j.reached b, s.ReadsBack ops b) ∧ (j.record? (b.returned ops)).map .record = value := by
  cases hnull : ((b j.aliasName).value idName).isNull with
  | true =>
    rw [hj.absent hnull, SqlValue.member?, ops.parse_write_of_isNull rfl] at hjson
    cases hjson
    have hmember : memberValue readers f (some Json.null) = .ok none := by
      unfold memberValue
      rw [hread]
    rw [hmember, reached_of_isNull hnull, record?_of_isNull (hj.identified.trans hnull)]
    simp
  | false =>
    obtain ⟨document, heval, _, hagree⟩ := hj.present hnull
    rw [heval, SqlValue.member?] at hjson
    rw [memberValue_nest hread hjson]
    constructor
    · rintro ⟨members, hmembers, record, hrecord, rfl⟩
      obtain ⟨hreached, hsome⟩ := (hagree record).1 ⟨members, hmembers, hrecord⟩
      rw [hsome]
      exact ⟨hreached, rfl⟩
    · rintro ⟨hreached, rfl⟩
      obtain ⟨record, hrecord⟩ := exists_record? (hj.identified.trans hnull)
      obtain ⟨members, hmembers, hok⟩ := (hagree record).2 ⟨hreached, hrecord⟩
      refine ⟨members, hmembers, record, hok, ?_⟩
      rw [hrecord]
      rfl

/-- The member of a joined table can be read, if all rows that are reached come back. -/
theorem isSome_member? {ops : Operators} {b : Bindings} {j : JoinedTable} (hj : j.Agrees ops b)
    (hreturns : ∀ s ∈ j.reached b, s.Returns ops b) :
    ((j.projection.eval ops b).member? ops).isSome = true := by
  cases hnull : ((b j.aliasName).value idName).isNull with
  | true =>
    rw [hj.absent hnull, SqlValue.member?, ops.parse_write_of_isNull rfl]
    rfl
  | false =>
    obtain ⟨document, heval, hdocument, _⟩ := hj.present hnull
    obtain ⟨members, rfl⟩ := Option.isSome_iff_exists.1 (hdocument hreturns)
    rw [heval, SqlValue.member?]
    rcases ops.nest_document (some (.object members)) with h | ⟨text, h, _⟩ <;>
    · rw [Option.map_some, h]
      rfl

/-! ### One level -/

theorem name_eq (j : JoinedTable) : j.name = j.field.name := by
  cases j
  rfl

section Level

variable {fields : FieldSet} {joins : List JoinedTable}

/-- Each field is read from the row, or a table is joined along it. -/
theorem mem_unjoined_or (hfields : ∀ j ∈ joins, j.field ∈ fields.specs) {f : FieldSpec}
    (hf : f ∈ fields.specs) : f ∈ (unjoined fields joins).specs ∨ ∃ j ∈ joins, j.field = f := by
  by_cases hname : f.name ∈ joins.map name
  · obtain ⟨j, hj, hjname⟩ := List.mem_map.1 hname
    rw [name_eq] at hjname
    exact .inr ⟨j, hj, List.inj_on_of_nodup_map fields.nodup (hfields j hj) hf hjname⟩
  · exact .inl (List.mem_filter.2 ⟨hf, by simpa using hname⟩)

theorem mem_unjoined {f : FieldSpec} :
    f ∈ (unjoined fields joins).specs ↔ f ∈ fields.specs ∧ f.name ∉ joins.map name := by
  simp [unjoined]

/-- A joined field is read from the member with its name, and another one from that with its
column. -/
theorem memberKey_readers (f : FieldSpec) :
    memberKey (Embedded.readers (embeddedAll joins)) f =
      if f.name ∈ joins.map name then f.name else f.column := by
  have hcontains : (Embedded.readers (embeddedAll joins)).contains f.name = true ↔
      f.name ∈ joins.map name := by
    rw [Named.contains_iff, readers_embeddedAll, Named.names, List.map_map]
    rfl
  unfold memberKey
  by_cases hf : f.name ∈ joins.map name
  · rw [if_pos (hcontains.2 hf), if_pos hf]
  · rw [if_neg (fun h => hf (hcontains.1 h)), if_neg hf]

/-- Different fields are read from different members, none of them that of the identifier. -/
theorem nodup_map_memberKey (hkeys : (keys fields joins).Nodup) :
    (idName :: fields.specs.map (memberKey (Embedded.readers (embeddedAll joins)))).Nodup := by
  rw [keys, List.cons_append, List.nodup_cons, List.nodup_append, List.mem_append, not_or] at hkeys
  obtain ⟨⟨hid, hid'⟩, hcolumns, hnames, hdisjoint⟩ := hkeys
  have hcolumn : ∀ f ∈ fields.specs, f.name ∉ joins.map name →
      f.column ∈ (unjoined fields joins).columns := by
    intro f hf hname
    exact List.mem_map_of_mem (mem_unjoined.2 ⟨hf, hname⟩)
  rw [List.nodup_cons]
  constructor
  · rw [List.mem_map]
    rintro ⟨f, hf, hkey⟩
    rw [memberKey_readers] at hkey
    by_cases hname : f.name ∈ joins.map name
    · rw [if_pos hname] at hkey
      exact hid' (hkey ▸ hname)
    · rw [if_neg hname] at hkey
      exact hid (hkey ▸ hcolumn f hf hname)
  · -- two names differ, two columns differ, and no name is a column
    refine List.Nodup.map_on ?_ (List.Nodup.of_map _ fields.nodup)
    intro f hf g hg hkey
    rw [memberKey_readers, memberKey_readers] at hkey
    by_cases hfname : f.name ∈ joins.map name <;> by_cases hgname : g.name ∈ joins.map name
    · rw [if_pos hfname, if_pos hgname] at hkey
      exact List.inj_on_of_nodup_map fields.nodup hf hg hkey
    · rw [if_pos hfname, if_neg hgname] at hkey
      exact absurd hkey.symm (hdisjoint _ (hcolumn g hg hgname) _ hfname)
    · rw [if_neg hfname, if_pos hgname] at hkey
      exact absurd hkey (hdisjoint _ (hcolumn f hf hfname) _ hgname)
    · rw [if_neg hfname, if_neg hgname] at hkey
      exact List.inj_on_of_nodup_map hcolumns (mem_unjoined.2 ⟨hf, hfname⟩)
        (mem_unjoined.2 ⟨hg, hgname⟩) hkey

/-- A field that no table is joined along gets what was read for it, if the row gives this. -/
theorem assemble_eq_assign {row record : Record} {nested : Named (Option Record)} {f : FieldSpec}
    {value : Option Value} (hnested : nested.get? f.name = none)
    (hrow : row.get? f.name = (assign f value record).get? f.name) :
    assemble row nested record f = assign f value record := by
  unfold assemble
  rw [hnested, hrow, get?_assign, if_pos rfl]
  unfold assign
  cases value with
  | some v => rfl
  | none =>
    by_cases hrequired : f.required = true
    · rw [if_pos hrequired, if_pos hrequired]
      rfl
    · -- an identifier may be there under the name
      rw [if_neg hrequired, if_neg hrequired, Option.none_or]
      cases h : record.get? f.name with
      | none => rfl
      | some v => exact Named.insert_eq_self h

/-- Each step of assembling the record of a joined table assigns a value, if the values are those
that its row and the tables below it give. -/
theorem assemble_eq_assign_of_mem {b : Bindings} (hnames : (joins.map name).Nodup)
    (hfields : ∀ j ∈ joins, j.field ∈ fields.specs) {values : FieldSpec → Option Value}
    (hjoins : ∀ j ∈ joins, (j.record? b).map .record = values j.field) {start record : Record}
    {f : FieldSpec} (hf : f ∈ fields.specs) (hstart : record.get? f.name = start.get? f.name) :
    assemble (assignAll values (unjoined fields joins).specs start) (records b joins) record f
      = assign f (values f) record := by
  rcases mem_unjoined_or hfields hf with hown | ⟨j, hj, rfl⟩
  · apply assemble_eq_assign
    · rw [records_eq_map]
      exact get?_map_name_eq_none _ (mem_unjoined.1 hown).2
    · rw [get?_assignAll (unjoined fields joins).nodup hown, get?_assign, get?_assign, hstart]
  · unfold assemble
    rw [records_eq_map, ← name_eq, get?_map_name hnames _ hj]
    show assign j.field ((j.record? b).map .record) record = _
    rw [hjoins j hj]

/-- The record of a joined table has the values of its fields, if these are the ones that its row
and the tables below it give. -/
theorem foldl_assemble {b : Bindings} (hnames : (joins.map name).Nodup)
    (hfields : ∀ j ∈ joins, j.field ∈ fields.specs) {values : FieldSpec → Option Value}
    (hjoins : ∀ j ∈ joins, (j.record? b).map .record = values j.field) (start : Record) :
    fields.specs.foldl
        (assemble (assignAll values (unjoined fields joins).specs start) (records b joins)) start
      = assignAll values fields.specs start := by
  -- what has been assembled so far does not touch the fields to come
  have hfoldl : ∀ (specs : List FieldSpec) (record : Record), (specNames specs).Nodup →
      (∀ f ∈ specs, f ∈ fields.specs ∧ record.get? f.name = start.get? f.name) →
      specs.foldl
          (assemble (assignAll values (unjoined fields joins).specs start) (records b joins)) record
        = assignAll values specs record := by
    intro specs
    induction specs with
    | nil =>
      intro record _ _
      rfl
    | cons f rest ih =>
      intro record hnodup hspecs
      rw [specNames_cons, List.nodup_cons] at hnodup
      obtain ⟨hf, hstart⟩ := hspecs f List.mem_cons_self
      rw [List.foldl_cons, assignAll, assemble_eq_assign_of_mem hnames hfields hjoins hf hstart]
      apply ih _ hnodup.2
      intro g hg
      have hne : f.name ≠ g.name := fun h => hnodup.1 (h ▸ List.mem_map_of_mem hg)
      rw [get?_assign, if_neg hne]
      exact hspecs g (List.mem_cons_of_mem f hg)
  apply hfoldl fields.specs start fields.nodup
  intro f hf
  exact ⟨hf, rfl⟩

/-! ### The values of one level -/

/-- The values of the fields of a joined table: those that its own row gives as it comes back, and
the records of the tables joined below. -/
structure FieldValues (ops : Operators) (b : Bindings) (aliasName : String) (fields : FieldSet)
    (joins : List JoinedTable) (values : FieldSpec → Option Value) : Prop where
  own : ∀ f ∈ (unjoined fields joins).specs,
    columnValue (b.returned ops aliasName) f = .ok (values f)
  below : ∀ j ∈ joins, ∀ s ∈ j.reached b, s.ReadsBack ops b
  joined : ∀ j ∈ joins, (j.record? (b.returned ops)).map .record = values j.field

variable {ops : Operators} {b : Bindings} {aliasName : String} {pairs : List (String × Json)}

/-- Each member of an object with different keys is found under its key. -/
theorem get?_pairs (hkeys : (keys fields joins).Nodup)
    (hpairs : Expr.evalMembers ops b (members aliasName fields joins) = some pairs)
    {key : String} {e : Expr} (hmem : (key, e) ∈ members aliasName fields joins) :
    ∃ json, (e.eval ops b).member? ops = some json ∧
      Named.get? (Members.ofList pairs) key = some json := by
  obtain ⟨json, hjson, hmem⟩ := Expr.mem_evalMembers hpairs hmem
  refine ⟨json, hjson, Members.get?_ofList ?_ hmem⟩
  rwa [Expr.names_evalMembers hpairs, names_members]

/-- The identifier in an object is that of the row, as it comes back. -/
theorem integer?_get?_pairs (hkeys : (keys fields joins).Nodup)
    (hpairs : Expr.evalMembers ops b (members aliasName fields joins) = some pairs) :
    (Named.get? (Members.ofList pairs) idName).bind (fun json => json.datum.integer?)
      = ((b.returned ops aliasName).value idName).integer? := by
  have hmem : (idName, .column ⟨aliasName, idName⟩) ∈ members aliasName fields joins :=
    List.mem_append_left _ List.mem_cons_self
  obtain ⟨json, hjson, hget⟩ := get?_pairs hkeys hpairs hmem
  have hjson : Json.parse (ops.write ((b aliasName).value idName)) = some json := hjson
  rw [hget, Bindings.returned, Row.value_returned, Operators.returned, Operators.returned?, hjson]
  rfl

/-- A field of the row has the same value in the object as in the row that comes back. -/
theorem memberValue_own (hkeys : (keys fields joins).Nodup)
    (hpairs : Expr.evalMembers ops b (members aliasName fields joins) = some pairs)
    {f : FieldSpec} (hf : f ∈ (unjoined fields joins).specs)
    (hcolumn : ∃ d, (b aliasName).get? f.column = some d) :
    memberValue (Embedded.readers (embeddedAll joins)) f
        (Named.get? (Members.ofList pairs) (memberKey (Embedded.readers (embeddedAll joins)) f))
      = columnValue (b.returned ops aliasName) f := by
  obtain ⟨_, hname⟩ := mem_unjoined.1 hf
  obtain ⟨d, hd⟩ := hcolumn
  have hmem : (f.column, .column ⟨aliasName, f.column⟩) ∈ members aliasName fields joins :=
    List.mem_append_left _ (List.mem_cons_of_mem _ (List.mem_map.2 ⟨f, hf, rfl⟩))
  obtain ⟨json, hjson, hget⟩ := get?_pairs hkeys hpairs hmem
  have hjson : Json.parse (ops.write ((b aliasName).value f.column)) = some json := hjson
  rw [Row.value_of_get? hd] at hjson
  have hreturned : ops.returned d = json.datum := by
    rw [Operators.returned, Operators.returned?, hjson]
    rfl
  rw [memberKey_readers, if_neg hname, hget]
  unfold memberValue columnValue
  rw [readers_embeddedAll, get?_map_name_eq_none _ hname, Bindings.returned, Row.get?_returned, hd,
    Option.map_some, hreturned]

/-- A field that a table is joined along has the record of that table for its value. -/
theorem memberValue_joined (hkeys : (keys fields joins).Nodup)
    (hpairs : Expr.evalMembers ops b (members aliasName fields joins) = some pairs)
    {j : JoinedTable} (hj : j ∈ joins) (hagrees : j.Agrees ops b) (value : Option Value) :
    memberValue (Embedded.readers (embeddedAll joins)) j.field
        (Named.get? (Members.ofList pairs)
          (memberKey (Embedded.readers (embeddedAll joins)) j.field)) = .ok value ↔
      (∀ s ∈ j.reached b, s.ReadsBack ops b) ∧
        (j.record? (b.returned ops)).map .record = value := by
  have hname : j.field.name ∈ joins.map name := name_eq j ▸ List.mem_map_of_mem hj
  have hmem : (j.field.name, j.projection) ∈ members aliasName fields joins := by
    rw [← name_eq]
    exact List.mem_append_right _ (List.mem_map.2 ⟨j, hj, rfl⟩)
  have hread : (Embedded.readers (embeddedAll joins)).get? j.field.name = some j.embedded.read := by
    rw [readers_embeddedAll, ← name_eq]
    exact get?_map_name (List.nodup_append.1 hkeys).2.1 _ hj
  obtain ⟨json, hjson, hget⟩ := get?_pairs hkeys hpairs hmem
  rw [memberKey_readers, if_pos hname, hget]
  exact memberValue_child hagrees hread hjson value

/-- The values of the fields, read from an object, are those of the row that comes back and of the
tables below. -/
theorem memberValue_iff (hkeys : (keys fields joins).Nodup)
    (hpairs : Expr.evalMembers ops b (members aliasName fields joins) = some pairs)
    (hfields : ∀ j ∈ joins, j.field ∈ fields.specs)
    (hcolumns : ∀ column ∈ (unjoined fields joins).columns, ∃ d, (b aliasName).get? column = some d)
    (hjoins : ∀ j ∈ joins, j.Agrees ops b) {values : FieldSpec → Option Value} :
    (∀ f ∈ fields.specs,
        memberValue (Embedded.readers (embeddedAll joins)) f
          (Named.get? (Members.ofList pairs)
            (memberKey (Embedded.readers (embeddedAll joins)) f)) = .ok (values f)) ↔
      FieldValues ops b aliasName fields joins values := by
  constructor
  · intro h
    have hbelow : ∀ j ∈ joins, (∀ s ∈ j.reached b, s.ReadsBack ops b) ∧
        (j.record? (b.returned ops)).map .record = values j.field := by
      intro j hj
      exact (memberValue_joined hkeys hpairs hj (hjoins j hj) _).1 (h j.field (hfields j hj))
    refine ⟨?_, fun j hj => (hbelow j hj).1, fun j hj => (hbelow j hj).2⟩
    intro f hf
    rw [← memberValue_own hkeys hpairs hf (hcolumns _ (List.mem_map_of_mem hf))]
    exact h f (mem_unjoined.1 hf).1
  · intro h f hf
    rcases mem_unjoined_or hfields hf with hown | ⟨j, hj, rfl⟩
    · rw [memberValue_own hkeys hpairs hown (hcolumns _ (List.mem_map_of_mem hown))]
      exact h.own f hown
    · exact (memberValue_joined hkeys hpairs hj (hjoins j hj) _).2 ⟨h.below j hj, h.joined j hj⟩

/-- The row of a joined table is read as the values of its fields. -/
theorem decode_unjoined_eq_ok (hkeys : (keys fields joins).Nodup) {row : Row} {record : Record} :
    decode (unjoined fields joins) [] row = .ok record ↔
      ∃ values : FieldSpec → Option Value,
        (∀ f ∈ (unjoined fields joins).specs, columnValue row f = .ok (values f)) ∧
          assignAll values (unjoined fields joins).specs (assignId (row.value idName).integer? [])
            = record := by
  rw [decode_eq_gather _ _ (List.nodup_append.1 hkeys).1, ← Row.integer?_value]
  exact gather_eq_ok (List.Nodup.of_map _ (unjoined fields joins).nodup)

/-- The object of a joined table is read as the values of its fields. -/
theorem read_object_eq_ok {parent : String} {kind : JoinKind} {field : FieldSpec} {table : String}
    {predicates : List Filter} (hkeys : (keys fields joins).Nodup)
    (hpairs : Expr.evalMembers ops b (members aliasName fields joins) = some pairs)
    (hfields : ∀ j ∈ joins, j.field ∈ fields.specs)
    (hcolumns : ∀ column ∈ (unjoined fields joins).columns, ∃ d, (b aliasName).get? column = some d)
    (hjoins : ∀ j ∈ joins, j.Agrees ops b) {record : Record} :
    (mk aliasName parent kind field table fields predicates joins).embedded.read
        (.object (Members.ofList pairs)) = .ok record ↔
      ∃ values : FieldSpec → Option Value, FieldValues ops b aliasName fields joins values ∧
        assignAll values fields.specs
          (assignId ((b.returned ops aliasName).value idName).integer? []) = record := by
  obtain ⟨hid, hmembers⟩ := List.nodup_cons.1 (nodup_map_memberKey hkeys)
  -- no field is read from the member of the identifier, which is taken out first
  have hleft : ∀ f ∈ fields.specs,
      Named.get? (Named.erase idName (Members.ofList pairs))
          (memberKey (Embedded.readers (embeddedAll joins)) f)
        = Named.get? (Members.ofList pairs)
            (memberKey (Embedded.readers (embeddedAll joins)) f) := by
    intro f hf
    refine Named.get?_erase_of_ne ?_ _
    intro h
    exact hid (h ▸ List.mem_map_of_mem hf)
  show readMembers (Embedded.readers (embeddedAll joins)) fields.specs
    (Named.erase idName (Members.ofList pairs))
    (assignId ((Named.get? (Members.ofList pairs) idName).bind
      fun json => json.datum.integer?) []) = _ ↔ _
  rw [integer?_get?_pairs hkeys hpairs,
    readMembers_eq_gather _ (Members.ofList pairs) hmembers hleft,
    gather_eq_ok (List.Nodup.of_map _ fields.nodup)]
  refine exists_congr fun values => and_congr_left fun _ => ?_
  exact memberValue_iff hkeys hpairs hfields hcolumns hjoins

/-- An object can be read as such if the row comes back and the rows below do. -/
theorem exists_pairs
    (hreturns : ∀ column ∈ idName :: (unjoined fields joins).columns,
      (ops.returned? ((b aliasName).value column)).isSome = true)
    (hjoins : ∀ j ∈ joins, j.Agrees ops b)
    (hbelow : ∀ j ∈ joins, ∀ s ∈ j.reached b, s.Returns ops b) :
    ∃ pairs, Expr.evalMembers ops b (members aliasName fields joins) = some pairs := by
  have hcolumn : ∀ column ∈ idName :: (unjoined fields joins).columns,
      (((Expr.column ⟨aliasName, column⟩).eval ops b).member? ops).isSome = true := by
    intro column hmem
    have h := hreturns column hmem
    rwa [Operators.returned?, Option.isSome_map] at h
  apply Expr.exists_evalMembers
  intro m hm
  rcases List.mem_append.1 hm with hm | hm
  · rcases List.mem_cons.1 hm with rfl | hm
    · exact hcolumn idName List.mem_cons_self
    · obtain ⟨f, hf, rfl⟩ := List.mem_map.1 hm
      exact hcolumn f.column (List.mem_cons_of_mem _ (List.mem_map_of_mem hf))
  · obtain ⟨j, hj, rfl⟩ := List.mem_map.1 hm
    exact isSome_member? (hjoins j hj) (hbelow j hj)

/-- If an object can be read as such, then the row comes back. -/
theorem returned_of_pairs
    (hpairs : Expr.evalMembers ops b (members aliasName fields joins) = some pairs) :
    ∀ column ∈ idName :: (unjoined fields joins).columns,
      (ops.returned? ((b aliasName).value column)).isSome = true := by
  have hmember : ∀ column ∈ idName :: (unjoined fields joins).columns,
      (column, .column ⟨aliasName, column⟩) ∈ members aliasName fields joins := by
    intro column hcolumn
    refine List.mem_append_left _ ?_
    rcases List.mem_cons.1 hcolumn with rfl | hcolumn
    · exact List.mem_cons_self
    · obtain ⟨f, hf, rfl⟩ := List.mem_map.1 hcolumn
      exact List.mem_cons_of_mem _ (List.mem_map.2 ⟨f, hf, rfl⟩)
  intro column hcolumn
  obtain ⟨json, hjson, _⟩ := Expr.mem_evalMembers hpairs (hmember column hcolumn)
  have hjson : Json.parse (ops.write ((b aliasName).value column)) = some json := hjson
  rw [Operators.returned?, hjson]
  rfl

/-- What is reached from a joined table with a row is the table itself and what is reached from
the tables below. -/
theorem forall_reached_iff {parent : String} {kind : JoinKind} {field : FieldSpec} {table : String}
    {predicates : List Filter} (hnull : ¬((b aliasName).value idName).isNull = true)
    {P : JoinedTable → Prop} :
    (∀ s ∈ (mk aliasName parent kind field table fields predicates joins).reached b, P s) ↔
      P (mk aliasName parent kind field table fields predicates joins) ∧
        ∀ j ∈ joins, ∀ s ∈ j.reached b, P s := by
  rw [reached, if_neg hnull, List.forall_mem_cons]
  refine and_congr_right fun _ => ?_
  constructor
  · intro h j hj s hs
    exact h s (mem_reachedAll.2 ⟨j, hj, hs⟩)
  · intro h s hs
    obtain ⟨j, hj, hs⟩ := mem_reachedAll.1 hs
    exact h j hj s hs

/-! ### The record of one level -/

/-- The value of a field: the record below where a table is joined along it, and what the row
gives otherwise. -/
def valueOf (nested : Named (Option Record)) (own : FieldSpec → Option Value) (f : FieldSpec) :
    Option Value :=
  match nested.get? f.name with
  | some child => child.map .record
  | none => own f

theorem valueOf_unjoined (own : FieldSpec → Option Value) {f : FieldSpec}
    (hf : f ∈ (unjoined fields joins).specs) : valueOf (records b joins) own f = own f := by
  unfold valueOf
  rw [records_eq_map, get?_map_name_eq_none _ (mem_unjoined.1 hf).2]

theorem valueOf_joined (hnames : (joins.map name).Nodup) (own : FieldSpec → Option Value)
    {j : JoinedTable} (hj : j ∈ joins) :
    valueOf (records b joins) own j.field = (j.record? b).map .record := by
  unfold valueOf
  rw [records_eq_map, ← name_eq, get?_map_name hnames _ hj]

/-- If the row of a joined table can be read as it comes back, and so can the rows below that are
reached, then its fields have values. -/
theorem exists_fieldValues (hkeys : (keys fields joins).Nodup)
    (hrow : ∃ row, decode (unjoined fields joins) [] (b.returned ops aliasName) = .ok row)
    (hbelow : ∀ j ∈ joins, ∀ s ∈ j.reached b, s.ReadsBack ops b) :
    ∃ values, FieldValues ops b aliasName fields joins values := by
  obtain ⟨row, hdecode⟩ := hrow
  obtain ⟨own, hown, _⟩ := (decode_unjoined_eq_ok hkeys).1 hdecode
  refine ⟨valueOf (records (b.returned ops) joins) own, ?_, hbelow, ?_⟩
  · intro f hf
    rw [valueOf_unjoined own hf]
    exact hown f hf
  · intro j hj
    exact (valueOf_joined (List.nodup_append.1 hkeys).2.1 own hj).symm

/-- The record that a joined table stands for has the values of its fields. -/
theorem foldl_assemble_plain (hkeys : (keys fields joins).Nodup)
    (hfields : ∀ j ∈ joins, j.field ∈ fields.specs) {values : FieldSpec → Option Value}
    (hvalues : FieldValues ops b aliasName fields joins values) :
    fields.specs.foldl
        (assemble (plain (b.returned ops) aliasName (unjoined fields joins))
          (records (b.returned ops) joins))
        (assignId ((b.returned ops aliasName).value idName).integer? [])
      = assignAll values fields.specs
          (assignId ((b.returned ops aliasName).value idName).integer? []) := by
  have hdecode := (decode_unjoined_eq_ok hkeys).2 ⟨values, hvalues.own, rfl⟩
  unfold plain
  rw [hdecode]
  exact foldl_assemble (List.nodup_append.1 hkeys).2.1 hfields hvalues.joined _

/-- A joined table stands for a record, and all rows that are reached can be read as they come
back, if its row comes back and its fields have values that make up the record. -/
theorem readsBack_and_record?_iff {parent : String} {kind : JoinKind} {field : FieldSpec}
    {table : String} {predicates : List Filter} (hkeys : (keys fields joins).Nodup)
    (hfields : ∀ j ∈ joins, j.field ∈ fields.specs)
    (hnull : ¬((b aliasName).value idName).isNull = true)
    (hreturned : ¬((b.returned ops aliasName).value idName).isNull = true) {record : Record} :
    ((∀ s ∈ (mk aliasName parent kind field table fields predicates joins).reached b,
        s.ReadsBack ops b) ∧
      (mk aliasName parent kind field table fields predicates joins).record? (b.returned ops)
        = some record) ↔
    (∀ column ∈ idName :: (unjoined fields joins).columns,
        (ops.returned? ((b aliasName).value column)).isSome = true) ∧
      ∃ values : FieldSpec → Option Value, FieldValues ops b aliasName fields joins values ∧
        assignAll values fields.specs
          (assignId ((b.returned ops aliasName).value idName).integer? []) = record := by
  rw [forall_reached_iff hnull, record?, if_neg hreturned, Option.some_inj]
  constructor
  · rintro ⟨⟨⟨hreturns, hrow⟩, hbelow⟩, hrecord⟩
    obtain ⟨values, hvalues⟩ : ∃ values, FieldValues ops b aliasName fields joins values :=
      exists_fieldValues hkeys hrow hbelow
    refine ⟨hreturns, values, hvalues, ?_⟩
    rw [← foldl_assemble_plain hkeys hfields hvalues, hrecord]
  · rintro ⟨hreturns, values, hvalues, hrecord⟩
    refine ⟨⟨⟨hreturns, ?_⟩, hvalues.below⟩, ?_⟩
    · exact ⟨_, (decode_unjoined_eq_ok hkeys).2 ⟨values, hvalues.own, rfl⟩⟩
    · rw [foldl_assemble_plain hkeys hfields hvalues, hrecord]

/-- The object of a joined table agrees with its row if those of the tables below do. -/
theorem agrees_mk {parent : String} {kind : JoinKind} {field : FieldSpec} {table : String}
    {predicates : List Filter} (hkeys : (keys fields joins).Nodup)
    (hfields : ∀ j ∈ joins, j.field ∈ fields.specs)
    (hstored : ((b aliasName).value idName).isNull = false →
      (mk aliasName parent kind field table fields predicates joins).Stored b)
    (hjoins : ((b aliasName).value idName).isNull = false → ∀ j ∈ joins, j.Agrees ops b) :
    (mk aliasName parent kind field table fields predicates joins).Agrees ops b := by
  have hidentified : ((b.returned ops aliasName).value idName).isNull
      = ((b aliasName).value idName).isNull :=
    ops.isNull_returned_value b fun hnull => (hstored hnull).value_id
  refine ⟨hidentified, ?_, ?_⟩
  · intro hnull
    rw [projection, eval_object]
    exact if_pos hnull
  · intro hnull
    have hnull' : ¬((b aliasName).value idName).isNull = true := Bool.eq_false_iff.1 hnull
    have hcolumns : ∀ column ∈ (unjoined fields joins).columns,
        ∃ d, (b aliasName).get? column = some d := by
      intro column hcolumn
      obtain ⟨d, hd, _⟩ := (Option.any_eq_true _ _).1
        (hstored hnull column (List.mem_cons_of_mem _ hcolumn))
      exact ⟨d, hd⟩
    refine ⟨(Expr.evalMembers ops b (members aliasName fields joins)).map Members.ofList, ?_, ?_,
      ?_⟩
    · rw [projection, eval_object]
      exact if_neg hnull'
    · intro hreturns
      obtain ⟨hown, hbelow⟩ := (forall_reached_iff hnull').1 hreturns
      obtain ⟨pairs, hpairs⟩ : ∃ pairs,
          Expr.evalMembers ops b (members aliasName fields joins) = some pairs :=
        exists_pairs hown (hjoins hnull) hbelow
      rw [hpairs]
      rfl
    · -- both sides say that the row comes back, and which values the fields have
      intro record
      rw [readsBack_and_record?_iff hkeys hfields hnull' (hidentified ▸ hnull')]
      constructor
      · rintro ⟨members, hmembers, hread⟩
        obtain ⟨pairs, hpairs, rfl⟩ := Option.map_eq_some_iff.1 hmembers
        exact ⟨returned_of_pairs hpairs,
          (read_object_eq_ok hkeys hpairs hfields hcolumns (hjoins hnull)).1 hread⟩
      · rintro ⟨hreturns, values, hvalues, hrecord⟩
        obtain ⟨pairs, hpairs⟩ := exists_pairs hreturns (hjoins hnull)
          fun j hj s hs => (hvalues.below j hj s hs).1
        refine ⟨Members.ofList pairs, ?_, ?_⟩
        · rw [hpairs]
          rfl
        · exact (read_object_eq_ok hkeys hpairs hfields hcolumns (hjoins hnull)).2
            ⟨values, hvalues, hrecord⟩

end Level

/-! ### All levels -/

mutual
/-- The object of a joined table agrees with the rows, whatever is joined below it. -/
theorem agrees {ops : Operators} {b : Bindings} (t : JoinedTable) (hkeys : t.WellKeyed)
    (hrooted : t.Rooted) (hstored : ∀ s ∈ t.reached b, s.Stored b) : t.Agrees ops b := by
  obtain ⟨aliasName, parent, kind, field, table, fields, predicates, joins⟩ := t
  rw [WellKeyed] at hkeys
  rw [Rooted] at hrooted
  rw [reached] at hstored
  refine agrees_mk hkeys.1 hrooted.1 ?_ ?_
  · intro hnull
    rw [if_neg (Bool.eq_false_iff.1 hnull)] at hstored
    exact hstored _ List.mem_cons_self
  · -- below a null nothing is reached, and nothing is known of the rows there
    intro hnull
    rw [if_neg (Bool.eq_false_iff.1 hnull)] at hstored
    refine agreesAll joins hkeys.2 hrooted.2 ?_
    intro s hs
    exact hstored s (List.mem_cons_of_mem _ hs)
/-- The same for all joined tables of a list. -/
theorem agreesAll {ops : Operators} {b : Bindings} (joins : List JoinedTable)
    (hkeys : WellKeyedAll joins) (hrooted : RootedAll joins)
    (hstored : ∀ s ∈ reachedAll b joins, s.Stored b) : ∀ j ∈ joins, j.Agrees ops b := by
  cases joins with
  | nil =>
    intro j hj
    cases hj
  | cons first rest =>
    rw [WellKeyedAll] at hkeys
    rw [RootedAll] at hrooted
    intro j hj
    rcases List.mem_cons.1 hj with hfirst | hj
    · rw [hfirst]
      refine agrees first hkeys.1 hrooted.1 ?_
      intro s hs
      exact hstored s (List.mem_append_left _ hs)
    · refine agreesAll rest hkeys.2 hrooted.2 ?_ j hj
      intro s hs
      exact hstored s (List.mem_append_right _ hs)
end

/-! ### Rows without numbers that change -/

section Kept

variable {ops : Operators} {b : Bindings}

/-- A row with stored values has each of its columns, and what is there comes back as it is if the
numbers do. -/
theorem exists_get?_of_kept {t : JoinedTable} (hstored : t.Stored b) (hkept : t.KeepsNumbers ops b)
    {column : String} (hcolumn : column ∈ idName :: t.own.columns) :
    ∃ d, (b t.aliasName).get? column = some d ∧ d.isStored = true ∧
      (d.isDouble = true → ops.returned? d = some d) := by
  obtain ⟨d, hd, hd'⟩ := (Option.any_eq_true _ _).1 (hstored column hcolumn)
  exact ⟨d, hd, hd', hkept column hcolumn d hd⟩

/-- A row with stored values comes back, if its numbers do as they are. -/
theorem Returns.of_kept {t : JoinedTable} (hstored : t.Stored b) (hkept : t.KeepsNumbers ops b) :
    t.Returns ops b := by
  intro column hcolumn
  obtain ⟨d, hd, hd', hd''⟩ := exists_get?_of_kept hstored hkept hcolumn
  rw [Row.value_of_get? hd, Operators.returned?_of_kept hd' hd'']
  rfl

/-- The identifier of such a row is the same as it comes back. -/
theorem integer?_returned_of_kept {t : JoinedTable} (hstored : t.Stored b)
    (hkept : t.KeepsNumbers ops b) :
    ((b.returned ops t.aliasName).value idName).integer?
      = ((b t.aliasName).value idName).integer? := by
  obtain ⟨d, hd, hd', hd''⟩ := exists_get?_of_kept hstored hkept List.mem_cons_self
  rw [Bindings.returned, Row.value_returned, Row.value_of_get? hd,
    Operators.integer?_returned_of_kept hd' hd'']

/-- Such a row is read the same as it comes back. -/
theorem decode_returned_of_kept {t : JoinedTable} (hcolumns : (idName :: t.own.columns).Nodup)
    (hstored : t.Stored b) (hkept : t.KeepsNumbers ops b) :
    decode t.own [] (b.returned ops t.aliasName) = decode t.own [] (b t.aliasName) := by
  rw [decode_eq_gather _ _ hcolumns, decode_eq_gather _ _ hcolumns, ← Row.integer?_value,
    ← Row.integer?_value, integer?_returned_of_kept hstored hkept]
  apply gather_congr
  intro f hf
  obtain ⟨d, hd, hd', hd''⟩ :=
    exists_get?_of_kept hstored hkept (List.mem_cons_of_mem _ (List.mem_map_of_mem hf))
  unfold columnValue
  rw [Bindings.returned, Row.get?_returned, hd]
  exact f.load_returned_of_kept hd' hd''

/-- What a joined table stands for is the same as it comes back. -/
structure Kept (ops : Operators) (b : Bindings) (t : JoinedTable) : Prop where
  decode : ∀ s ∈ t.reached b,
    decode s.own [] (b.returned ops s.aliasName) = decode s.own [] (b s.aliasName)
  record? : t.record? (b.returned ops) = t.record? b

mutual
/-- A joined table stands for the same record as it comes back, if the numbers in all rows that
are reached do as they are. -/
theorem kept (t : JoinedTable) (hkeys : t.WellKeyed) (hstored : ∀ s ∈ t.reached b, s.Stored b)
    (hkept : ∀ s ∈ t.reached b, s.KeepsNumbers ops b) : t.Kept ops b := by
  obtain ⟨aliasName, parent, kind, field, table, fields, predicates, joins⟩ := t
  rw [WellKeyed] at hkeys
  by_cases hnull : ((b aliasName).value idName).isNull = true
  · have hreturned : ((b.returned ops aliasName).value idName).isNull = true := by
      rw [ops.isNull_returned_value b fun h => by rw [hnull] at h; cases h]
      exact hnull
    constructor
    · intro s hs
      rw [reached, if_pos hnull] at hs
      cases hs
    · rw [record?, record?, if_pos hnull, if_pos hreturned]
  · rw [forall_reached_iff hnull] at hstored hkept
    have hsame : ((b.returned ops aliasName).value idName).isNull
        = ((b aliasName).value idName).isNull :=
      ops.isNull_returned_value b fun _ => hstored.1.value_id
    have hreturned : ¬((b.returned ops aliasName).value idName).isNull = true := by
      rwa [hsame]
    have hrow : decode (unjoined fields joins) [] (b.returned ops aliasName)
        = decode (unjoined fields joins) [] (b aliasName) :=
      decode_returned_of_kept
        (t := mk aliasName parent kind field table fields predicates joins)
        (List.nodup_append.1 hkeys.1).1 hstored.1 hkept.1
    have hid : ((b.returned ops aliasName).value idName).integer?
        = ((b aliasName).value idName).integer? := integer?_returned_of_kept hstored.1 hkept.1
    have hjoins : ∀ j ∈ joins, j.Kept ops b := keptAll joins hkeys.2 hstored.2 hkept.2
    constructor
    · rw [forall_reached_iff hnull]
      exact ⟨hrow, fun j hj => (hjoins j hj).decode⟩
    · have hrecords : records (b.returned ops) joins = records b joins := by
        rw [records_eq_map, records_eq_map]
        refine List.map_congr_left ?_
        intro j hj
        rw [(hjoins j hj).record?]
      rw [record?, record?, if_neg hnull, if_neg hreturned, plain, plain, hrow, hrecords, hid]
/-- The same for all joined tables of a list. -/
theorem keptAll (joins : List JoinedTable) (hkeys : WellKeyedAll joins)
    (hstored : ∀ j ∈ joins, ∀ s ∈ j.reached b, s.Stored b)
    (hkept : ∀ j ∈ joins, ∀ s ∈ j.reached b, s.KeepsNumbers ops b) :
    ∀ j ∈ joins, j.Kept ops b := by
  cases joins with
  | nil =>
    intro j hj
    cases hj
  | cons first rest =>
    rw [WellKeyedAll] at hkeys
    rw [List.forall_mem_cons] at hstored hkept ⊢
    exact ⟨kept first hkeys.1 hstored.1 hkept.1, keptAll rest hkeys.2 hstored.2 hkept.2⟩
end

end Kept

/-- The object of a joined table is null without a row of it. Otherwise it is read exactly if all
rows below that are reached come back from it, and can be read by themselves as they come back, and
it is read as the record that these stand for. If no number comes back as another one, then it is
read as the record that the rows stand for themselves. -/
theorem read_eval_projection (ops : Operators) (b : Bindings) (t : JoinedTable)
    (hkeys : t.WellKeyed) (hrooted : t.Rooted) (hstored : ∀ s ∈ t.reached b, s.Stored b) :
    (((b t.aliasName).value idName).isNull = true →
        t.projection.eval ops b = .datum (.text none)) ∧
      (((b t.aliasName).value idName).isNull = false → ∃ document : Option Members,
        t.projection.eval ops b = .json (document.map .object) ∧
          (∀ record, (∃ members ∈ document, t.embedded.read (.object members) = .ok record) ↔
            (∀ s ∈ t.reached b, s.Returns ops b ∧
              ∃ row, decode s.own [] (b.returned ops s.aliasName) = .ok row) ∧
              t.record? (b.returned ops) = some record) ∧
          ((∀ s ∈ t.reached b, s.KeepsNumbers ops b) → ∃ members, document = some members ∧
            ∀ record, t.embedded.read (.object members) = .ok record ↔
              (∀ s ∈ t.reached b, ∃ row, decode s.own [] (b s.aliasName) = .ok row) ∧
                t.record? b = some record)) := by
  have hagrees : t.Agrees ops b := agrees t hkeys hrooted hstored
  refine ⟨hagrees.absent, ?_⟩
  intro hnull
  obtain ⟨document, heval, hdocument, hread⟩ := hagrees.present hnull
  refine ⟨document, heval, hread, ?_⟩
  intro hkept
  have hreturns : ∀ s ∈ t.reached b, s.Returns ops b := fun s hs =>
    Returns.of_kept (hstored s hs) (hkept s hs)
  obtain ⟨hdecode, hrecord⟩ := kept t hkeys hstored hkept
  obtain ⟨members, rfl⟩ := Option.isSome_iff_exists.1 (hdocument hreturns)
  refine ⟨members, rfl, ?_⟩
  intro record
  have hrows : (∀ s ∈ t.reached b, s.ReadsBack ops b) ↔
      ∀ s ∈ t.reached b, ∃ row, decode s.own [] (b s.aliasName) = .ok row := by
    refine forall₂_congr fun s hs => ?_
    rw [ReadsBack, Decodes, hdecode s hs]
    exact and_iff_right (hreturns s hs)
  have hmembers : (∃ m ∈ some members, t.embedded.read (.object m) = .ok record) ↔
      t.embedded.read (.object members) = .ok record := by
    simp
  rw [← hmembers, hread record, hrows, hrecord]

/-- The town that a person lives in. -/
def homeTown : JoinedTable :=
  .mk "t2" "t1" .left { name := "home", type := .reference } "towns"
    ⟨[{ name := "size", type := .number }, { name := "area", type := .number }], by decide⟩ [] []

/-- The person whom a person has learnt from. -/
def mentor : JoinedTable :=
  .mk "t3" "t1" .left { name := "mentor", type := .reference } "people" .empty [] []

/-- The person whom an edge leads to. -/
def edgeTarget : JoinedTable :=
  .mk "t1" "t0" .left { name := "to", type := .reference, required := false } "people"
    ⟨[{ name := "name", type := .string }, { name := "home", type := .reference },
      { name := "mentor", type := .reference },
      { name := "nick", type := .string, required := false }],
      by decide⟩ [] [homeTown, mentor]

/-- The area of a town, 12.5. -/
def townArea : Binary64 := ⟨0x4029000000000000⟩

/-- A person with a home and without a mentor. -/
def annAtHome : Bindings := fun a =>
  if a = "t1" then .identified 1 [("name", .text (some "ann")), ("nick", .text none)]
  else if a = "t2" then
    .identified 7 [("size", .int64 (some 12)), ("area", .double (some townArea))]
  else .nulls

theorem read_eval_projection_edgeTarget :
    Operators.plain.write (.double (some townArea)) = "12.5" ∧
      ∃ members, edgeTarget.projection.eval .plain annAtHome = .json (some (.object members)) ∧
        edgeTarget.embedded.read (.object members) = .ok
          [("id", .integer 1), ("name", .text "ann"),
            ("home", .record [("id", .integer 7), ("size", .number (.ofInt 12)),
              ("area", .number townArea)]),
            ("mentor", .null)] := by
  have hreached : edgeTarget.reached annAtHome = [edgeTarget, homeTown] := rfl
  have hkeys : edgeTarget.WellKeyed :=
    ⟨by decide +kernel, ⟨by decide +kernel, trivial⟩, ⟨by decide +kernel, trivial⟩, trivial⟩
  have hrooted : edgeTarget.Rooted :=
    ⟨by decide +kernel, ⟨by decide, trivial⟩, ⟨by decide, trivial⟩, trivial⟩
  have hstored : ∀ s ∈ edgeTarget.reached annAtHome, s.Stored annAtHome := by
    rw [hreached]
    simp only [List.forall_mem_cons]
    unfold Stored
    exact ⟨by decide +kernel, by decide +kernel, by simp⟩
  have hkept : ∀ s ∈ edgeTarget.reached annAtHome, s.KeepsNumbers .plain annAtHome := by
    rw [hreached]
    simp only [List.forall_mem_cons]
    unfold KeepsNumbers
    exact ⟨by decide +kernel, by decide +kernel, by simp⟩
  obtain ⟨document, heval, _, hread⟩ :=
    (read_eval_projection .plain annAtHome edgeTarget hkeys hrooted hstored).2 (by decide +kernel)
  obtain ⟨members, rfl, hmembers⟩ := hread hkept
  refine ⟨by decide +kernel, members, heval, (hmembers _).2 ⟨?_, rfl⟩⟩
  rw [hreached]
  simp only [List.forall_mem_cons]
  exact ⟨⟨_, rfl⟩, ⟨_, rfl⟩, by simp⟩

/-- The particle that has left a track. -/
def trackParticle : JoinedTable :=
  .mk "t1" "t0" .left { name := "particle", type := .reference } "particles"
    ⟨[{ name := "mass", type := .number }], by decide⟩ [] []

/-- The mass of an electron, 9.109e-31. -/
def electronMass : Binary64 := ⟨0x39b279a9c8073d8b⟩

/-- An electron. -/
def electron : Bindings := fun _ => .identified 7 [("mass", .double (some electronMass))]

/-- A record that is not what the row holds: scaling reads the number in the object as its
neighbour. -/
theorem read_ne_decode_electron :
    trackParticle.WellKeyed ∧ trackParticle.Rooted ∧
      (∀ s ∈ trackParticle.reached electron, s.Stored electron) ∧
      Operators.plain.write (.double (some electronMass)) = "9.109e-31" ∧
      decode trackParticle.own [] (electron "t1")
        = .ok [("id", .integer 7), ("mass", .number electronMass)] ∧
      trackParticle.record? electron = some [("id", .integer 7), ("mass", .number electronMass)] ∧
      ∃ members, trackParticle.projection.eval .plain electron = .json (some (.object members)) ∧
        trackParticle.embedded.read (.object members)
          = .ok [("id", .integer 7), ("mass", .number ⟨0x39b279a9c8073d8c⟩)] ∧
        trackParticle.embedded.read (.object members)
          ≠ .ok [("id", .integer 7), ("mass", .number electronMass)] := by
  have hreached : trackParticle.reached electron = [trackParticle] := rfl
  have hkeys : trackParticle.WellKeyed := ⟨by decide +kernel, trivial⟩
  have hrooted : trackParticle.Rooted := ⟨by simp, trivial⟩
  have hstored : ∀ s ∈ trackParticle.reached electron, s.Stored electron := by
    rw [hreached, List.forall_mem_singleton]
    unfold Stored
    decide +kernel
  have hreturned : electron.returned .plain
      = fun _ => .identified 7 [("mass", .double (some ⟨0x39b279a9c8073d8c⟩))] := by
    have hrow : (electron "t1").returned .plain
        = .identified 7 [("mass", .double (some ⟨0x39b279a9c8073d8c⟩))] := by
      decide +kernel
    funext a
    exact hrow
  have hreads : trackParticle.ReadsBack .plain electron := by
    refine ⟨?_, ?_⟩
    · unfold Returns
      decide +kernel
    · rw [Decodes, hreturned]
      exact ⟨_, rfl⟩
  have hagrees : trackParticle.Agrees .plain electron := agrees trackParticle hkeys hrooted hstored
  obtain ⟨document, heval, _, hread⟩ := hagrees.present rfl
  obtain ⟨members, rfl, hmembers⟩ := (hread
    [("id", .integer 7), ("mass", .number ⟨0x39b279a9c8073d8c⟩)]).2 (by
      rw [hreached, List.forall_mem_singleton, hreturned]
      exact ⟨hreads, rfl⟩)
  refine ⟨hkeys, hrooted, hstored, by decide +kernel, rfl, rfl, members, heval, hmembers, ?_⟩
  rw [hmembers]
  intro h
  have hmass : (⟨0x39b279a9c8073d8c⟩ : Binary64) = electronMass := by
    injection h with h
    injection h with _ h
    injection h with h
    injection h with _ h
    injection h
  exact absurd hmass (by decide)

end JoinedTable

end RecordMapping

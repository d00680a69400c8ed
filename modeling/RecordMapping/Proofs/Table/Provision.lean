import RecordMapping.Proofs.Field.Set
import RecordMapping.Proofs.Query.Planning
import RecordMapping.Proofs.Record.Writing
import RecordMapping.Proofs.Schema.Course
import RecordMapping.Proofs.Table.Freshness

/-!
# The columns behind the fields of a table

The fields that a table gives to work with name columns, and statements are built from these names.
A field counts as present by its name, whatever the type of the column that was found under it,
while the column that it names follows from the type that was declared for it. So the table has all
these columns only if what is declared fits its columns (`ColumnsFit`).
-/

namespace RecordMapping

/-! ## The column of a field that was found -/

/-- A field belongs to a column that is marked with its type, or has its name. In the second case it
is a number or text, or else it keeps the column as its physical name. -/
theorem columnField?_cases {c : ColumnInfo} {f : FieldSpec} (h : columnField? c = some f) :
    (c.name = f.name ++ "::" ++ f.type.tag ∧ f.physical = none) ∨
      (c.name = f.name ∧ f.type.isPrimitive = true ∧ f.physical = none) ∨
        (c.name = f.name ∧ f.physical = some c.name) := by
  unfold columnField? at h
  split at h
  · cases h
  · rcases hsplit : splitColumn c.name with ⟨name, _ | type⟩
    · obtain rfl := eq_of_splitColumn_none hsplit
      simp only [hsplit] at h
      cases hclass : StorageClass.ofDeclared? c.declaredType with
      | none =>
        simp only [hclass] at h
        cases h
      | some storage =>
        simp only [hclass] at h
        cases storage with
        | integer =>
          cases h
          exact .inr (.inr ⟨rfl, rfl⟩)
        | real | text =>
          cases h
          exact .inr (.inl ⟨rfl, rfl, rfl⟩)
    · simp only [hsplit] at h
      cases h
      exact .inl ⟨eq_of_splitColumn_some hsplit, rfl⟩

variable {columns : List ColumnInfo} {declared : FieldSet}

/-- The fields of columns are each found in one of them. -/
theorem exists_columnField? {f : FieldSpec} (hf : f ∈ (fieldsOfColumns columns).specs) :
    ∃ c ∈ columns, columnField? c = some f :=
  List.mem_filterMap.1 (FieldSet.mem_of_mem_ofList hf)

/-- A physical name that was found is the name of the field as well, and that of a column. -/
theorem mem_names_of_physical {f : FieldSpec} (hf : f ∈ (fieldsOfColumns columns).specs)
    {physical : String} (hphysical : f.physical = some physical) :
    physical = f.name ∧ physical ∈ columns.map ColumnInfo.name := by
  obtain ⟨c, hc, hfield⟩ := exists_columnField? hf
  have hname : c.name = f.name ∧ physical = c.name := by
    rcases columnField?_cases hfield with ⟨_, hnone⟩ | ⟨_, _, hnone⟩ | ⟨hname, hsome⟩
    · rw [hphysical] at hnone
      cases hnone
    · rw [hphysical] at hnone
      cases hnone
    · rw [hphysical] at hsome
      exact ⟨hname, Option.some.inj hsome⟩
  exact ⟨hname.2.trans hname.1, hname.2 ▸ List.mem_map_of_mem hc⟩

/-- The column of a field that was found is there, unless a column that is marked as a number or as
text was read as a field of the bare name. -/
theorem column_mem_of_found {f : FieldSpec} (hf : f ∈ (fieldsOfColumns columns).specs) :
    f.column ∈ columns.map ColumnInfo.name ↔
      (f.type.isPrimitive = true → f.name ∈ columns.map ColumnInfo.name) := by
  obtain ⟨c, hc, hfield⟩ := exists_columnField? hf
  have hmem : c.name ∈ columns.map ColumnInfo.name := List.mem_map_of_mem hc
  rcases columnField?_cases hfield with ⟨hname, hnone⟩ | ⟨hname, hprimitive, hnone⟩ | ⟨hname, hsome⟩
  · -- a marked column: the name of the field has the mark only if its type calls for one
    rw [FieldSpec.column, hnone, Option.getD_none, physicalName]
    cases hprimitive : f.type.isPrimitive with
    | true => simp
    | false => simpa [← hname] using ⟨c, hc, rfl⟩
  · rw [FieldSpec.column, hnone, Option.getD_none, physicalName, if_pos hprimitive]
    exact ⟨fun h _ => h, fun h => h hprimitive⟩
  · rw [FieldSpec.column, hsome, Option.getD_some, ← hname]
    exact ⟨fun _ _ => hmem, fun _ => hmem⟩

/-! ## What is declared and what was found -/

/-- The columns of a table fit the fields that are declared for it. Each of these has the column
that follows from its type, or an integer column that has its bare name; and of the other fields
that were found, those that are named like their columns have such a column. -/
structure ColumnsFit (columns : List ColumnInfo) (declared : FieldSet) : Prop where
  ofDeclared : ∀ d ∈ declared.specs,
    physicalName d.name d.type ∈ columns.map ColumnInfo.name ∨
      ∃ f ∈ (fieldsOfColumns columns).specs, f.name = d.name ∧ f.physical.isSome = true
  ofFound : ∀ f ∈ (fieldsOfColumns columns).specs, f.name ∉ declared.names →
    f.type.isPrimitive = true → f.name ∈ columns.map ColumnInfo.name

/-- A declared field has the column that follows from its type, unless an integer column was found
that has its bare name. -/
theorem column_mem_of_declared {d : FieldSpec} (hphysical : d.physical = none) :
    ((fieldsOfColumns columns).inheritPhysical d).column ∈ columns.map ColumnInfo.name ↔
      physicalName d.name d.type ∈ columns.map ColumnInfo.name ∨
        ∃ f ∈ (fieldsOfColumns columns).specs, f.name = d.name ∧ f.physical.isSome = true := by
  have hcolumn : ((fieldsOfColumns columns).inheritPhysical d).column
      = (((fieldsOfColumns columns).get? d.name).bind FieldSpec.physical).getD
          (physicalName d.name d.type) := by
    rw [FieldSpec.column, FieldSet.inheritPhysical, hphysical, Option.none_or]
  cases hget : (fieldsOfColumns columns).get? d.name with
  | none =>
    rw [hcolumn, hget]
    constructor
    · exact .inl
    · rintro (h | ⟨f, hf, hname, -⟩)
      · exact h
      · rw [FieldSet.get?_eq_some_iff.2 ⟨hf, hname⟩] at hget
        cases hget
  | some f =>
    obtain ⟨hf, hname⟩ := FieldSet.get?_eq_some_iff.1 hget
    rw [hcolumn, hget, Option.bind_some]
    cases hf' : f.physical with
    | some physical =>
      have hmem := (mem_names_of_physical hf hf').2
      exact ⟨fun _ => .inr ⟨f, hf, hname, by rw [hf']; rfl⟩, fun _ => hmem⟩
    | none =>
      constructor
      · exact .inl
      · rintro (h | ⟨g, hg, hgname, hsome⟩)
        · exact h
        · -- the field that was found under the name is the only one
          rw [FieldSet.get?_eq_some_iff.2 ⟨hg, hgname⟩] at hget
          cases hget
          rw [hf'] at hsome
          cases hsome

/-- The fields of a table with what is declared laid over them name columns of the table, if these
fit what is declared, and only then. -/
theorem columns_overlay_subset_iff (hphysical : ∀ d ∈ declared.specs, d.physical = none) :
    ((fieldsOfColumns columns).overlay declared).columns ⊆ columns.map ColumnInfo.name ↔
      ColumnsFit columns declared := by
  have hmem : ∀ {f : FieldSpec}, f ∈ ((fieldsOfColumns columns).overlay declared).specs →
      f.column ∈ ((fieldsOfColumns columns).overlay declared).columns :=
    fun hf => List.mem_map_of_mem hf
  constructor
  · intro h
    constructor
    case ofDeclared =>
      intro d hd
      refine (column_mem_of_declared (hphysical d hd)).1 (h (hmem ?_))
      exact FieldSet.mem_overlay.2 (.inl ⟨d, hd, rfl⟩)
    case ofFound =>
      intro f hf hname
      refine (column_mem_of_found hf).1 (h (hmem ?_))
      exact FieldSet.mem_overlay.2 (.inr ⟨hf, hname⟩)
  · intro hfit column hcolumn
    obtain ⟨f, hf, rfl⟩ := List.mem_map.1 hcolumn
    rcases FieldSet.mem_overlay.1 hf with ⟨d, hd, rfl⟩ | ⟨hf, hname⟩
    · exact (column_mem_of_declared (hphysical d hd)).2 (hfit.ofDeclared d hd)
    · exact (column_mem_of_found hf).2 (hfit.ofFound f hf hname)

/-! ## The columns that statements name -/

/-- The column that a condition compares with a value. -/
def Filter.column? : Filter → Option String
  | .equal _ column _ | .like _ column _ | .isNull _ column => some column
  | .equalColumns .. | .and _ => none

namespace Clause

variable {fields : FieldSet}

/-- The conditions of a compiled filter are on the identifier or on columns of the fields. -/
theorem column?_of_compile {filter : Record} {clause : Clause}
    (h : compile fields filter = .ok clause) {f : Filter} (hf : f ∈ clause.predicates) :
    ∃ column ∈ idName :: fields.columns, f.column? = some column := by
  obtain ⟨name, value, hitem⟩ := (exists_item_of_mem h).1 f hf
  have hcolumn : ∀ {field}, fields.get? name = some field → field.column ∈ fields.columns :=
    fun hfield => List.mem_map_of_mem (List.mem_of_find?_eq_some hfield)
  cases item_eq_ok_iff.1 hitem with
  | noIdentifier | identifier => exact ⟨idName, List.mem_cons_self, rfl⟩
  | isNull _ hfield | like _ hfield | equal _ hfield =>
    exact ⟨_, List.mem_cons_of_mem _ (hcolumn hfield), rfl⟩

end Clause

/-- Statements that work with the fields name only the given columns, besides the identifier:
records are written to them, filters compare them, and tables are joined along them. -/
structure StatementsWithin (fields : FieldSet) (columns : List String) : Prop where
  writes : ∀ record values, encode fields record = .ok values →
    Named.names values ⊆ columns
  compares : ∀ filter clause, Clause.compile fields filter = .ok clause →
    ∀ f ∈ clause.predicates, ∃ column ∈ idName :: columns, f.column? = some column
  joins : ∀ filter clause, Clause.compile fields filter = .ok clause →
    ∀ j ∈ clause.joins, j.field.column ∈ columns

/-- Statements name no other columns than those of the fields. -/
theorem statementsWithin {fields : FieldSet} {columns : List String}
    (h : fields.columns ⊆ columns) : StatementsWithin fields columns where
  writes := by
    intro record values hencode
    exact List.Subset.trans (names_encodeSpecs hencode) h
  compares := by
    intro filter clause hcompile f hf
    obtain ⟨column, hcolumn, hname⟩ := Clause.column?_of_compile hcompile hf
    exact ⟨column, List.cons_subset_cons idName h hcolumn, hname⟩
  joins := by
    intro filter clause hcompile j hj
    exact h (List.mem_map_of_mem (Clause.field_mem_of_compile hcompile hj))

/-! ## What ensuring provides -/

/-- The columns were last reported to a handle, and it has not sent a statement on a schema
since. -/
def LastReport (history : List Event) (handle : Handle) (columns : List ColumnInfo) : Prop :=
  ∃ before table reply after,
    history = before ++ .fetched (columnsRequest handle table) reply :: after ∧
      reportedColumns reply = some columns ∧ columns ≠ [] ∧ ∀ e ∈ after, ¬e.IsSchemaOf handle

/-- The fields of what is kept are those of the columns that were last reported. -/
theorem Fresh.lastReport {history : List Event} {caches : Caches} (h : Fresh history caches)
    {handle : Handle} {seen : Sighting} (hseen : caches handle = some seen) :
    ∃ columns, LastReport history handle columns ∧ seen.fields = fieldsOfColumns columns := by
  obtain ⟨_, before, table, reply, columns, after, hhistory, hreply, hcolumns, hfound, hafter⟩ :=
    h handle seen hseen
  exact ⟨columns, ⟨before, table, reply, after, hhistory, hreply, hcolumns, hafter⟩, hfound⟩

/-- What is kept after any operations is fresh. -/
theorem History.fresh {operations : List Operation} {history : List Event} {caches : Caches}
    (h : History operations history caches) : Fresh history caches := by
  induction h with
  | nil =>
    intro handle seen hseen
    cases hseen
  | snoc _ hruns ih => exact Operation.keeps_session _ ih hruns

namespace Table

/-- The fields that a table gives to work with are those of the columns that were last reported,
with what is declared laid over them. All of them have their columns in the table if the columns fit
what is declared, and only then; then no statement that works with these fields names another
column. -/
theorem columns_of_ensure {operations : List Operation} {history : List Event} {caches : Caches}
    (hhistory : History operations history caches) {t : Table}
    (hphysical : ∀ d ∈ t.declared.specs, d.physical = none) {required : FieldSet}
    {events : List Event} {fields : FieldSet} {caches' : Caches}
    (hruns : (t.ensure required).Runs caches events (.ok fields) caches') :
    ∃ columns, LastReport (history ++ events) t.handle columns ∧
      fields = (fieldsOfColumns columns).overlay t.declared ∧
      ((∀ f ∈ fields.specs, f.column ∈ columns.map ColumnInfo.name) ↔
        ColumnsFit columns t.declared) ∧
      (ColumnsFit columns t.declared →
        StatementsWithin fields (columns.map ColumnInfo.name)) := by
  have hfresh : Fresh (history ++ events) caches' :=
    t.keeps_ensure required hhistory.fresh hruns
  have hruns : (t.migrator.ensure required >>= fun live =>
      pure (live.overlay t.declared)).Runs caches events (.ok fields) caches' := hruns
  rcases Session.runs_bind.1 hruns with ⟨e, he, _⟩ | ⟨first, live, between, rest, rfl, hlive, hpure⟩
  · cases he
  obtain ⟨rfl, hfields, rfl⟩ := Session.runs_pure.1 hpure
  obtain rfl := Except.ok.inj hfields
  rw [List.append_nil] at hfresh ⊢
  -- what is given is kept, and what is kept is fresh
  obtain ⟨kept, rfl, hcourse⟩ := Migrator.runs_ensure.1 hlive
  obtain ⟨rfl, _⟩ := hcourse.of_ok
  obtain ⟨columns, hreport, rfl⟩ := hfresh.lastReport (caches.set_apply _ _)
  have hsubset : ((fieldsOfColumns columns).overlay t.declared).columns
      ⊆ columns.map ColumnInfo.name ↔ ColumnsFit columns t.declared :=
    columns_overlay_subset_iff hphysical
  refine ⟨columns, hreport, rfl, ?_, ?_⟩
  · rw [← hsubset]
    exact List.forall_mem_map.symm
  · intro hfit
    exact statementsWithin (hsubset.2 hfit)

/-- The table of people, whose column is added before it is reported. -/
theorem columns_of_ensure_people :
    ∃ columns, LastReport (Dialogue.events (History.people.schema.run fun _ => none)
        History.peopleReplies) 0 columns ∧
      (fieldsOfColumns History.peopleColumnsWithAge).overlay History.people.declared
        = (fieldsOfColumns columns).overlay History.people.declared ∧
      ((∀ f ∈ ((fieldsOfColumns History.peopleColumnsWithAge).overlay
          History.people.declared).specs, f.column ∈ columns.map ColumnInfo.name) ↔
        ColumnsFit columns History.people.declared) ∧
      (ColumnsFit columns History.people.declared →
        StatementsWithin ((fieldsOfColumns History.peopleColumnsWithAge).overlay
          History.people.declared) (columns.map ColumnInfo.name)) := by
  have hruns := Session.runs_play History.people.schema (fun _ => none) History.peopleReplies
  have hok : (History.people.schema.play (fun _ => none) History.peopleReplies).result.1
      = .ok ((fieldsOfColumns History.peopleColumnsWithAge).overlay History.people.declared) := rfl
  rw [hok] at hruns
  exact columns_of_ensure .nil (by decide) hruns

/-- A table with a truth value declared. -/
def flagged : Table := ⟨0, "flagged", ⟨[{ name := "flag", type := .boolean }], by decide⟩⟩

/-- The columns that the table was given by somebody else. -/
def flaggedColumns : List ColumnInfo := [⟨idName, "INTEGER", true⟩, ⟨"flag", "TEXT", false⟩]

/-- Where text stands under the declared name, no column is added, and the column that the field
names does not exist. -/
theorem column_notMem_of_ensure_flagged :
    let played := flagged.schema.play (fun _ => none) [.rows (flaggedColumns.map ColumnInfo.row)]
    played.sent.map (·.request.statement) = [.tableInfo "flagged"] ∧
      ∃ fields, played.result.1 = .ok fields ∧
        ∃ f ∈ fields.specs, f.column ∉ flaggedColumns.map ColumnInfo.name := by
  refine ⟨rfl, (fieldsOfColumns flaggedColumns).overlay flagged.declared, rfl, ?_⟩
  decide +kernel

end Table

end RecordMapping

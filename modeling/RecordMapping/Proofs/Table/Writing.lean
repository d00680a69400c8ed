import RecordMapping.Proofs.Field.Overlay
import RecordMapping.Proofs.Record.Reading
import RecordMapping.Proofs.Sql.Statement
import RecordMapping.Proofs.Table.Ensuring

/-!
# What writing a record sends

A write first ensures the fields that the record calls for, and stores the values of the record in
the fields that it is given (`Table.prepare`). Its own statement pairs the columns of these fields
with the stored values, and no value of the record is left out (`Table.written_of_runs`): what a key
calls for is required of the table, and ensuring gives no fields without what is required.
-/

namespace RecordMapping

/-! ## Values with their fields -/

namespace FieldSet

/-- The fields of a set that a record has, with their values, in the order of the set. -/
def given (fields : FieldSet) (record : Record) : List (FieldSpec × Value) :=
  fields.specs.filterMap fun field => (record.get? field.name).map (field, ·)

variable {fields : FieldSet} {record : Record}

theorem mem_given {f : FieldSpec} {value : Value} :
    (f, value) ∈ fields.given record ↔ f ∈ fields.specs ∧ record.get? f.name = some value := by
  simp only [given, List.mem_filterMap, Option.map_eq_some_iff, Prod.mk.injEq]
  constructor
  · rintro ⟨_, hf, _, hvalue, rfl, rfl⟩
    exact ⟨hf, hvalue⟩
  · rintro ⟨hf, hvalue⟩
    exact ⟨f, hf, value, hvalue, rfl, rfl⟩

theorem map_fst_given :
    (fields.given record).map Prod.fst = fields.specs.filter (record.contains ·.name) := by
  rw [given, List.map_filterMap, ← List.filterMap_eq_filter]
  refine List.filterMap_congr fun f _ => ?_
  cases h : record.get? f.name <;> simp [Option.guard, Named.contains, h]

/-- A name has one field with a value at most. -/
theorem nodup_names_given : ((fields.given record).map (·.1.name)).Nodup := by
  have hnames : (fields.given record).map (·.1.name)
      = specNames (fields.specs.filter (record.contains ·.name)) := by
    rw [← map_fst_given, specNames, List.map_map]
    rfl
  rw [hnames]
  exact (List.filter_sublist.map FieldSpec.name).nodup fields.nodup

/-- A value of the record under the name of a field has this one field. -/
theorem count_names_given {name : String} {value : Value} (hname : name ∈ fields.names)
    (hvalue : record.get? name = some value) :
    (∃ f, f.name = name ∧ (f, value) ∈ fields.given record) ∧
      ((fields.given record).map (·.1.name)).count name = 1 := by
  obtain ⟨f, hf, rfl⟩ := List.mem_map.1 hname
  have hmem : (f, value) ∈ fields.given record := mem_given.2 ⟨hf, hvalue⟩
  exact ⟨⟨f, rfl, hmem⟩, List.count_eq_one_of_mem nodup_names_given (List.mem_map_of_mem hmem)⟩

/-- A value calls for a field of its name, unless it is null or the identifier. -/
theorem mem_names_deduce {deduced : FieldSet} (h : deduce record = .ok deduced) {name : String}
    {value : Value} (hmem : (name, value) ∈ record) (hid : name ≠ idName) (hnull : value ≠ .null) :
    name ∈ deduced.names := by
  obtain ⟨specs, hspecs, hdeduced⟩ := bind_eq_ok.1 h
  cases hdeduced
  obtain ⟨spec, hspec, hfield⟩ := exists_result_of_mem hspecs hmem
  have hname : ∃ f, spec = some f ∧ f.name = name := by
    have hfield : deduceSpec name value = .ok spec := hfield
    rw [deduceSpec, if_neg hid] at hfield
    obtain ⟨type, htype, rfl⟩ := map_eq_ok.1 hfield
    cases value with
    | null => exact absurd rfl hnull
    | record r => cases htype
    | integer _ | number _ | text _ | boolean _ | date _ | object _ | array _ =>
      cases htype
      exact ⟨_, rfl, rfl⟩
  obtain ⟨f, rfl, rfl⟩ := hname
  exact mem_names_ofList.2 (List.mem_map_of_mem (List.mem_filterMap.2 ⟨_, hspec, rfl⟩))

end FieldSet

/-- A column with a physical value stores the value of a field: the column is that of the field, and
the physical value is that of the parameter which stores the value. -/
def Stores (given : FieldSpec × Value) (column : String × Datum) : Prop :=
  column.1 = given.1.column ∧
    ∃ param, given.1.store given.2 = .ok param ∧ param.datum = .ok column.2

/-- What is encoded has physical values, and these are stored in the columns of the fields one by
one. -/
theorem exists_stored_of_encode {fields : FieldSet} {record : Record} {values : Named Param}
    (h : encode fields record = .ok values) :
    ∃ stored : Named Datum, List.Forall₂ Stores (fields.given record) stored ∧
      stored.names = values.names ∧ Param.data (values.map Prod.snd) = .ok (stored.map Prod.snd) := by
  have hvalues : List.Forall₂ (fun p v => (p.1.store p.2).map (p.1.column, ·) = .ok v)
      (fields.given record) values := mapM_eq_ok_iff.1 h
  generalize fields.given record = given at hvalues ⊢
  clear h
  induction hvalues with
  | nil => exact ⟨[], .nil, rfl, rfl⟩
  | @cons p v _ values hv _ ih =>
    obtain ⟨param, hparam, rfl⟩ := map_eq_ok.1 hv
    obtain ⟨d, hd⟩ := FieldType.exists_datum_of_store hparam
    obtain ⟨stored, hstored, hnames, hdata⟩ := ih
    refine ⟨(p.1.column, d) :: stored, .cons ⟨rfl, param, hparam, hd⟩ hstored, ?_, ?_⟩
    · rw [Named.names_cons, Named.names_cons, hnames]
    · rw [data_eq_ok_iff] at hdata ⊢
      exact .cons hd hdata

namespace Table

variable {t : Table} {record : Record}

/-! ## What a record requires -/

/-- What is declared is required, and so is what a value calls for. -/
theorem mem_names_requiredFor {required : FieldSet} (h : t.requiredFor record = .ok required) :
    t.declared.names ⊆ required.names ∧
      ∀ name value, record.get? name = some value → name ≠ idName → value ≠ .null →
        name ∈ required.names := by
  obtain ⟨deduced, hdeduced, rfl⟩ := map_eq_ok.1 h
  refine ⟨fun name hname => FieldSet.mem_names_overlay.2 (.inl hname), ?_⟩
  intro name value hvalue hid hnull
  rw [FieldSet.mem_names_overlay]
  by_cases hdeclared : name ∈ t.declared.names
  · exact .inl hdeclared
  · refine .inr (FieldSet.mem_names_deduce hdeduced ?_ hid hnull)
    rw [← FieldSet.contains_iff, Bool.not_eq_true] at hdeclared
    exact List.mem_filter.2 ⟨Named.mem_of_get? hvalue, by simp [hdeclared]⟩

/-! ## Preparing a write -/

/-- The course of preparing a write, from what is kept for the table at the start to what is kept for
it at the end. -/
inductive Preparation (t : Table) (record : Record) (kept : Option Sighting) :
    List Event → Except Error (FieldSet × Named Param) → Option Sighting → Prop where
  /-- A value has no type. -/
  | untyped {e : Error} (hrequired : t.requiredFor record = .error e) :
      Preparation t record kept [] (.error e) kept
  /-- What the record calls for cannot be ensured. -/
  | unprovided {required : FieldSet} {events : List Event} {e : Error} {kept' : Option Sighting}
      (hrequired : t.requiredFor record = .ok required)
      (hcourse : t.migrator.Course required kept events (.error e) kept') :
      Preparation t record kept events (.error e) kept'
  /-- The values are stored in the fields that are given, if they can be. -/
  | provided {required live : FieldSet} {events : List Event}
      (hrequired : t.requiredFor record = .ok required)
      (hcourse : t.migrator.Course required kept events (.ok live) (some ⟨true, live⟩)) :
      Preparation t record kept events
        ((encode (live.overlay t.declared) record).map (live.overlay t.declared, ·))
        (some ⟨true, live⟩)

/-- The runs of preparing a write are these. -/
theorem runs_prepare {caches caches' : Caches} {events : List Event}
    {outcome : Except Error (FieldSet × Named Param)} :
    (t.prepare record).Runs caches events outcome caches' ↔
      ∃ kept, caches' = caches.set t.handle kept ∧
        t.Preparation record (caches t.handle) events outcome kept := by
  unfold prepare
  constructor
  · intro h
    rcases Session.runs_bind.1 h with ⟨e, rfl, hof⟩ | ⟨first, required, _, rest, rfl, hof, hrest⟩
    · obtain ⟨rfl, hrequired, rfl⟩ := Session.runs_ofExcept.1 hof
      exact ⟨_, (Caches.set_self _ _).symm, .untyped hrequired.symm⟩
    obtain ⟨rfl, hrequired, rfl⟩ := Session.runs_ofExcept.1 hof
    rcases Session.runs_bind.1 hrest with
      ⟨e, rfl, hlive⟩ | ⟨first, fields, _, last, rfl, hlive, hlast⟩
    · obtain ⟨found, kept, hcourse, rfl, hfound⟩ := runs_ensure.1 hlive
      cases found with
      | error e' =>
        cases hfound
        exact ⟨kept, rfl, .unprovided hrequired.symm hcourse⟩
      | ok live => cases hfound
    · obtain ⟨found, kept, hcourse, rfl, hfound⟩ := runs_ensure.1 hlive
      obtain ⟨live, rfl, rfl⟩ := map_eq_ok.1 hfound.symm
      obtain ⟨rfl, _⟩ := hcourse.of_ok
      obtain ⟨values, rfl, hvalues⟩ := Session.runs_bind_pure.1 hlast
      obtain ⟨rfl, rfl, rfl⟩ := Session.runs_ofExcept.1 hvalues
      rw [List.append_nil]
      exact ⟨_, rfl, .provided hrequired.symm hcourse⟩
  · rintro ⟨kept, rfl, h⟩
    cases h with
    | untyped hrequired =>
      rw [Caches.set_self]
      exact Session.runs_bind.2
        (.inl ⟨_, rfl, Session.runs_ofExcept.2 ⟨rfl, hrequired.symm, rfl⟩⟩)
    | unprovided hrequired hcourse =>
      refine Session.runs_bind.2
        (.inr ⟨[], _, caches, events, rfl, Session.runs_ofExcept.2 ⟨rfl, hrequired.symm, rfl⟩, ?_⟩)
      exact Session.runs_bind.2 (.inl ⟨_, rfl, runs_ensure.2 ⟨_, kept, hcourse, rfl, rfl⟩⟩)
    | @provided required live _ hrequired hcourse =>
      refine Session.runs_bind.2
        (.inr ⟨[], _, caches, events, rfl, Session.runs_ofExcept.2 ⟨rfl, hrequired.symm, rfl⟩, ?_⟩)
      refine Session.runs_bind.2 (.inr ⟨events, _, _, [], (List.append_nil _).symm,
        runs_ensure.2 ⟨.ok live, _, hcourse, rfl, rfl⟩, ?_⟩)
      exact Session.runs_bind_pure.2 ⟨_, rfl, Session.runs_ofExcept.2 ⟨rfl, rfl, rfl⟩⟩

/-- A write that is prepared keeps a table with the fields that it works with, and they have all that
the record requires. -/
theorem Preparation.of_ok {kept kept' : Option Sighting} {events : List Event} {fields : FieldSet}
    {values : Named Param} (h : t.Preparation record kept events (.ok (fields, values)) kept') :
    ∃ required live, t.requiredFor record = .ok required ∧ required.names ⊆ live.names ∧
      kept' = some ⟨true, live⟩ ∧ fields = live.overlay t.declared ∧
      encode fields record = .ok values := by
  generalize houtcome : (Except.ok (fields, values) : Except Error _) = outcome at h
  cases h with
  | untyped _ => cases houtcome
  | unprovided _ _ => cases houtcome
  | @provided required live _ hrequired hcourse =>
    obtain ⟨values', hvalues, hpair⟩ := map_eq_ok.1 houtcome.symm
    cases hpair
    exact ⟨required, live, hrequired, hcourse.of_ok.2, rfl, rfl, hvalues⟩

/-- A session that starts with preparing a write ends there, or goes on with fields and values. Until
then it has sent statements on schemas only. -/
theorem runs_prepare_bind {α : Type} {f : FieldSet × Named Param → Session α}
    {caches caches' : Caches} {events : List Event} {outcome : Except Error α}
    (h : (t.prepare record >>= f).Runs caches events outcome caches') :
    (∃ e, outcome = .error e ∧ (∀ e ∈ events, e.sent.IsSchema) ∧
        t.Preparation record (caches t.handle) events (.error e) (caches' t.handle)) ∨
      ∃ first fields values between rest, events = first ++ rest ∧
        (∀ e ∈ first, e.sent.IsSchema) ∧
        t.Preparation record (caches t.handle) first (.ok (fields, values)) (between t.handle) ∧
        (f (fields, values)).Runs between rest outcome caches' := by
  rcases Session.runs_bind.1 h with ⟨e, rfl, hprepare⟩ | ⟨first, p, between, rest, rfl, hprepare, hf⟩
  · obtain ⟨kept, rfl, hcourse⟩ := runs_prepare.1 hprepare
    refine .inl ⟨e, rfl, (t.sends_prepare record caches).of_runs hprepare, ?_⟩
    rwa [Caches.set_apply]
  · obtain ⟨kept, rfl, hcourse⟩ := runs_prepare.1 hprepare
    refine .inr ⟨first, p.1, p.2, _, rest, rfl,
      (t.sends_prepare record caches).of_runs hprepare, ?_, hf⟩
    rwa [Caches.set_apply]

/-! ## The statement of a write -/

variable {caches caches' : Caches} {events : List Event} {fields : FieldSet}
  {values : Named Param} {data : List Datum}

/-- An insertion that is sent has the text of its columns and the physical values. -/
theorem runs_insertRow (hdata : Param.data (values.map Prod.snd) = .ok data)
    {outcome : Except Error Record}
    (h : (t.insertRow fields values).Runs caches events outcome caches') :
    caches' = caches ∧ ∃ request reply, events = [.fetched request reply] ∧
      request.statement.isSchema = false ∧
      request.query = ⟨insertText t.name (Named.names values), data⟩ := by
  have hquery := @Insert.query_eq ⟨t.name, values⟩ data hdata
  obtain ⟨rfl, ⟨e, he, _, _⟩ | ⟨request, reply, _, hstatement, rfl, _⟩⟩ := Session.runs_rows_bind h
  · rw [hquery] at he
    cases he
  · refine ⟨rfl, request, reply, rfl, ?_, Session.query_of_statement hstatement hquery⟩
    rw [hstatement]
    rfl

/-- A row is read by one statement, where the fields of the table are kept. -/
theorem runs_findRow_of_kept {live : FieldSet} (hkept : caches t.handle = some ⟨true, live⟩)
    (hdeclared : t.declared.names ⊆ live.names) {id : Int64}
    {outcome : Except Error (Option Record)}
    (h : (t.findRow id).Runs caches events outcome caches') :
    caches' = caches ∧ ∃ request reply select, events = [.fetched request reply] ∧
      request.statement = .select select := by
  rcases Session.runs_bind.1 h with ⟨e, _, hlive⟩ | ⟨first, found, _, rest, rfl, hlive, hrest⟩
  · obtain ⟨_, he, _⟩ := runs_live_of_kept hkept hdeclared hlive
    cases he
  · obtain ⟨rfl, hfound, rfl⟩ := runs_live_of_kept hkept hdeclared hlive
    cases hfound
    obtain ⟨rfl, ⟨e, he, _, _⟩ | ⟨request, reply, _, hstatement, rfl, _⟩⟩ :=
      Session.runs_rows_bind hrest
    · cases he
    · exact ⟨rfl, request, reply, _, rfl, hstatement⟩

/-- Without values a row is only read. An update that is sent has the text of its columns, the
physical values and the identifier. -/
theorem runs_updateRow_of_kept {live : FieldSet} (hkept : caches t.handle = some ⟨true, live⟩)
    (hdeclared : t.declared.names ⊆ live.names)
    (hdata : Param.data (values.map Prod.snd) = .ok data) {id : Int64}
    {outcome : Except Error (Option Record)}
    (h : (t.updateRow id fields values).Runs caches events outcome caches') :
    caches' = caches ∧ ∃ request reply, events = [.fetched request reply] ∧
      request.statement.isSchema = false ∧
      ((values = [] ∧ ∃ select, request.statement = .select select) ∨
        (values ≠ [] ∧
          request.query = ⟨updateText t.name (Named.names values), data ++ [.int64 id]⟩)) := by
  unfold updateRow at h
  cases values with
  | nil =>
    obtain ⟨hcaches, request, reply, select, hevents, hstatement⟩ :=
      runs_findRow_of_kept hkept hdeclared h
    refine ⟨hcaches, request, reply, hevents, ?_, .inl ⟨rfl, select, hstatement⟩⟩
    rw [hstatement]
    rfl
  | cons v rest =>
    have hquery := @Update.query_eq t.name (v :: rest) id data hdata
    obtain ⟨rfl, ⟨e, he, _, _⟩ | ⟨request, reply, _, hstatement, rfl, _⟩⟩ :=
      Session.runs_rows_bind h
    · rw [hquery] at he
      cases he
    · refine ⟨rfl, request, reply, rfl, ?_,
        .inr ⟨List.cons_ne_nil v rest, Session.query_of_statement hstatement hquery⟩⟩
      rw [hstatement]
      rfl

/-! ## What is written -/

/-- The fields that a table works with, by what is kept for it. -/
def effective? (t : Table) (caches : Caches) : Option FieldSet :=
  ((caches t.handle).bind Sighting.fields?).map (·.overlay t.declared)

/-- Columns with physical values are what a record has for the fields of a set, in the order of the
set. Each value of the record has one column, unless it is null or the identifier. -/
structure Written (fields : FieldSet) (record : Record) (stored : Named Datum) : Prop where
  aligned : List.Forall₂ Stores (fields.given record) stored
  complete : ∀ name value, record.get? name = some value → name ≠ idName → value ≠ .null →
    (∃ f, f.name = name ∧ (f, value) ∈ fields.given record) ∧
      ((fields.given record).map (·.1.name)).count name = 1

/-- What a prepared write stores is what the record has. -/
theorem Preparation.exists_written {kept : Option Sighting}
    (h : t.Preparation record kept events (.ok (fields, values)) (caches t.handle)) :
    ∃ stored : Named Datum, t.effective? caches = some fields ∧ Written fields record stored ∧
      stored.names = values.names ∧ Param.data (values.map Prod.snd) = .ok (stored.map Prod.snd) := by
  obtain ⟨required, live, hrequired, hprovided, hkept, rfl, hencode⟩ := h.of_ok
  obtain ⟨stored, haligned, hnames, hdata⟩ := exists_stored_of_encode hencode
  refine ⟨stored, by rw [effective?, hkept]; rfl, ⟨haligned, ?_⟩, hnames, hdata⟩
  intro name value hvalue hid hnull
  refine FieldSet.count_names_given ?_ hvalue
  have hmem := (mem_names_requiredFor hrequired).2 name value hvalue hid hnull
  exact FieldSet.mem_names_overlay.2 (.inl (hprovided hmem))

theorem not_isSchema {request : Request} {reply : Except EngineError (List Row)}
    (h : request.statement.isSchema = false) : ¬(Event.fetched request reply).sent.IsSchema := by
  show request.statement.isSchema ≠ true
  rw [h]
  exact Bool.false_ne_true

/-- What an insertion sends for its row, if it comes that far, is what the record has. -/
theorem written_of_insert {outcome : Except Error Record}
    (h : (t.insert record).Runs caches events outcome caches') :
    (∀ found, outcome = .ok found → ∃ e ∈ events, ¬e.sent.IsSchema) ∧
      ∀ e ∈ events, ¬e.sent.IsSchema → ∃ fields stored,
        t.effective? caches' = some fields ∧ Written fields record stored ∧
        e.sent.request.query = ⟨insertText t.name (Named.names stored), stored.map Prod.snd⟩ := by
  rw [insert] at h
  rcases runs_prepare_bind h with
    ⟨_, rfl, hschema, _⟩ | ⟨first, fields, values, between, rest, rfl, hschema, hprepared, hrest⟩
  · refine ⟨?_, fun e he hnot => absurd (hschema e he) hnot⟩
    intro found hfound
    cases hfound
  obtain ⟨stored, heffective, hwritten, hnames, hdata⟩ := hprepared.exists_written
  obtain ⟨rfl, request, reply, rfl, hrow, hquery⟩ := runs_insertRow hdata hrest
  rw [← hnames] at hquery
  constructor
  · intro _ _
    exact ⟨_, List.mem_append_right _ List.mem_cons_self, not_isSchema hrow⟩
  · intro e he hnot
    rcases List.mem_append.1 he with he | he
    · exact absurd (hschema e he) hnot
    · obtain rfl := List.mem_singleton.1 he
      exact ⟨fields, stored, heffective, hwritten, hquery⟩

/-- What an update sends for its row, if it comes that far, is what the record has; without values it
reads the row. -/
theorem written_of_update {id : Value} {outcome : Except Error (Option Record)}
    (h : (t.update id record).Runs caches events outcome caches') :
    (∀ found, outcome = .ok found → id.lookupId?.isSome = true →
        ∃ e ∈ events, ¬e.sent.IsSchema) ∧
      ∀ e ∈ events, ¬e.sent.IsSchema → ∃ n fields stored, id.lookupId? = some n ∧
        t.effective? caches' = some fields ∧ Written fields record stored ∧
        ((stored = [] ∧ ∃ select, e.sent.request.statement = .select select) ∨
          (stored ≠ [] ∧ e.sent.request.query
            = ⟨updateText t.name (Named.names stored), stored.map Prod.snd ++ [.int64 n]⟩)) := by
  rcases hid : id.lookupId? with _ | n
  · -- nothing is sent where no identifier is denoted
    rw [update_eq_pure hid] at h
    obtain ⟨rfl, _, _⟩ := Session.runs_pure.1 h
    refine ⟨?_, List.forall_mem_nil _⟩
    intro _ _ hsome
    cases hsome
  rw [update_eq hid] at h
  rcases runs_prepare_bind h with
    ⟨_, rfl, hschema, _⟩ | ⟨first, fields, values, between, rest, rfl, hschema, hprepared, hrest⟩
  · refine ⟨?_, fun e he hnot => absurd (hschema e he) hnot⟩
    intro found hfound
    cases hfound
  obtain ⟨required, live, hrequired, hprovided, hkept, _, _⟩ := hprepared.of_ok
  have hdeclared := List.Subset.trans (mem_names_requiredFor hrequired).1 hprovided
  obtain ⟨stored, heffective, hwritten, hnames, hdata⟩ := hprepared.exists_written
  obtain ⟨rfl, request, reply, rfl, hrow, hsent⟩ :=
    runs_updateRow_of_kept hkept hdeclared hdata hrest
  have hnil : values = [] ↔ stored = [] := by
    constructor
    · rintro rfl
      exact List.map_eq_nil_iff.1 hnames
    · rintro rfl
      exact List.map_eq_nil_iff.1 hnames.symm
  rw [Ne, hnil, ← hnames] at hsent
  constructor
  · intro _ _ _
    exact ⟨_, List.mem_append_right _ List.mem_cons_self, not_isSchema hrow⟩
  · intro e he hnot
    rcases List.mem_append.1 he with he | he
    · exact absurd (hschema e he) hnot
    · obtain rfl := List.mem_singleton.1 he
      exact ⟨n, fields, stored, rfl, heffective, hwritten, hsent⟩

/-- A write that is sent names the columns of the fields that the record has, and gives the stored
values as parameters in the same order; an update asks for the one identifier besides. No value of
the record is missing. An insertion without values takes the defaults, and without values no update
is sent. A write that succeeds has sent its statement. -/
theorem written_of_runs (t : Table) (record : Record) :
    (∀ caches events outcome caches', (t.insert record).Runs caches events outcome caches' →
      (∀ found, outcome = .ok found → ∃ e ∈ events, ¬e.sent.IsSchema) ∧
      ∀ e ∈ events, ¬e.sent.IsSchema → ∃ fields stored,
        t.effective? caches' = some fields ∧ Written fields record stored ∧
        e.sent.request.query = ⟨insertText t.name (Named.names stored), stored.map Prod.snd⟩) ∧
    ∀ id caches events outcome caches', (t.update id record).Runs caches events outcome caches' →
      (∀ found, outcome = .ok found → id.lookupId?.isSome = true →
        ∃ e ∈ events, ¬e.sent.IsSchema) ∧
      ∀ e ∈ events, ¬e.sent.IsSchema → ∃ n fields stored, id.lookupId? = some n ∧
        t.effective? caches' = some fields ∧ Written fields record stored ∧
        ((stored = [] ∧ ∃ select, e.sent.request.statement = .select select) ∨
          (stored ≠ [] ∧ e.sent.request.query
            = ⟨updateText t.name (Named.names stored), stored.map Prod.snd ++ [.int64 n]⟩)) :=
  ⟨fun _ _ _ _ => written_of_insert, fun _ _ _ _ _ => written_of_update⟩

/-- A person with a name that the table has a column for and tags that it has none for. -/
def taggedPerson : Record :=
  [("name", .text "Ann"), ("id", .integer 9), ("tags", .array []), ("age", .integer 5),
    ("note", .null)]

/-- The columns of the table with that of the tags. -/
def taggedColumns : List ColumnInfo :=
  History.peopleColumnsWithAge ++ [⟨"tags::array", "TEXT", false⟩]

/-- What the engine replies where the column of the tags is added before the row is written. -/
def taggedReplies : List Reply :=
  [.rows (History.peopleColumnsWithAge.map ColumnInfo.row), .count,
    .rows (taggedColumns.map ColumnInfo.row), .rows [⟨"0", [(idName, .int64 (some 3))]⟩]]

/-- What is sent to insert the person, with the replies. -/
def taggedEvents : List Event :=
  Dialogue.events ((History.people.insert taggedPerson).run fun _ => none) taggedReplies

/-- What is sent to change a row to the person, with the replies. -/
def taggedChangeEvents : List Event :=
  Dialogue.events ((History.people.update (.text " 3") taggedPerson).run fun _ => none)
    taggedReplies

/-- The insertion of the person. -/
def taggedInsertion : Query where
  sql :=
    "INSERT INTO \"people\" (\"name\", \"age\", \"tags::array\") VALUES (?, ?, ?) RETURNING *"
  params := [.text (some "Ann"), .double (some (.ofInt 5)), .text (some "[]")]

/-- The change of a row to the person. -/
def taggedChange : Query where
  sql :=
    "UPDATE \"people\" SET \"name\" = ?, \"age\" = ?, \"tags::array\" = ? " ++
      "WHERE \"people\".\"id\" = ? RETURNING *"
  params := [.text (some "Ann"), .double (some (.ofInt 5)), .text (some "[]"), .int64 (some 3)]

/-- Whether an event sends a query that writes a row. -/
def writesRow (query : Query) (e : Event) : Bool :=
  (match e.sent.request.statement with
    | .insert _ | .update _ => true
    | _ => false) && decide (e.sent.request.query = query)

theorem exists_of_any_writesRow {events : List Event} {query : Query}
    (h : events.any (writesRow query) = true) :
    ∃ e ∈ events, ¬e.sent.IsSchema ∧ (∀ s, e.sent.request.statement ≠ .select s) ∧
      e.sent.request.query = query := by
  obtain ⟨e, he, hwrites⟩ := List.any_eq_true.1 h
  rw [writesRow, Bool.and_eq_true, decide_eq_true_iff] at hwrites
  obtain ⟨hstatement, hquery⟩ := hwrites
  refine ⟨e, he, ?_, ?_, hquery⟩
  · intro hschema
    unfold Sent.IsSchema at hschema
    cases hsent : e.sent.request.statement <;> simp [hsent, Statement.isSchema] at hstatement hschema
  · rintro select hselect
    simp [hselect] at hstatement

theorem written_of_runs_taggedPerson :
    ((∃ e ∈ taggedEvents, ¬e.sent.IsSchema ∧ e.sent.request.query = taggedInsertion) ∧
      ∃ fields stored, Written fields taggedPerson stored ∧
        taggedInsertion = ⟨insertText "people" (Named.names stored), stored.map Prod.snd⟩) ∧
    (∃ e ∈ taggedChangeEvents, ¬e.sent.IsSchema ∧ e.sent.request.query = taggedChange) ∧
      ∃ fields stored, Written fields taggedPerson stored ∧ taggedChange
        = ⟨updateText "people" (Named.names stored), stored.map Prod.snd ++ [.int64 (some 3)]⟩ := by
  constructor
  · obtain ⟨e, he, hrow, _, hquery⟩ := exists_of_any_writesRow
      (show taggedEvents.any (writesRow taggedInsertion) = true by decide +kernel)
    have hruns :=
      Session.runs_play (History.people.insert taggedPerson) (fun _ => none) taggedReplies
    obtain ⟨fields, stored, _, hwritten, hinsert⟩ :=
      ((written_of_runs History.people taggedPerson).1 _ _ _ _ hruns).2 e he hrow
    exact ⟨⟨e, he, hrow, hquery⟩, fields, stored, hwritten, hquery.symm.trans hinsert⟩
  · obtain ⟨e, he, hrow, hselect, hquery⟩ := exists_of_any_writesRow
      (show taggedChangeEvents.any (writesRow taggedChange) = true by decide +kernel)
    have hruns := Session.runs_play (History.people.update (.text " 3") taggedPerson)
      (fun _ => none) taggedReplies
    obtain ⟨n, fields, stored, hid, _, hwritten, hsent⟩ :=
      ((written_of_runs History.people taggedPerson).2 _ _ _ _ _ hruns).2 e he hrow
    have hlookup : (Value.text " 3").lookupId? = some (3 : Int64) := by decide +kernel
    obtain rfl : n = 3 := Option.some.inj (hid.symm.trans hlookup)
    refine ⟨⟨e, he, hrow, hquery⟩, fields, stored, hwritten, ?_⟩
    rcases hsent with ⟨_, select, hread⟩ | ⟨_, hupdate⟩
    · exact absurd hread (hselect select)
    · exact hquery.symm.trans hupdate

end Table

end RecordMapping

import RecordMapping.Proofs.Record.Taking
import RecordMapping.Proofs.Table.Writing

/-!
# Writes that refuse a value

A write refuses a value that has no type before anything is sent, and a value that does not fit its
field after all that the record calls for was ensured. The row is not written then, but the table
may have been created or changed for it: it is left alone exactly where it was found to have all
that the record calls for (`Table.refusal_of_runs`).
-/

namespace RecordMapping

/-- Whether an error refuses a value: it has no type, or it does not fit its field. -/
def Error.refuses : Error → Bool
  | .unsupportedType _ | .invalidValue _ _ (.value _) => true
  | _ => false

/-- Whether a statement creates or changes a table. -/
def Statement.altersTable : Statement → Bool
  | .createTable .. | .addColumn .. => true
  | _ => false

/-! ## Errors that refuse nothing -/

theorem Error.refuses_of_cause {e : Error} {cause : EngineError} (h : e.cause? = some cause) :
    e.refuses = false := by
  cases e with
  | migrationConflict _ _ _ | statement _ _ _ => rfl
  | unsupportedType _ | invalidValue _ _ _ | referenceResolution _ _ _ | nestedFilter _ _
  | joinDepthExceeded _ _ | decode _ | missingRow _ => cases h

/-- What is read is refused as a physical value or as a document, not as a value. -/
theorem FieldType.refuses_of_load {name : String} {type : FieldType} {d : Datum} {e : Error}
    (h : type.load name d = .error e) : e.refuses = false := by
  unfold load at h
  split at h
  · cases h
  have h : type.loadValue name d = .error e := map_eq_error.1 h
  -- numbers and texts are always read; what else may fail names the physical value or the document
  cases type with
  | number | string => cases h
  | boolean =>
    have h : loadBoolean name d = .error e := h
    unfold loadBoolean at h
    split at h <;> cases h
    rfl
  | date =>
    have h : loadDate name d = .error e := h
    unfold loadDate at h
    split at h
    · cases h
      rfl
    · split at h <;> cases h
      rfl
  | object | array =>
    have h : loadDocument name d = .error e := h
    unfold loadDocument at h
    split at h
    · split at h <;> cases h
      rfl
    · cases h
      rfl
  | reference =>
    have h : loadReference name d = .error e := h
    unfold loadReference at h
    split at h <;> cases h
    rfl

/-- A row without objects in it refuses no value. -/
theorem refuses_of_decode {fields : FieldSet} {row : Row} {e : Error}
    (h : decode fields [] row = .error e) : e.refuses = false := by
  rw [decode_eq_gather_drawn] at h
  obtain ⟨f, _, hvalue⟩ := gather_eq_error h
  unfold drawnValue rowValue at hvalue
  split at hvalue
  · next hreader => cases hreader
  · split at hvalue
    · exact FieldType.refuses_of_load hvalue
    · cases hvalue

/-- A value that is not stored is refused. -/
theorem FieldType.refuses_of_store {name : String} {type : FieldType} {value : Value} {e : Error}
    (h : type.store name value = .error e) : e.refuses = true := by
  unfold store at h
  -- only a reference without an identifier and a value of another kind are refused
  split at h
  case h_9 =>
    split at h <;> cases h
    rfl
  all_goals cases h
  rfl

/-! ## Errors with a cause -/

theorem exists_cause_of_reported {table : String} {reply : Except EngineError (List Row)}
    {e : Error} (h : reported table reply = .error e) : ∃ cause, e.cause? = some cause := by
  unfold reported at h
  split at h
  · cases h
    exact ⟨_, rfl⟩
  · split at h <;> cases h
    exact ⟨_, rfl⟩

namespace Migrator

variable {m : Migrator} {required : FieldSet} {kept kept' : Option Sighting} {events : List Event}
  {e : Error}

theorem Inquiry.exists_cause (h : m.Inquiry kept events (.error e)) :
    ∃ cause, e.cause? = some cause := by
  generalize houtcome : (Except.error e : Except Error Sighting) = outcome at h
  cases h with
  | kept => cases houtcome
  | asked => exact exists_cause_of_reported houtcome.symm

/-- Ensuring fields fails only as the engine does, or with the fields that it leaves missing. -/
theorem Course.exists_cause (h : m.Course required kept events (.error e) kept') :
    ∃ cause, e.cause? = some cause := by
  generalize houtcome : (Except.error e : Except Error FieldSet) = outcome at h
  cases h with
  | unknown hinquiry =>
    cases houtcome
    exact hinquiry.exists_cause
  | provided => cases houtcome
  | changed _ _ changes _ reply =>
    rcases bind_eq_error.1 houtcome.symm with hreport | ⟨⟨_ | _, fields⟩, _, hjudged⟩
    · exact exists_cause_of_reported hreport
    · cases hjudged
      exact ⟨_, rfl⟩
    · have hjudged : m.judgement required _ ⟨true, fields⟩ = .error e := hjudged
      rw [judgement] at hjudged
      split at hjudged <;> cases hjudged
      exact ⟨_, rfl⟩

/-! ## Tables that are left alone -/

theorem Inquiry.leaves {found : Except Error Sighting} (h : m.Inquiry kept events found) :
    ∀ e ∈ events, e.sent.request.statement.altersTable = false := by
  intro e he
  cases h with
  | kept => cases he
  | asked =>
    obtain rfl := List.mem_singleton.1 he
    rfl

/-- A table that lacks something is changed. -/
theorem exists_changeRequest {seen : Sighting}
    (hlacking : seen.present = true → ¬required.names ⊆ seen.fields.names) :
    ∃ request ∈ m.changeRequests required seen, request.statement.altersTable = true := by
  obtain ⟨_ | _, fields⟩ := seen
  · exact ⟨_, List.mem_singleton_self _, rfl⟩
  · obtain ⟨name, hname, hnot⟩ : ∃ name ∈ required.names, name ∉ fields.names := by
      simpa [List.subset_def] using hlacking rfl
    obtain ⟨f, hf, rfl⟩ := List.mem_map.1 hname
    have hfilter : f ∈ required.specs.filter fun f => f.name ∉ fields.names :=
      List.mem_filter.2 ⟨hf, by simpa using hnot⟩
    exact ⟨_, List.mem_map_of_mem hfilter, rfl⟩

/-- Ensuring fields leaves a table alone if and only if it was found to have them. -/
theorem Course.leaves_iff {live : FieldSet}
    (h : m.Course required kept events (.ok live) kept') :
    (∀ e ∈ events, e.sent.request.statement.altersTable = false) ↔
      m.Inquiry kept events (.ok ⟨true, live⟩) := by
  constructor
  · intro hleaves
    generalize houtcome : (Except.ok live : Except Error FieldSet) = outcome at h
    cases h with
    | unknown => cases houtcome
    | provided hinquiry =>
      cases houtcome
      exact hinquiry
    | changed hinquiry hlacking changes hchanges reply =>
      obtain ⟨request, hrequest, halters⟩ := exists_changeRequest (m := m) hlacking
      rw [← hchanges] at hrequest
      obtain ⟨c, hc, rfl⟩ := List.mem_map.1 hrequest
      have hleft : c.request.statement.altersTable = false :=
        hleaves c.event (List.mem_append_left _
          (List.mem_append_right _ (List.mem_map_of_mem hc)))
      rw [hleft] at halters
      cases halters
  · exact Inquiry.leaves

end Migrator

namespace Table

variable {t : Table} {record : Record} {fields : FieldSet} {e : Error}

/-! ## Rows that are written refuse nothing -/

theorem refuses_of_fails_live (h : t.live.Fails e) : e.refuses = false := by
  obtain ⟨caches, events, caches', h⟩ := h
  rcases runs_live h with ⟨_, found, hinquiry, _, hfound⟩ | ⟨_, found, kept, hcourse, _, hfound⟩
  · rw [map_eq_error.1 hfound.symm] at hinquiry
    obtain ⟨_, hcause⟩ := hinquiry.exists_cause
    exact Error.refuses_of_cause hcause
  · rw [map_eq_error.1 hfound.symm] at hcourse
    obtain ⟨_, hcause⟩ := hcourse.exists_cause
    exact Error.refuses_of_cause hcause

/-- Reading the rows that are replied to a statement refuses no value. -/
theorem refuses_of_fails_rows_bind {α : Type} {statement : Statement} {query : Query}
    (hquery : statement.query = .ok query) {read : List Row → Except Error α}
    (hread : ∀ rows, read rows = .error e → e.refuses = false)
    (h : (Session.rows t.handle statement >>= fun rows => Session.ofExcept (read rows)).Fails e) :
    e.refuses = false := by
  rcases h.of_bind with h | ⟨rows, _, h⟩
  · rcases h.of_rows with h | ⟨cause, hcause⟩
    · rw [hquery] at h
      cases h
    · exact Error.refuses_of_cause hcause
  · exact hread rows h.of_ofExcept

theorem refuses_of_head (rows : List Row)
    (h : rows.head?.mapM (decode fields []) = .error e) : e.refuses = false := by
  cases rows with
  | nil => cases h
  | cons row rest =>
    have h : (decode fields [] row).map some = .error e := h
    exact refuses_of_decode (map_eq_error.1 h)

theorem refuses_of_storedRecord (rows : List Row)
    (h : storedRecord t.name fields rows = .error e) : e.refuses = false := by
  unfold storedRecord at h
  split at h
  · cases h
  · cases h
    rfl
  · next hhead =>
    cases h
    exact refuses_of_head rows hhead

variable {values : Named Param} {data : List Datum}

theorem refuses_of_fails_insertRow (hdata : Param.data (values.map Prod.snd) = .ok data)
    (h : (t.insertRow fields values).Fails e) : e.refuses = false :=
  refuses_of_fails_rows_bind (Insert.query_eq hdata) refuses_of_storedRecord h

theorem refuses_of_fails_findRow {id : Int64} (h : (t.findRow id).Fails e) :
    e.refuses = false := by
  rcases h.of_bind with h | ⟨live, _, h⟩
  · exact refuses_of_fails_live h
  cases live with
  | none => exact absurd h (Session.not_fails_pure none e)
  | some fields => exact refuses_of_fails_rows_bind rfl refuses_of_head h

theorem refuses_of_fails_updateRow (hdata : Param.data (values.map Prod.snd) = .ok data)
    {id : Int64} (h : (t.updateRow id fields values).Fails e) : e.refuses = false := by
  unfold updateRow at h
  cases values with
  | nil => exact refuses_of_fails_findRow h
  | cons v rest => exact refuses_of_fails_rows_bind (Update.query_eq hdata) refuses_of_head h

/-! ## Refusals -/

/-- How a write refuses a value, from what is kept for the table at the start to what is kept for it
at the end. -/
inductive Refusal (t : Table) (record : Record) (kept : Option Sighting) :
    List Event → Error → Option Sighting → Prop where
  /-- A value has no type. Nothing is sent. -/
  | untyped {e : Error} (hrequired : t.requiredFor record = .error e) :
      Refusal t record kept [] e kept
  /-- A value does not fit its field. All that the record calls for was ensured. -/
  | unstorable {required live : FieldSet} {events : List Event} {e : Error}
      (hrequired : t.requiredFor record = .ok required)
      (hcourse : t.migrator.Course required kept events (.ok live) (some ⟨true, live⟩))
      (hencode : encode (live.overlay t.declared) record = .error e) :
      Refusal t record kept events e (some ⟨true, live⟩)

/-- A record calls for no fields only as a value in it has no type. -/
theorem exists_untyped (h : t.requiredFor record = .error e) :
    e.refuses = true ∧ ∃ name value, (name, value) ∈ record ∧ name ∉ t.declared.names ∧
      FieldType.deduce value = .error e := by
  rcases bind_eq_error.1 (map_eq_error.1 h) with hspecs | ⟨_, _, hspecs⟩
  · obtain ⟨⟨name, value⟩, hmem, hspec⟩ := exists_of_mapM_eq_error hspecs
    obtain ⟨hmem, hdeclared⟩ := List.mem_filter.1 hmem
    have hspec : FieldSet.deduceSpec name value = .error e := hspec
    unfold FieldSet.deduceSpec at hspec
    split at hspec
    · cases hspec
    have hvalue : FieldType.deduce value = .error e := map_eq_error.1 hspec
    refine ⟨?_, name, value, hmem, ?_, hvalue⟩
    · unfold FieldType.deduce at hvalue
      split at hvalue <;> cases hvalue
      rfl
    · rw [← FieldSet.contains_iff]
      simpa using hdeclared
  · cases hspecs

/-- A record is not encoded only as a value in it does not fit its field. -/
theorem exists_unstorable (h : encode fields record = .error e) :
    e.refuses = true ∧ ∃ f value, (f, value) ∈ fields.given record ∧
      f.store value = .error e := by
  obtain ⟨⟨f, value⟩, hmem, hstore⟩ := exists_of_mapM_eq_error h
  have hstore : f.store value = .error e := map_eq_error.1 hstore
  exact ⟨FieldType.refuses_of_store hstore, f, value, hmem, hstore⟩

/-- A refusal is how preparing a write fails with an error that refuses a value. -/
theorem refusal_iff_preparation {kept kept' : Option Sighting} {events : List Event} :
    t.Refusal record kept events e kept' ↔
      t.Preparation record kept events (.error e) kept' ∧ e.refuses = true := by
  constructor
  · intro h
    cases h with
    | untyped hrequired => exact ⟨.untyped hrequired, (exists_untyped hrequired).1⟩
    | unstorable hrequired hcourse hencode =>
      have hprovided := Preparation.provided hrequired hcourse
      rw [hencode] at hprovided
      exact ⟨hprovided, (exists_unstorable hencode).1⟩
  · rintro ⟨h, he⟩
    generalize houtcome : (Except.error e : Except Error (FieldSet × Named Param)) = outcome at h
    cases h with
    | untyped hrequired =>
      cases houtcome
      exact .untyped hrequired
    | unprovided _ hcourse =>
      cases houtcome
      obtain ⟨_, hcause⟩ := hcourse.exists_cause
      rw [Error.refuses_of_cause hcause] at he
      cases he
    | provided hrequired hcourse =>
      exact .unstorable hrequired hcourse (map_eq_error.1 houtcome.symm)

/-- A session that starts with preparing a write refuses a value as the preparation does, if it
refuses none afterwards. -/
theorem runs_refusal {α : Type} {f : FieldSet × Named Param → Session α}
    (hf : ∀ fields values data, Param.data (values.map Prod.snd) = .ok data →
      ∀ e, (f (fields, values)).Fails e → e.refuses = false)
    {caches caches' : Caches} {events : List Event} :
    (t.prepare record >>= f).Runs caches events (.error e) caches' ∧ e.refuses = true ↔
      ∃ kept, caches' = caches.set t.handle kept ∧
        t.Refusal record (caches t.handle) events e kept := by
  constructor
  · rintro ⟨h, he⟩
    rcases Session.runs_bind.1 h with ⟨e', heq, h⟩ | ⟨first, p, between, rest, rfl, hfirst, h⟩
    · cases heq
      obtain ⟨kept, rfl, hprepared⟩ := runs_prepare.1 h
      exact ⟨kept, rfl, refusal_iff_preparation.2 ⟨hprepared, he⟩⟩
    · -- what was prepared can be stored, so that nothing is refused later
      obtain ⟨kept, rfl, hprepared⟩ := runs_prepare.1 hfirst
      obtain ⟨required, live, _, _, _, _, hencode⟩ := hprepared.of_ok
      obtain ⟨stored, _, _, hdata⟩ := exists_stored_of_encode hencode
      rw [hf _ _ _ hdata e ⟨_, _, _, h⟩] at he
      cases he
  · rintro ⟨kept, rfl, h⟩
    obtain ⟨hprepared, he⟩ := refusal_iff_preparation.1 h
    exact ⟨Session.runs_bind.2 (.inl ⟨e, rfl, runs_prepare.2 ⟨kept, rfl, hprepared⟩⟩), he⟩

namespace Refusal

variable {kept kept' : Option Sighting} {events : List Event}

/-- There is a value that is refused. -/
theorem exists_value (h : t.Refusal record kept events e kept') :
    ∃ name value, (name, value) ∈ record ∧
      (FieldType.deduce value = .error e ∨
        ∃ f : FieldSpec, f.name = name ∧ f.store value = .error e) := by
  cases h with
  | untyped hrequired =>
    obtain ⟨_, name, value, hmem, _, hvalue⟩ := exists_untyped hrequired
    exact ⟨name, value, hmem, .inl hvalue⟩
  | unstorable _ _ hencode =>
    obtain ⟨_, f, value, hgiven, hstore⟩ := exists_unstorable hencode
    have hvalue := (FieldSet.mem_given.1 hgiven).2
    exact ⟨f.name, value, Named.mem_of_get? hvalue, .inr ⟨f, rfl, hstore⟩⟩

/-- No row is written. -/
theorem isSchema (h : t.Refusal record kept events e kept') :
    ∀ event ∈ events, event.sent.IsSchema := by
  have hruns : (t.prepare record).Runs (fun _ => kept) events (.error e) _ :=
    runs_prepare.2 ⟨kept', rfl, (refusal_iff_preparation.1 h).1⟩
  exact (t.sends_prepare record _).of_runs hruns

/-- The table is left alone if a value has no type, or if the table was found to have all that the
record calls for. -/
theorem leaves_iff (h : t.Refusal record kept events e kept') :
    (∀ event ∈ events, event.sent.request.statement.altersTable = false) ↔
      t.requiredFor record = .error e ∨
        ∃ live, kept' = some ⟨true, live⟩ ∧
          t.migrator.Inquiry kept events (.ok ⟨true, live⟩) := by
  cases h with
  | untyped hrequired =>
    constructor
    · intro _
      exact .inl hrequired
    · intro _ event hevent
      cases hevent
  | @unstorable required live _ _ hrequired hcourse hencode =>
    rw [hcourse.leaves_iff, hrequired]
    constructor
    · intro hinquiry
      exact .inr ⟨live, rfl, hinquiry⟩
    · rintro (h | ⟨_, hlive, hinquiry⟩)
      · cases h
      · cases hlive
        exact hinquiry

end Refusal

/-- A write fails with an error that refuses a value exactly in these ways. A value of the record is
refused then, and no row is written. The table is neither created nor changed if and only if the
value has no type, or the table was found to have all that the record calls for. -/
theorem refusal_of_runs (t : Table) (record : Record) :
    (∀ caches events e caches',
      (t.insert record).Runs caches events (.error e) caches' ∧ e.refuses = true ↔
        ∃ kept, caches' = caches.set t.handle kept ∧
          t.Refusal record (caches t.handle) events e kept) ∧
    (∀ id caches events e caches',
      (t.update id record).Runs caches events (.error e) caches' ∧ e.refuses = true ↔
        id.lookupId?.isSome = true ∧ ∃ kept, caches' = caches.set t.handle kept ∧
          t.Refusal record (caches t.handle) events e kept) ∧
    ∀ kept events e kept', t.Refusal record kept events e kept' →
      (∃ name value, (name, value) ∈ record ∧
        (FieldType.deduce value = .error e ∨
          ∃ f : FieldSpec, f.name = name ∧ f.store value = .error e)) ∧
      (∀ event ∈ events, event.sent.IsSchema) ∧
      ((∀ event ∈ events, event.sent.request.statement.altersTable = false) ↔
        t.requiredFor record = .error e ∨
          ∃ live, kept' = some ⟨true, live⟩ ∧
            t.migrator.Inquiry kept events (.ok ⟨true, live⟩)) := by
  refine ⟨?_, ?_, fun kept events e kept' h => ⟨h.exists_value, h.isSchema, h.leaves_iff⟩⟩
  · intro caches events e caches'
    rw [insert]
    exact runs_refusal fun _ _ _ hdata _ => refuses_of_fails_insertRow hdata
  · intro id caches events e caches'
    rcases hid : id.lookupId? with _ | n
    · -- nothing fails where no identifier is denoted
      constructor
      · rintro ⟨h, _⟩
        rw [update_eq_pure hid] at h
        cases (Session.runs_pure.1 h).2.1
      · rintro ⟨h, _⟩
        cases h
    · rw [update_eq hid, runs_refusal fun _ _ _ hdata _ => refuses_of_fails_updateRow hdata]
      exact (and_iff_right rfl).symm

/-- A person with a text where the age belongs. -/
def agelessPerson : Record := [("age", .text "old")]

/-- What the engine replies where the table does not exist before it is created. -/
def creationReplies : List Reply :=
  [.rows [], .count,
    .rows ([⟨idName, "INTEGER", true⟩, ⟨"age", "REAL", false⟩].map ColumnInfo.row)]

/-- The refusal of the age. -/
def ageRefused : Error := .invalidValue "age" (.fieldType .number) (.value (.text "old"))

theorem refusal_of_runs_agelessPerson :
    ∃ kept, History.people.Refusal agelessPerson none
        (Dialogue.events ((History.people.insert agelessPerson).run fun _ => none) creationReplies)
        ageRefused kept ∧
      ∃ name value, (name, value) ∈ agelessPerson ∧
        (FieldType.deduce value = .error ageRefused ∨
          ∃ f : FieldSpec, f.name = name ∧ f.store value = .error ageRefused) := by
  have hruns :=
    Session.runs_play (History.people.insert agelessPerson) (fun _ => none) creationReplies
  have hrefused : ((History.people.insert agelessPerson).play (fun _ => none)
      creationReplies).result.1 = .error ageRefused := rfl
  rw [hrefused] at hruns
  obtain ⟨hinsert, _, hrefusal⟩ := refusal_of_runs History.people agelessPerson
  obtain ⟨kept, _, h⟩ := (hinsert _ _ _ _).1 ⟨hruns, rfl⟩
  exact ⟨kept, h, (hrefusal _ _ _ _ h).1⟩

/-- The table is created for a person who is refused. -/
theorem createTable_of_refused_agelessPerson :
    let played := (History.people.insert agelessPerson).play (fun _ => none) creationReplies
    played.result.1 = .error ageRefused ∧
      played.sent.map (·.request.statement)
        = [.tableInfo "people", .createTable "people" History.people.declared,
          .tableInfo "people"] :=
  ⟨rfl, rfl⟩

end Table

end RecordMapping

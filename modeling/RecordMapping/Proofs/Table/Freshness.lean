import RecordMapping.Proofs.Schema.Course
import RecordMapping.Proofs.Table.Parts

/-!
# What is kept is fresh

What is kept for a handle is a table that exists, with the fields of the last report that the handle
received, and since then it has sent nothing that changes the table (`FreshReport`). This holds after
any operations on any handles, whatever the engine replied (`History.freshReport_of_kept`).

Most sessions keep this because they send no statements on schemas. A migrator breaks it between its
own statements, and restores it by forgetting what it knew.
-/

namespace RecordMapping

/-- Whether a statement asks for the columns of a table or changes them. -/
def Statement.isSchema : Statement → Bool
  | .tableInfo _ | .createTable .. | .addColumn .. => true
  | _ => false

/-- Whether an event is about a statement of a handle that asks for columns or changes them. -/
def Event.IsSchemaOf (handle : Handle) (e : Event) : Prop :=
  e.sent.request.sender = some handle ∧ e.sent.request.statement.isSchema = true

/-- The fields are those of the columns that were last reported to a handle. The report could be
read and was not empty, and the handle has not sent a statement on a schema since. -/
def FreshReport (history : List Event) (handle : Handle) (fields : FieldSet) : Prop :=
  ∃ before table reply columns after,
    history = before ++ .fetched (columnsRequest handle table) reply :: after ∧
      reportedColumns reply = some columns ∧ columns ≠ [] ∧ fields = fieldsOfColumns columns ∧
      ∀ e ∈ after, ¬e.IsSchemaOf handle

/-- What is kept for any handle is a table that exists, and its fields are fresh. -/
def Fresh (history : List Event) (caches : Caches) : Prop :=
  ∀ handle seen, caches handle = some seen →
    seen.present = true ∧ FreshReport history handle seen.fields

/-- A report stays the last one while the handle sends nothing on schemas. -/
theorem FreshReport.append {history events : List Event} {handle : Handle} {fields : FieldSet}
    (h : FreshReport history handle fields) (hevents : ∀ e ∈ events, ¬e.IsSchemaOf handle) :
    FreshReport (history ++ events) handle fields := by
  obtain ⟨before, table, reply, columns, after, rfl, hreply, hcolumns, hfields, hafter⟩ := h
  refine ⟨before, table, reply, columns, after ++ events, ?_, hreply, hcolumns, hfields, ?_⟩
  · rw [List.append_assoc, List.cons_append]
  · intro e he
    rcases List.mem_append.1 he with he | he
    · exact hafter e he
    · exact hevents e he

theorem Fresh.append {history events : List Event} {caches : Caches} (h : Fresh history caches)
    (hevents : ∀ handle, (caches handle).isSome = true → ∀ e ∈ events, ¬e.IsSchemaOf handle) :
    Fresh (history ++ events) caches := by
  intro handle seen hseen
  obtain ⟨hpresent, hfresh⟩ := h handle seen hseen
  exact ⟨hpresent, hfresh.append (hevents handle (by rw [hseen]; rfl))⟩

namespace Migrator

variable {m : Migrator}

/-- What a migrator sends is sent by its own handle. -/
theorem not_isSchemaOf {e : Event} (hown : m.Own e.sent) {handle : Handle}
    (hne : handle ≠ m.handle) : ¬e.IsSchemaOf handle := by
  rintro ⟨hsender, _⟩
  rw [hown.sender] at hsender
  exact hne (Option.some.inj hsender).symm

/-- After its own statements a migrator knows nothing, and the others know what they knew. -/
theorem fresh_forget {history events : List Event} {caches : Caches}
    (hown : ∀ e ∈ events, m.Own e.sent) (hfresh : Fresh history caches) :
    Fresh (history ++ events) (caches.set m.handle none) := by
  intro handle seen hseen
  by_cases hhandle : handle = m.handle
  · rw [hhandle, Caches.set_apply] at hseen
    cases hseen
  · rw [Caches.set, if_neg hhandle] at hseen
    obtain ⟨hpresent, hfields⟩ := hfresh handle seen hseen
    exact ⟨hpresent, hfields.append fun e he => not_isSchemaOf (hown e he) hhandle⟩

/-- What is reported to a migrator is fresh from then on. -/
theorem fresh_reported {history : List Event} {caches : Caches} (hfresh : Fresh history caches)
    (reply : Except EngineError (List Row)) :
    Fresh (history ++ [.fetched (columnsRequest m.handle m.table) reply])
      (caches.set m.handle (keptAfter none (reported m.table reply))) := by
  intro handle seen hseen
  by_cases hhandle : handle = m.handle
  · subst hhandle
    rw [Caches.set_apply] at hseen
    -- only a table that was reported to exist is kept
    obtain ⟨hfound, hpresent⟩ := Option.filter_eq_some_iff.1 hseen
    obtain ⟨_, fields⟩ := seen
    cases hpresent
    have hok : reported m.table reply = .ok ⟨true, fields⟩ := by
      cases hreported : reported m.table reply with
      | error e =>
        rw [hreported] at hfound
        cases hfound
      | ok found =>
        rw [hreported] at hfound
        cases hfound
        rfl
    obtain ⟨rows, columns, _, hcolumns, hne, rfl⟩ := columns_of_reported_present hok
    exact ⟨rfl, history, m.table, reply, columns, [], rfl, hcolumns, hne, rfl, by simp⟩
  · rw [Caches.set, if_neg hhandle] at hseen
    obtain ⟨hpresent, hfields⟩ := hfresh handle seen hseen
    refine ⟨hpresent, hfields.append fun e he => ?_⟩
    obtain rfl := List.mem_singleton.1 he
    have hown : m.Own (.fetch (columnsRequest m.handle m.table)) := rfl
    exact not_isSchemaOf hown hhandle

theorem keeps_look (m : Migrator) : m.look.Keeps Fresh := by
  intro history caches events found caches' hfresh hruns
  obtain ⟨hinquiry, rfl⟩ := runs_look.1 hruns
  generalize hkept : caches m.handle = kept at hinquiry
  cases hinquiry with
  | kept seen =>
    have hset : caches.set m.handle (some seen) = caches := hkept ▸ caches.set_self m.handle
    rw [List.append_nil]
    exact hset.symm ▸ hfresh
  | asked reply => exact fresh_reported hfresh reply

theorem keeps_current (m : Migrator) : m.current.Keeps Fresh :=
  (Session.closed_keeps Fresh).bind m.keeps_look fun _ _ => (Session.closed_keeps Fresh).pure _

theorem keeps_forget (m : Migrator) : m.forget.Keeps Fresh := by
  intro history caches events outcome caches' hfresh hruns
  obtain ⟨rfl, _, rfl⟩ := Session.runs_setCache.1 hruns
  -- no events at all are events of its own
  exact fresh_forget (by simp) hfresh

/-- Ensuring keeps everything fresh, wherever it fails. -/
theorem keeps_ensure (m : Migrator) (required : FieldSet) : (m.ensure required).Keeps Fresh := by
  intro history caches events outcome caches' hfresh hruns
  have hown := (m.sends_ensure required caches).of_runs hruns
  obtain ⟨kept, rfl, hcourse⟩ := runs_ensure.1 hruns
  cases hcourse with
  | unknown hinquiry =>
    have hlook := m.keeps_look hfresh (runs_look.2 ⟨hinquiry, rfl⟩)
    rwa [hinquiry.keptAfter_error] at hlook
  | provided hinquiry _ =>
    have hlook := m.keeps_look hfresh (runs_look.2 ⟨hinquiry, rfl⟩)
    rwa [hinquiry.keptAfter_present] at hlook
  | changed _ _ changes _ reply =>
    -- between its own statements nothing is kept, so the confirmation starts from what is fresh
    have hforgotten := fresh_forget (fun e he => hown e (List.mem_append_left _ he)) hfresh
    have hconfirmed := fresh_reported (m := m) hforgotten reply
    rwa [Caches.set_set, List.append_assoc] at hconfirmed

end Migrator

/-- Statements of other kinds keep everything fresh. -/
theorem Session.keeps_rows (sender : Handle) {statement : Statement}
    (hstatement : statement.isSchema = false) : (Session.rows sender statement).Keeps Fresh := by
  intro history caches events outcome caches' hfresh hruns
  obtain ⟨rfl, ⟨_, _, rfl, _⟩ | ⟨request, reply, _, hrequest, rfl, _⟩⟩ := Session.runs_rows hruns
  · rwa [List.append_nil]
  · refine hfresh.append ?_
    rintro _ _ e he ⟨_, hschema⟩
    obtain rfl := List.mem_singleton.1 he
    have hschema : request.statement.isSchema = true := hschema
    rw [hrequest, hstatement] at hschema
    cases hschema

/-! ## Operations -/

namespace Table

theorem keeps_ensure (t : Table) (required : FieldSet) : (t.ensure required).Keeps Fresh :=
  closed_ensure (Session.closed_keeps Fresh) (t.migrator.keeps_ensure required)

theorem keeps_live (t : Table) : t.live.Keeps Fresh :=
  closed_live (Session.closed_keeps Fresh) (t.keeps_ensure t.declared) t.migrator.keeps_current

theorem keeps_insert (t : Table) (record : Record) : (t.insert record).Keeps Fresh := by
  refine closed_insert (Session.closed_keeps Fresh) (fun required _ => t.keeps_ensure required) ?_
  exact fun _ => Session.keeps_rows t.handle rfl

theorem keeps_find (t : Table) (filter : Record) : (t.find filter).Keeps Fresh := by
  refine closed_find (Session.closed_keeps Fresh) t.keeps_live ?_ filter
  exact fun _ => Session.keeps_rows t.handle rfl

theorem keeps_findRow (t : Table) (id : Int64) : (t.findRow id).Keeps Fresh := by
  refine closed_findRow (Session.closed_keeps Fresh) t.keeps_live ?_ id
  exact fun _ => Session.keeps_rows t.handle rfl

theorem keeps_findById (t : Table) (id : Value) : (t.findById id).Keeps Fresh :=
  closed_findById (Session.closed_keeps Fresh) t.keeps_findRow id

theorem keeps_update (t : Table) (id : Value) (changes : Record) :
    (t.update id changes).Keeps Fresh := by
  refine closed_update (Session.closed_keeps Fresh) (fun required _ => t.keeps_ensure required)
    t.keeps_findRow ?_ id
  exact fun _ => Session.keeps_rows t.handle rfl

/-- Planning ensures the columns of other tables on the way, each in the name of its own handle. -/
theorem keeps_findRelated (t : Table) (registry : Registry) (filter : Record) :
    (t.findRelated registry filter).Keeps Fresh := by
  refine closed_findRelated (Session.closed_keeps Fresh) t.keeps_live ?_ ?_ filter
  · exact fun _ => Session.keeps_rows t.handle rfl
  · exact fun target _ => target.keeps_ensure target.declared

theorem keeps_runSql (t : Table) (sql : String) (params : List Datum) :
    (t.runSql sql params).Keeps Fresh :=
  closed_runSql (Session.closed_keeps Fresh) (t.keeps_ensure t.declared)
    (Session.keeps_rows t.handle rfl)

end Table

theorem Registry.keeps_reset (r : Registry) : r.reset.Keeps Fresh :=
  (Session.closed_keeps Fresh).forM fun t _ => t.migrator.keeps_forget

/-- An operation on a handle, or on a registry. -/
inductive Operation where
  | schema (t : Table)
  | insert (t : Table) (record : Record)
  | find (t : Table) (filter : Record)
  | findById (t : Table) (id : Value)
  | update (t : Table) (id : Value) (changes : Record)
  | findRelated (t : Table) (registry : Registry) (filter : Record)
  | runSql (t : Table) (sql : String) (params : List Datum)
  | forget (t : Table)
  | ensure (m : Migrator) (required : FieldSet)
  | current (m : Migrator)
  | reset (registry : Registry)

namespace Operation

/-- What an operation does, whatever it gives. -/
def session : Operation → Session Unit
  | .schema t => discard t.schema
  | .insert t record => discard (t.insert record)
  | .find t filter => discard (t.find filter)
  | .findById t id => discard (t.findById id)
  | .update t id changes => discard (t.update id changes)
  | .findRelated t registry filter => discard (t.findRelated registry filter)
  | .runSql t sql params => discard (t.runSql sql params)
  | .forget t => t.forget
  | .ensure m required => discard (m.ensure required)
  | .current m => discard m.current
  | .reset registry => registry.reset

/-- Every operation keeps what is kept fresh. -/
theorem keeps_session (operation : Operation) : operation.session.Keeps Fresh := by
  have hclosed := Session.closed_keeps Fresh
  cases operation with
  | schema t => exact hclosed.map (t.keeps_ensure t.declared) _
  | insert t record => exact hclosed.map (t.keeps_insert record) _
  | find t filter => exact hclosed.map (t.keeps_find filter) _
  | findById t id => exact hclosed.map (t.keeps_findById id) _
  | update t id changes => exact hclosed.map (t.keeps_update id changes) _
  | findRelated t registry filter => exact hclosed.map (t.keeps_findRelated registry filter) _
  | runSql t sql params => exact hclosed.map (t.keeps_runSql sql params) _
  | forget t => exact t.migrator.keeps_forget
  | ensure m required => exact hclosed.map (m.keeps_ensure required) _
  | current m => exact hclosed.map m.keeps_current _
  | reset registry => exact registry.keeps_reset

end Operation

/-- Operations one after the other, with all their events and what is kept in the end. Nothing is
kept at first, and an operation that fails does not stop the next one. -/
inductive History : List Operation → List Event → Caches → Prop where
  | nil : History [] [] fun _ => none
  | snoc {operations : List Operation} {history events : List Event} {caches caches' : Caches}
      {operation : Operation} {outcome : Except Error Unit}
      (hhistory : History operations history caches)
      (hruns : operation.session.Runs caches events outcome caches') :
      History (operations ++ [operation]) (history ++ events) caches'

namespace History

/-- After any operations, whatever the engine replied, what is kept for a handle is a table that exists,
with the fields that were last reported to it, and it has sent nothing since that could have changed
them. -/
theorem freshReport_of_kept {operations : List Operation} {history : List Event} {caches : Caches}
    (h : History operations history caches) :
    ∀ handle seen, caches handle = some seen →
      seen.present = true ∧ FreshReport history handle seen.fields := by
  induction h with
  | nil =>
    intro handle seen hseen
    cases hseen
  | snoc _ hruns ih =>
    -- how the operation ends does not matter, only what it sent and what it keeps
    exact Operation.keeps_session _ ih hruns

/-- A table with one declared field. -/
def people : Table := ⟨0, "people", ⟨[{ name := "age", type := .number }], by decide⟩⟩

/-- The columns of the table before the declared field is added. -/
def peopleColumns : List ColumnInfo := [⟨idName, "INTEGER", true⟩, ⟨"name", "TEXT", false⟩]

/-- The columns of the table with that of the declared field. -/
def peopleColumnsWithAge : List ColumnInfo := peopleColumns ++ [⟨"age", "REAL", false⟩]

/-- What the engine replies where the column is added and then reported. -/
def peopleReplies : List Reply :=
  [.rows (peopleColumns.map ColumnInfo.row), .count,
    .rows (peopleColumnsWithAge.map ColumnInfo.row)]

theorem freshReport_of_kept_people :
    ((Operation.schema people).session.play (fun _ => none) peopleReplies).result.2 0
        = some ⟨true, fieldsOfColumns peopleColumnsWithAge⟩ ∧
      FreshReport
        (Dialogue.events ((Operation.schema people).session.run fun _ => none) peopleReplies) 0
        (fieldsOfColumns peopleColumnsWithAge) := by
  have hkept : ((Operation.schema people).session.play (fun _ => none) peopleReplies).result.2 0
      = some ⟨true, fieldsOfColumns peopleColumnsWithAge⟩ := by decide +kernel
  have hhistory :=
    nil.snoc (Session.runs_play (Operation.schema people).session _ peopleReplies)
  exact ⟨hkept, (freshReport_of_kept hhistory 0 _ hkept).2⟩

end History

end RecordMapping

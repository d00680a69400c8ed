import RecordMapping.Proofs.Session.Trace
import RecordMapping.Proofs.Sql.Statement
import RecordMapping.Schema.Migration

/-!
# What a migrator sends

A migrator asks for the columns of its table, creates the table, or adds a column to it. The three
requests are spelled out here, with their texts, and a migrator sends no others
(`Migrator.sends_ensure`). To learn what its table is it sends one request at most, and takes what the
reply reports (`Migrator.run_look_of_none`).
-/

namespace RecordMapping

/-! ## Requests -/

/-- The request for the columns of a table. -/
def columnsRequest (sender : Option Handle) (table : String) : Request :=
  ⟨sender, .tableInfo table,
    ⟨"SELECT name, type, pk FROM pragma_table_info(?) ORDER BY cid", [.text (some table)]⟩,
    query_tableInfo table⟩

/-- The request to create a table. -/
def creationRequest (sender : Handle) (table : String) (fields : FieldSet) : Request :=
  ⟨sender, .createTable table fields, ⟨creationText table fields.specs, []⟩,
    query_createTable table fields⟩

/-- The request to add the column of a field to a table. -/
def additionRequest (sender : Handle) (table : String) (field : FieldSpec) : Request :=
  ⟨sender, .addColumn table field, ⟨additionText table field, []⟩, query_addColumn table field⟩

/-- Requests by the same sender for the same statement are the same. -/
theorem Request.ext {r r' : Request} (hsender : r.sender = r'.sender)
    (hstatement : r.statement = r'.statement) : r = r' := by
  obtain ⟨sender, statement, query, hquery⟩ := r
  obtain ⟨sender', statement', query', hquery'⟩ := r'
  obtain rfl : sender = sender' := hsender
  obtain rfl : statement = statement' := hstatement
  -- the query is that of the statement
  obtain rfl : query = query' := Except.ok.inj (hquery.symm.trans hquery')
  rfl

theorem createTable_eq (sender : Handle) (table : String) (fields : FieldSet) :
    createTable sender table fields = alter (creationRequest sender table fields) :=
  congrArg alter (Request.ext rfl rfl)

theorem addColumn_eq (sender : Handle) (table : String) (field : FieldSpec) :
    addColumn sender table field = alter (additionRequest sender table field) :=
  congrArg alter (Request.ext rfl rfl)

/-! ## Reports -/

/-- The columns that a report lists, if the engine gave one that can be read. -/
def reportedColumns : Except EngineError (List Row) → Option (List ColumnInfo)
  | .ok rows => (rows.mapM ColumnInfo.ofRow).toOption
  | .error _ => none

/-- What columns show of a table: it exists if there are any. -/
def Sighting.ofColumns (columns : List ColumnInfo) : Sighting :=
  if columns.isEmpty then .absent else ⟨true, fieldsOfColumns columns⟩

theorem Sighting.ofColumns_of_ne_nil {columns : List ColumnInfo} (h : columns ≠ []) :
    ofColumns columns = ⟨true, fieldsOfColumns columns⟩ :=
  if_neg (by simpa using h)

/-- The failure to learn the columns of a table. -/
def unreadable (table : String) (cause : EngineError) : Error :=
  .statement "pragma_table_info" [.text (some table)] cause

/-- What a reply to the request for the columns of a table reports. A request that fails, and rows
that cannot be read, report nothing. -/
def reported (table : String) : Except EngineError (List Row) → Except Error Sighting
  | .error e => .error (unreadable table (e.within ("failed to read table info for " ++ table)))
  | .ok rows =>
    match rows.mapM ColumnInfo.ofRow with
    | .error e => .error (unreadable table (.root e.message))
    | .ok columns => .ok (.ofColumns columns)

/-- Columns that are listed are reported. -/
theorem reported_of_columns {reply : Except EngineError (List Row)} {columns : List ColumnInfo}
    (h : reportedColumns reply = some columns) (table : String) :
    reported table reply = .ok (.ofColumns columns) := by
  cases reply with
  | error e => cases h
  | ok rows =>
    have h : (rows.mapM ColumnInfo.ofRow).toOption = some columns := h
    unfold reported
    cases hrows : rows.mapM ColumnInfo.ofRow with
    | error e =>
      rw [hrows] at h
      cases h
    | ok columns' =>
      rw [hrows] at h
      cases h
      simp only [hrows]

/-- A report is one of columns that are listed in rows. -/
theorem columns_of_reported {table : String} {reply : Except EngineError (List Row)}
    {seen : Sighting} (h : reported table reply = .ok seen) :
    ∃ rows columns, reply = .ok rows ∧ reportedColumns reply = some columns ∧
      seen = .ofColumns columns := by
  cases reply with
  | error e => cases h
  | ok rows =>
    unfold reported at h
    cases hrows : rows.mapM ColumnInfo.ofRow with
    | error e =>
      simp only [hrows] at h
      cases h
    | ok columns =>
      simp only [hrows] at h
      cases h
      exact ⟨rows, columns, rfl, by rw [reportedColumns, hrows]; rfl, rfl⟩

/-- A table that is reported to exist has the fields of the columns that are listed. -/
theorem columns_of_reported_present {table : String} {reply : Except EngineError (List Row)}
    {fields : FieldSet} (h : reported table reply = .ok ⟨true, fields⟩) :
    ∃ rows columns, reply = .ok rows ∧ reportedColumns reply = some columns ∧ columns ≠ [] ∧
      fields = fieldsOfColumns columns := by
  obtain ⟨rows, columns, hreply, hcolumns, hseen⟩ := columns_of_reported h
  by_cases hne : columns = []
  · -- without columns the table would be reported not to exist
    rw [hne] at hseen
    cases hseen
  · rw [Sighting.ofColumns_of_ne_nil hne] at hseen
    cases hseen
    exact ⟨rows, columns, hreply, hcolumns, hne, rfl⟩

/-! ## Looking -/

/-- Keeping what is kept changes nothing. -/
theorem Caches.set_self (caches : Caches) (handle : Handle) :
    caches.set handle (caches handle) = caches := by
  funext h
  by_cases hh : h = handle
  · rw [Caches.set, if_pos hh, hh]
  · rw [Caches.set, if_neg hh]

/-- What is kept last counts. -/
theorem Caches.set_set (caches : Caches) (handle : Handle) (seen seen' : Option Sighting) :
    (caches.set handle seen).set handle seen' = caches.set handle seen' := by
  funext h
  by_cases hh : h = handle
  · rw [Caches.set, if_pos hh, Caches.set, if_pos hh]
  · rw [Caches.set, if_neg hh, Caches.set, if_neg hh, Caches.set, if_neg hh]

/-- What is kept for a handle was put there. -/
@[simp] theorem Caches.set_apply (caches : Caches) (handle : Handle) (seen : Option Sighting) :
    caches.set handle seen handle = seen :=
  if_pos rfl

namespace Migrator

/-- What is kept after a table was looked at: what was kept before, or else what was found, if the
table exists. -/
def keptAfter (kept : Option Sighting) (found : Except Error Sighting) : Option Sighting :=
  kept.or (found.toOption.filter Sighting.present)

theorem run_look_of_some {m : Migrator} {caches : Caches} {seen : Sighting}
    (hkept : caches m.handle = some seen) : m.look.run caches = .done (.ok seen, caches) := by
  rw [look, Session.run_cached_bind, hkept]
  rfl

/-- Where nothing is kept, one request is sent, and what the reply reports is found. -/
theorem run_look_of_none {m : Migrator} {caches : Caches} (hnone : caches m.handle = none) :
    m.look.run caches = .fetch (columnsRequest m.handle m.table) fun reply =>
      .done (reported m.table reply,
        caches.set m.handle (keptAfter none (reported m.table reply))) := by
  have hset : caches.set m.handle none = caches := hnone ▸ caches.set_self m.handle
  rw [look, Session.run_cached_bind, hnone]
  show Dialogue.fetch _ _ = Dialogue.fetch _ _
  congr 1
  funext reply
  -- nothing is put in place of nothing where no table is reported
  cases reply with
  | error e =>
    show Dialogue.done _ = Dialogue.done (_, caches.set m.handle none)
    rw [hset]
    rfl
  | ok rows =>
    unfold reported
    cases hrows : rows.mapM ColumnInfo.ofRow with
    | error e =>
      simp only [hrows]
      show Dialogue.done _ = Dialogue.done (_, caches.set m.handle none)
      rw [hset]
      rfl
    | ok columns =>
      simp only [hrows]
      cases columns with
      | nil =>
        show Dialogue.done _ = Dialogue.done (_, caches.set m.handle none)
        rw [hset]
        rfl
      | cons column rest => rfl

/-! ## What is sent -/

/-- What a migrator may send: the request for the columns of its table, and those that create it or
add a column to it. -/
def Own (m : Migrator) : Sent → Prop
  | .fetch request => request = columnsRequest m.handle m.table
  | .execute request =>
    (∃ fields, request = creationRequest m.handle m.table fields) ∨
      ∃ field, request = additionRequest m.handle m.table field

theorem Own.sender {m : Migrator} {sent : Sent} (h : m.Own sent) :
    sent.request.sender = some m.handle := by
  cases sent with
  | fetch request =>
    obtain rfl : request = columnsRequest m.handle m.table := h
    rfl
  | execute request => rcases h with ⟨_, rfl⟩ | ⟨_, rfl⟩ <;> rfl

theorem sends_alter {m : Migrator} {request : Request} (h : m.Own (.execute request)) :
    (alter request).Sends m.Own := by
  refine ⟨h, ?_⟩
  intro reply
  cases reply <;> trivial

theorem sends_addColumns (m : Migrator) (specs : List FieldSpec) :
    (addColumns m.handle m.table specs).Sends m.Own := by
  induction specs with
  | nil => trivial
  | cons field rest ih =>
    rw [addColumns, addColumn_eq]
    refine Dialogue.Sends.bind (sends_alter (.inr ⟨field, rfl⟩)) ?_
    intro failure
    refine Dialogue.Sends.bind ih ?_
    intro later
    trivial

theorem sends_migrate (m : Migrator) (seen : Sighting) (missing : FieldSet) :
    (m.migrate seen missing).Sends m.Own := by
  unfold migrate
  split
  · exact sends_addColumns m missing.specs
  · rw [createTable_eq]
    exact sends_alter (.inl ⟨missing, rfl⟩)

theorem sends_look (m : Migrator) : m.look.Sends m.Own := by
  intro caches
  cases hkept : caches m.handle with
  | some seen =>
    rw [run_look_of_some hkept]
    trivial
  | none =>
    rw [run_look_of_none hkept]
    exact ⟨rfl, fun _ => trivial⟩

theorem sends_current (m : Migrator) : m.current.Sends m.Own :=
  m.sends_look.bind fun _ _ => trivial

/-- A migrator sends statements in its own name and on its own table only. -/
theorem sends_ensure (m : Migrator) (required : FieldSet) : (m.ensure required).Sends m.Own := by
  refine Session.Sends.bind m.sends_look fun seen => ?_
  split
  · exact fun _ => trivial
  refine Session.Sends.bind (Session.Sends.ofDialogue (m.sends_migrate _ _)) fun failure => ?_
  refine Session.Sends.bind (fun _ => trivial) fun _ => ?_
  refine Session.Sends.bind m.sends_look fun seen => ?_
  split <;> exact fun _ => trivial

end Migrator

end RecordMapping

import RecordMapping.Proofs.Table.Related
import RecordMapping.Proofs.Table.Writing

/-!
# What becomes of failures

A query that the engine fails ends the operation that sent it, with an error that holds the
statement and the failure. A failure to change a table is passed over, but only if the table is then
reported to have what was required of it. Rows that are replied become one record each, or the
operation fails (`Operation.heeded_of_runs`).

That failures are heeded is a property of the events and the outcome, which goes from the parts of
a session to the whole (`Session.Heeds`).
-/

namespace RecordMapping

/-! ## Failures of the engine -/

/-- The failure of a request for the columns of a table. What is replied may also be unreadable. -/
def reportFailure? (table : String) : Except EngineError (List Row) → Option EngineError
  | .error e => some (e.within ("failed to read table info for " ++ table))
  | .ok rows =>
    match rows.mapM ColumnInfo.ofRow with
    | .error e => some (.root e.message)
    | .ok _ => none

/-- The failure that a query met with. -/
def Event.failure? : Event → Option EngineError
  | .fetched request reply =>
    match request.statement with
    | .tableInfo table => reportFailure? table reply
    | _ =>
      match reply with
      | .error e => some e
      | .ok _ => none
  | .executed _ _ => none

/-- The text that errors show for a request. The one for the columns of a table goes by a name. -/
def Request.shown (request : Request) : String :=
  match request.statement with
  | .tableInfo _ => "pragma_table_info"
  | _ => request.query.sql

/-- The error that an operation ends with when a request failed. -/
def Request.failed (request : Request) (cause : EngineError) : Error :=
  .statement request.shown request.query.params cause

/-- Columns are not reported only as the request for them failed. -/
theorem reported_of_failure {sender : Option Handle} {table : String}
    {reply : Except EngineError (List Row)} {cause : EngineError}
    (h : (Event.fetched (columnsRequest sender table) reply).failure? = some cause) :
    reported table reply = .error ((columnsRequest sender table).failed cause) := by
  have h : reportFailure? table reply = some cause := h
  unfold reportFailure? at h
  unfold reported
  cases reply with
  | error e =>
    cases h
    rfl
  | ok rows =>
    cases hrows : rows.mapM ColumnInfo.ofRow with
    | error e =>
      simp only [hrows] at h ⊢
      cases h
      rfl
    | ok columns =>
      simp only [hrows] at h
      cases h

/-- A statement that is not on a schema fails with the failure that is replied. -/
theorem failure?_of_not_schema {request : Request} (hrequest : request.statement.isSchema = false)
    {reply : Except EngineError (List Row)} {cause : EngineError}
    (h : (Event.fetched request reply).failure? = some cause) :
    reply = .error cause ∧
      request.failed cause = .statement request.query.sql request.query.params cause := by
  unfold Event.failure? at h
  unfold Request.failed Request.shown
  cases hstatement : request.statement with
  | tableInfo table =>
    rw [hstatement] at hrequest
    cases hrequest
  | select _ | insert _ | update _ | createTable _ _ | addColumn _ _ | custom _ _ =>
    simp only [hstatement] at h
    cases reply with
    | error e =>
      cases h
      exact ⟨rfl, rfl⟩
    | ok rows => cases h

/-! ## Failures that are heeded -/

/-- After some changes the table of a migrator is reported to have what is required, as the next
that is asked. -/
def Migrator.Confirmed (m : Migrator) (required : FieldSet) (after : List Event) : Prop :=
  ∃ changes reply fields rest,
    after = changes ++ .fetched (columnsRequest m.handle m.table) reply :: rest ∧
      (∀ c ∈ changes, ∃ request reply, c = .executed request reply) ∧
      reported m.table reply = .ok ⟨true, fields⟩ ∧ required.names ⊆ fields.names

/-- How failures among the events bear on the outcome. A query that failed is the last event, and
the outcome is its error. A change that failed does not keep an operation from succeeding if the
table has then what one of the given requirements asks of it. -/
structure Heeded (requires : Migrator → FieldSet → Prop) (events : List Event)
    (outcome : Except Error Unit) : Prop where
  queries : ∀ before e after cause, events = before ++ e :: after → e.failure? = some cause →
    after = [] ∧ outcome = .error (e.sent.request.failed cause)
  changes : outcome = .ok () → ∀ before request cause after,
    events = before ++ .executed request (.error cause) :: after →
      ∃ m required, requires m required ∧ m.Own (.execute request) ∧ m.Confirmed required after

/-- A place in a list of two parts is in one of them. -/
theorem append_eq_append_cons_iff {α : Type} {first second before after : List α} {a : α} :
    first ++ second = before ++ a :: after ↔
      (∃ mid, first = before ++ a :: mid ∧ after = mid ++ second) ∨
        ∃ mid, before = first ++ mid ∧ second = mid ++ a :: after := by
  constructor
  · intro h
    rcases List.append_eq_append_iff.1 h with ⟨mid, hbefore, hsecond⟩ | ⟨mid, hfirst, hafter⟩
    · exact .inr ⟨mid, hbefore, hsecond⟩
    · rcases List.cons_eq_append_iff.1 hafter with ⟨rfl, rfl⟩ | ⟨mid, rfl, rfl⟩
      · exact .inr ⟨[], by rw [hfirst, List.append_nil, List.append_nil], rfl⟩
      · exact .inl ⟨mid, hfirst, rfl⟩
  · rintro (⟨mid, rfl, rfl⟩ | ⟨mid, rfl, rfl⟩) <;> simp

namespace Heeded

variable {requires : Migrator → FieldSet → Prop} {first second : List Event}
  {outcome : Except Error Unit}

theorem nil : Heeded requires [] outcome where
  queries := by
    intro before e after cause h
    simp at h
  changes := by
    intro _ before request cause after h
    simp at h

/-- Nothing of a part that succeeds is left open for the rest. -/
theorem append (hfirst : Heeded requires first (.ok ())) (hsecond : Heeded requires second outcome) :
    Heeded requires (first ++ second) outcome where
  queries := by
    intro before e after cause h hcause
    rcases append_eq_append_cons_iff.1 h with ⟨mid, hbefore, _⟩ | ⟨mid, _, hafter⟩
    · -- a query that failed would have ended the first part with an error
      obtain ⟨_, hok⟩ := hfirst.queries before e mid cause hbefore hcause
      cases hok
    · exact hsecond.queries mid e after cause hafter hcause
  changes := by
    intro hok before request cause after h
    rcases append_eq_append_cons_iff.1 h with ⟨mid, hbefore, rfl⟩ | ⟨mid, _, hafter⟩
    · -- the report that confirms it came before the first part ended
      obtain ⟨m, required, hrequires, hown, changes, reply, fields, rest, rfl, hrest⟩ :=
        hfirst.changes rfl before request cause mid hbefore
      refine ⟨m, required, hrequires, hown, changes, reply, fields, rest ++ second, ?_, hrest⟩
      rw [List.append_assoc, List.cons_append]
    · exact hsecond.changes hok mid request cause after hafter

/-- Where only queries are sent, nothing is required of tables. -/
theorem of_fetched {requires' : Migrator → FieldSet → Prop} {events : List Event}
    (h : Heeded requires events outcome)
    (hevents : ∀ e ∈ events, ∃ request reply, e = .fetched request reply) :
    Heeded requires' events outcome where
  queries := h.queries
  changes := by
    intro _ before request cause after hsplit
    obtain ⟨_, _, hfetched⟩ := hevents (.executed request (.error cause)) (by rw [hsplit]; simp)
    cases hfetched

/-- One query is heeded if its failure is the outcome. -/
theorem fetched {request : Request} {reply : Except EngineError (List Row)}
    (h : ∀ cause, (Event.fetched request reply).failure? = some cause →
      outcome = .error (request.failed cause)) :
    Heeded requires [.fetched request reply] outcome where
  queries := by
    intro before e after cause hsplit hcause
    rcases List.singleton_eq_append_iff.1 hsplit with ⟨_, he⟩ | ⟨_, he⟩
    · cases he
      exact ⟨rfl, h cause hcause⟩
    · cases he
  changes := by
    intro _ before request' cause after hsplit
    rcases List.singleton_eq_append_iff.1 hsplit with ⟨_, he⟩ | ⟨_, he⟩
    · cases he
    · cases he

end Heeded

namespace Migrator

variable {m : Migrator} {required : FieldSet} {kept kept' : Option Sighting} {events : List Event}
  {requires : Migrator → FieldSet → Prop}

/-- Finding out the fields of a table heeds the failure of the one request. -/
theorem Inquiry.heeded {found : Except Error Sighting} (h : m.Inquiry kept events found) :
    Heeded requires events (found.map fun _ => ()) := by
  cases h with
  | kept => exact .nil
  | asked reply =>
    refine .fetched fun cause hcause => ?_
    rw [reported_of_failure hcause]
    rfl

theorem own_of_changeRequest {seen : Sighting} {request : Request}
    (h : request ∈ m.changeRequests required seen) : m.Own (.execute request) := by
  obtain ⟨_ | _, fields⟩ := seen
  · exact .inl ⟨_, List.mem_singleton.1 h⟩
  · obtain ⟨field, _, rfl⟩ := List.mem_map.1 h
    exact .inr ⟨field, rfl⟩

/-- Changes whose failures are passed over are followed by a report, which decides. -/
theorem heeded_changes (hrequires : requires m required) {seen : Sighting}
    {changes : List Change} (hchanges : changes.map Change.request = m.changeRequests required seen)
    (reply : Except EngineError (List Row)) :
    Heeded requires
      (changes.map Change.event ++ [.fetched (columnsRequest m.handle m.table) reply])
      (((reported m.table reply).bind
        (m.judgement required (changes.findSome? Change.failure?))).map fun _ => ()) where
  queries := by
    intro before e after cause hsplit hcause
    rcases append_eq_append_cons_iff.1 hsplit with ⟨mid, hbefore, _⟩ | ⟨mid, _, hafter⟩
    · -- a change is no query
      have hmem : e ∈ changes.map Change.event := by rw [hbefore]; simp
      obtain ⟨c, _, rfl⟩ := List.mem_map.1 hmem
      cases hcause
    · rcases List.singleton_eq_append_iff.1 hafter with ⟨_, he⟩ | ⟨_, he⟩
      · cases he
        rw [reported_of_failure hcause]
        exact ⟨rfl, rfl⟩
      · cases he
  changes := by
    intro hok before request cause after hsplit
    obtain ⟨_, houtcome, _⟩ := map_eq_ok.1 hok
    obtain ⟨_, hreport, hjudged⟩ := bind_eq_ok.1 houtcome
    obtain ⟨rfl, hprovided⟩ := judgement_eq_ok hjudged
    rcases append_eq_append_cons_iff.1 hsplit with ⟨mid, hbefore, rfl⟩ | ⟨mid, _, hafter⟩
    · -- the other changes that were sent stand between the one that failed and the report
      have hexecuted : ∀ e ∈ before ++ .executed request (.error cause) :: mid,
          ∃ c ∈ changes, e = c.event := by
        intro e he
        rw [← hbefore] at he
        obtain ⟨c, hc, rfl⟩ := List.mem_map.1 he
        exact ⟨c, hc, rfl⟩
      obtain ⟨c, hc, hevent⟩ := hexecuted (.executed request (.error cause)) (by simp)
      obtain ⟨rfl, _⟩ := Event.executed.inj hevent
      refine ⟨m, required, hrequires, ?_, mid, reply, _, [], rfl, ?_, hreport, hprovided⟩
      · exact own_of_changeRequest (hchanges ▸ List.mem_map_of_mem hc)
      · intro e he
        obtain ⟨c', _, rfl⟩ := hexecuted e (by simp [he])
        exact ⟨c'.request, c'.reply, rfl⟩
    · rcases List.singleton_eq_append_iff.1 hafter with ⟨_, he⟩ | ⟨_, he⟩
      · cases he
      · cases he

/-- Ensuring fields heeds all failures. -/
theorem Course.heeded {outcome : Except Error FieldSet}
    (h : m.Course required kept events outcome kept') (hrequires : requires m required) :
    Heeded requires events (outcome.map fun _ => ()) := by
  cases h with
  | unknown hinquiry => exact hinquiry.heeded
  | provided hinquiry _ => exact hinquiry.heeded
  | changed hinquiry _ changes hchanges reply =>
    rw [List.append_assoc]
    exact .append hinquiry.heeded (heeded_changes hrequires hchanges reply)

end Migrator

/-! ## Sessions that heed failures -/

namespace Session

variable {α β : Type} {requires : Migrator → FieldSet → Prop}

/-- A session heeds failures on all its runs. -/
def Heeds (requires : Migrator → FieldSet → Prop) (s : Session α) : Prop :=
  ∀ ⦃caches events outcome caches'⦄, s.Runs caches events outcome caches' →
    Heeded requires events (outcome.map fun _ => ())

/-- What the parts of a session heed, the session heeds. -/
theorem closed_heeds (requires : Migrator → FieldSet → Prop) :
    Closed fun s => Heeds requires s where
  ofExcept x := by
    intro caches events outcome caches' hruns
    obtain ⟨rfl, _, _⟩ := runs_ofExcept.1 hruns
    exact .nil
  bind hs hf := by
    intro caches events outcome caches' hruns
    rcases runs_bind.1 hruns with
      ⟨e, rfl, hfirst⟩ | ⟨first, a, between, second, rfl, hfirst, hsecond⟩
    · exact hs hfirst
    · exact .append (hs hfirst) (hf a ⟨_, _, _, hfirst⟩ hsecond)

/-- Asking for rows heeds the failure of the one statement. -/
theorem heeds_rows (sender : Handle) {statement : Statement}
    (hstatement : statement.isSchema = false) : Heeds requires (rows sender statement) := by
  intro caches events outcome caches' hruns
  obtain ⟨_, ⟨_, _, rfl, _⟩ | ⟨request, reply, _, hrequest, rfl, rfl⟩⟩ := runs_rows hruns
  · exact .nil
  · refine .fetched fun cause hcause => ?_
    rw [← hrequest] at hstatement
    obtain ⟨rfl, hfailed⟩ := failure?_of_not_schema hstatement hcause
    rw [hfailed]
    rfl

end Session

/-! ## Operations -/

theorem Migrator.heeds_current (m : Migrator) {requires : Migrator → FieldSet → Prop} :
    m.current.Heeds requires := by
  have hlook : m.look.Heeds requires := fun _ _ _ _ hruns => (runs_look.1 hruns).1.heeded
  exact (Session.closed_heeds requires).bind hlook fun _ _ => (Session.closed_heeds requires).pure _

theorem Migrator.heeds_ensure {m : Migrator} {required : FieldSet}
    {requires : Migrator → FieldSet → Prop} (h : requires m required) :
    (m.ensure required).Heeds requires := by
  intro caches events outcome caches' hruns
  obtain ⟨kept, _, hcourse⟩ := runs_ensure.1 hruns
  exact hcourse.heeded h

/-- Forgetting what was kept sends nothing. -/
theorem Migrator.heeds_forget (m : Migrator) {requires : Migrator → FieldSet → Prop} :
    m.forget.Heeds requires := by
  intro caches events outcome caches' hruns
  obtain ⟨rfl, _, _⟩ := Session.runs_setCache.1 hruns
  exact .nil

namespace Table

variable {t : Table} {requires : Migrator → FieldSet → Prop}

theorem heeds_ensure {required : FieldSet} (h : requires t.migrator required) :
    (t.ensure required).Heeds requires :=
  closed_ensure (Session.closed_heeds requires) (Migrator.heeds_ensure h)

theorem heeds_live (h : requires t.migrator t.declared) : t.live.Heeds requires :=
  closed_live (Session.closed_heeds requires) (heeds_ensure h) t.migrator.heeds_current

theorem heeds_find (h : requires t.migrator t.declared) (filter : Record) :
    (t.find filter).Heeds requires := by
  refine closed_find (Session.closed_heeds requires) (heeds_live h) ?_ filter
  exact fun _ => Session.heeds_rows t.handle rfl

/-- Planning ensures the columns of registered tables, and heeds what fails on the way. -/
theorem heeds_findRelated {registry : Registry} (h : requires t.migrator t.declared)
    (hregistry : ∀ target ∈ registry.tables, requires target.migrator target.declared)
    (filter : Record) : (t.findRelated registry filter).Heeds requires := by
  refine closed_findRelated (Session.closed_heeds requires) (heeds_live h) ?_ ?_ filter
  · exact fun _ => Session.heeds_rows t.handle rfl
  · exact fun target htarget => heeds_ensure (hregistry target htarget)

theorem heeds_runSql (h : requires t.migrator t.declared) (sql : String) (params : List Datum) :
    (t.runSql sql params).Heeds requires :=
  closed_runSql (Session.closed_heeds requires) (heeds_ensure h) (Session.heeds_rows t.handle rfl)

theorem heeds_findRow (h : requires t.migrator t.declared) (id : Int64) :
    (t.findRow id).Heeds requires := by
  refine closed_findRow (Session.closed_heeds requires) (heeds_live h) ?_ id
  exact fun _ => Session.heeds_rows t.handle rfl

theorem heeds_findById (h : requires t.migrator t.declared) (id : Value) :
    (t.findById id).Heeds requires :=
  closed_findById (Session.closed_heeds requires) (heeds_findRow h) id

theorem heeds_prepare {record : Record}
    (h : ∀ required, t.requiredFor record = .ok required → requires t.migrator required) :
    (t.prepare record).Heeds requires :=
  closed_prepare (Session.closed_heeds requires) fun required hrequired =>
    heeds_ensure (h required hrequired)

theorem heeds_insert {record : Record}
    (h : ∀ required, t.requiredFor record = .ok required → requires t.migrator required) :
    (t.insert record).Heeds requires := by
  refine closed_insert (Session.closed_heeds requires) ?_ ?_
  · exact fun required hrequired => heeds_ensure (h required hrequired)
  · exact fun _ => Session.heeds_rows t.handle rfl

/-- Where what is declared is kept, changing or reading a row heeds its one statement, and nothing is
required. -/
theorem heeded_of_runs_updateRow {caches caches' : Caches} {live : FieldSet}
    (hkept : caches t.handle = some ⟨true, live⟩) (hdeclared : t.declared.names ⊆ live.names)
    {id : Int64} {fields : FieldSet} {values : Named Param} {events : List Event}
    {outcome : Except Error (Option Record)}
    (h : (t.updateRow id fields values).Runs caches events outcome caches') :
    Heeded requires events (outcome.map fun _ => ()) := by
  unfold updateRow at h
  cases values with
  | nil =>
    -- reading a row by itself might require what is declared, but here it sends no change
    have hrow : Heeded (fun m required => m = t.migrator ∧ required = t.declared) events
        (outcome.map fun _ => ()) := heeds_findRow ⟨rfl, rfl⟩ id h
    obtain ⟨_, request, reply, _, rfl, _⟩ := runs_findRow_of_kept hkept hdeclared h
    refine hrow.of_fetched fun e he => ?_
    exact ⟨request, reply, List.mem_singleton.1 he⟩
  | cons v rest =>
    refine (Session.closed_heeds requires).bind ?_ (fun rows _ => ?_) h
    · exact Session.heeds_rows t.handle rfl
    · exact (Session.closed_heeds requires).ofExcept _

/-- An update ensures more than what is declared, so that nothing is left to be ensured for reading
the row. -/
theorem heeds_update {changes : Record}
    (h : ∀ required, t.requiredFor changes = .ok required → requires t.migrator required)
    (id : Value) : (t.update id changes).Heeds requires := by
  rcases hid : id.lookupId? with _ | n
  · rw [update_eq_pure hid]
    exact (Session.closed_heeds requires).pure none
  rw [update_eq hid]
  intro caches events outcome caches' hruns
  rcases Session.runs_bind.1 hruns with ⟨e, rfl, hprepare⟩ | ⟨first, p, _, rest, rfl, hprepare, hrest⟩
  · exact heeds_prepare h hprepare
  refine .append (heeds_prepare h hprepare) ?_
  obtain ⟨kept, rfl, hprepared⟩ := runs_prepare.1 hprepare
  obtain ⟨required, live, hrequired, hprovided, rfl, _, _⟩ := hprepared.of_ok
  have hdeclared := List.Subset.trans (mem_names_requiredFor hrequired).1 hprovided
  exact heeded_of_runs_updateRow (if_pos rfl) hdeclared hrest

end Table

/-- What an operation requires of the tables that it ensures. -/
def Operation.Requires : Operation → Migrator → FieldSet → Prop
  | .schema t, m, required | .find t _, m, required | .findById t _, m, required
  | .runSql t _ _, m, required => m = t.migrator ∧ required = t.declared
  | .insert t record, m, required | .update t _ record, m, required =>
    m = t.migrator ∧ t.requiredFor record = .ok required
  | .findRelated t registry _, m, required =>
    ∃ t' ∈ t :: registry.tables, m = t'.migrator ∧ required = t'.declared
  | .ensure m' required', m, required => m = m' ∧ required = required'
  | .forget _, _, _ | .current _, _, _ | .reset _, _, _ => False

/-- Every operation heeds the failures of the engine. -/
theorem Operation.heeds_session (operation : Operation) :
    operation.session.Heeds operation.Requires := by
  have hclosed := Session.closed_heeds operation.Requires
  cases operation with
  | schema t => exact hclosed.map (Table.heeds_ensure ⟨rfl, rfl⟩) _
  | insert t record => exact hclosed.map (Table.heeds_insert fun _ h => ⟨rfl, h⟩) _
  | find t filter => exact hclosed.map (Table.heeds_find ⟨rfl, rfl⟩ filter) _
  | findById t id => exact hclosed.map (Table.heeds_findById ⟨rfl, rfl⟩ id) _
  | update t id changes => exact hclosed.map (Table.heeds_update (fun _ h => ⟨rfl, h⟩) id) _
  | findRelated t registry filter =>
    refine hclosed.map (Table.heeds_findRelated ?_ ?_ filter) _
    · exact ⟨t, List.mem_cons_self, rfl, rfl⟩
    · exact fun target htarget => ⟨target, List.mem_cons_of_mem t htarget, rfl, rfl⟩
  | runSql t sql params => exact hclosed.map (Table.heeds_runSql ⟨rfl, rfl⟩ sql params) _
  | forget t => exact t.migrator.heeds_forget
  | ensure m required => exact hclosed.map (Migrator.heeds_ensure ⟨rfl, rfl⟩) _
  | current m => exact hclosed.map m.heeds_current _
  | reset registry => exact hclosed.forM fun t _ => t.migrator.heeds_forget

/-! ## One record for each row -/

/-- The rows that were replied are read as one record each, in order, and one that cannot be read
fails the operation. -/
structure OnePerRow (fields : FieldSet) (embedded : List Embedded) (rows : List Row)
    (outcome : Except Error (List Record)) : Prop where
  records : ∀ records, outcome = .ok records ↔
    List.Forall₂ (fun row record => decode fields embedded row = .ok record) rows records
  failure : ∀ e, outcome = .error e → ∃ row ∈ rows, decode fields embedded row = .error e

theorem onePerRow_mapM (fields : FieldSet) (embedded : List Embedded) (rows : List Row) :
    OnePerRow fields embedded rows (rows.mapM (decode fields embedded)) where
  records _ := mapM_eq_ok_iff
  failure _ := exists_of_mapM_eq_error

/-- A session lists rows, with the fields that it finds and with certain objects in the rows: what is
replied to its statement is read one by one. Otherwise there are no records, as no fields were
found. -/
structure Session.ListsRows (s : Session (List Record)) (lookup : Session (Option FieldSet))
    (embeds : FieldSet → List Embedded → Prop) : Prop where
  read : ∀ {caches events outcome caches' request rows}, s.Runs caches events outcome caches' →
    .fetched request (.ok rows) ∈ events → request.statement.isSchema = false →
      ∃ before after fields between embedded, events = before ++ after ∧
        lookup.Runs caches before (.ok (some fields)) between ∧ embeds fields embedded ∧
        OnePerRow fields embedded rows outcome
  given : ∀ {caches events records caches'}, s.Runs caches events (.ok records) caches' →
    (lookup.Runs caches events (.ok none) caches' ∧ records = []) ∨
      ∃ request rows, .fetched request (.ok rows) ∈ events ∧ request.statement.isSchema = false

namespace Table

variable {t : Table}

theorem listsRows_listing {lookup : Session (Option FieldSet)}
    {plan : FieldSet → Session (Statement × List Embedded)}
    {embeds : FieldSet → List Embedded → Prop} (hlookup : lookup.Sends Sent.IsSchema)
    (hplan : ∀ fields, (plan fields).Sends Sent.IsSchema)
    (hplanned : ∀ fields planned, (plan fields).Gives planned →
      planned.1.isSchema = false ∧ embeds fields planned.2) :
    (t.listing lookup plan).ListsRows lookup embeds where
  read := by
    intro caches events outcome caches' request rows hruns hrows hrequest
    obtain ⟨before, after, fields, between, second, planned, hevents, hfound, hmade, _, rfl⟩ :=
      (runs_listing hruns).of_rows hlookup hplan hrequest hrows
    obtain ⟨_, hembeds⟩ := hplanned fields planned ⟨_, _, _, hmade⟩
    exact ⟨before, after, fields, between, planned.2, hevents, hfound, hembeds,
      onePerRow_mapM _ _ _⟩
  given := by
    intro caches events records caches' hruns
    rcases (runs_listing hruns).of_ok with h | ⟨fields, planned, request, rows, hmade, hst, hrows⟩
    · exact .inl h
    · refine .inr ⟨request, rows, hrows, ?_⟩
      rw [hst]
      exact (hplanned fields planned hmade).1

theorem listsRows_find (filter : Record) :
    (t.find filter).ListsRows t.live fun _ embedded => embedded = [] := by
  rw [find]
  refine listsRows_listing t.sends_live (t.sends_findPlan filter) fun fields planned h => ?_
  obtain ⟨select, rfl⟩ := of_gives_findPlan h
  exact ⟨rfl, rfl⟩

theorem listsRows_findRelated (registry : Registry) (filter : Record) :
    (t.findRelated registry filter).ListsRows t.live fun fields embedded =>
      ∃ plan, (Plan.make registry t.name fields filter).Gives plan ∧
        embedded = plan.query.embedded := by
  rw [findRelated]
  refine listsRows_listing t.sends_live (t.sends_relatedPlan registry filter) ?_
  intro fields planned h
  obtain ⟨plan, hmake, rfl⟩ := of_gives_relatedPlan h
  exact ⟨rfl, plan, hmake, rfl⟩

theorem listsRows_runSql (sql : String) (params : List Datum) :
    (t.runSql sql params).ListsRows (some <$> t.schema) fun _ embedded => embedded = [] := by
  have hclosed := Session.closed_sends Sent.IsSchema
  rw [runSql]
  refine listsRows_listing (hclosed.map (t.sends_ensure _) _) (fun _ => hclosed.pure _) ?_
  intro fields planned h
  cases Session.gives_pure.1 h
  exact ⟨rfl, rfl⟩

end Table

/-- No failure of the engine is swallowed. A query that fails is the last statement that an operation
sends, and the operation fails with it. A change that fails is passed over only if the table is then
reported to have all that the operation requires of it. And a list that is given has one record for
each row, or the operation fails with one that cannot be read. -/
theorem Operation.heeded_of_runs :
    (∀ (operation : Operation) caches events outcome caches',
      operation.session.Runs caches events outcome caches' →
        Heeded operation.Requires events outcome) ∧
    ∀ t : Table,
      (∀ filter, (t.find filter).ListsRows t.live fun _ embedded => embedded = []) ∧
      (∀ registry filter,
        (t.findRelated registry filter).ListsRows t.live fun fields embedded =>
          ∃ plan, (Plan.make registry t.name fields filter).Gives plan ∧
            embedded = plan.query.embedded) ∧
      ∀ sql params,
        (t.runSql sql params).ListsRows (some <$> t.schema) fun _ embedded => embedded = [] := by
  constructor
  · intro operation caches events outcome caches' hruns
    have hheeded := operation.heeds_session hruns
    rcases outcome with e | ⟨⟩ <;> exact hheeded
  · intro t
    exact ⟨Table.listsRows_find, Table.listsRows_findRelated, Table.listsRows_runSql⟩

namespace Table

/-- What the engine replies where others are first to add the column of the edges and to create the
table of people, so that both changes fail, and then there are two edges. -/
def beatenReplies : List Reply :=
  [.rows [ColumnInfo.row ⟨idName, "INTEGER", true⟩], .failure (.root "duplicate column name"),
    .rows ((edgeColumns []).map ColumnInfo.row), .rows [], .failure (.root "table already exists"),
    .rows (personColumns.map ColumnInfo.row), .rows [edgeRow [], edgeRow []]]

/-- Finding the edges, each with its person. -/
def edgesWithPersons : Operation := .findRelated edges ⟨[persons]⟩ [("one", .null)]

/-- What is sent for it, with the replies. -/
def beatenEvents : List Event :=
  Dialogue.events (edgesWithPersons.session.run fun _ => none) beatenReplies

/-- Whether an event is a change that failed. -/
def isFailedChange : Event → Bool
  | .executed _ (.error _) => true
  | _ => false

theorem heeded_of_runs_beaten :
    Heeded edgesWithPersons.Requires beatenEvents (.ok ()) ∧
      ∃ before request cause after m required,
        beatenEvents = before ++ .executed request (.error cause) :: after ∧
          edgesWithPersons.Requires m required ∧ m.Own (.execute request) ∧
          m.Confirmed required after := by
  have hruns := Session.runs_play edgesWithPersons.session (fun _ => none) beatenReplies
  have hheeded := Operation.heeded_of_runs.1 _ _ _ _ _ hruns
  have hok : (edgesWithPersons.session.play (fun _ => none) beatenReplies).result.1.toOption.isSome
      = true := by decide +kernel
  rcases hresult : (edgesWithPersons.session.play (fun _ => none) beatenReplies).result.1 with
    e | ⟨⟩
  · rw [hresult] at hok
    cases hok
  rw [hresult] at hheeded
  have hfailed : beatenEvents.any isFailedChange = true := by decide +kernel
  obtain ⟨event, hmem, hevent⟩ := List.any_eq_true.1 hfailed
  obtain ⟨before, after, hsplit⟩ := List.append_of_mem hmem
  unfold isFailedChange at hevent
  split at hevent
  · next request cause =>
    obtain ⟨m, required, hconfirmed⟩ := hheeded.changes rfl _ _ _ _ hsplit
    exact ⟨hheeded, before, request, cause, after, m, required, hsplit, hconfirmed⟩
  · cases hevent

end Table

end RecordMapping

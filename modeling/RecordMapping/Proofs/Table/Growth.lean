import RecordMapping.Proofs.Query.Depth
import RecordMapping.Proofs.Table.Failures

/-!
# What makes tables grow

Tables are created and given columns by every operation that ensures fields. Reading ensures what is
declared and nothing else: not for its own table, and not for the tables that a filter leads to
(`Plan.Reaches`). Writing ensures in addition what the other values of the record call for. So all
that is added to a table is named by `Operation.Supplies` (`Operation.grows_of_runs`), and reading
through a handle without declared fields changes nothing.
-/

namespace RecordMapping

/-- The table that a statement creates or gives columns, with the fields that they are for. -/
def Statement.growth? : Statement → Option (String × List FieldSpec)
  | .createTable table fields => some (table, fields.specs)
  | .addColumn table field => some (table, [field])
  | _ => none

theorem Statement.growth?_of_not_schema {statement : Statement} (h : statement.isSchema = false) :
    statement.growth? = none := by
  cases statement with
  | createTable _ _ | addColumn _ _ => cases h
  | tableInfo _ | select _ | insert _ | update _ | custom _ _ => rfl

/-- A statement makes a table grow only as its own sender's, and as the sender may. Its text creates
the table with columns for the fields, or adds the column of the one field. -/
def Event.Grows (supplies : Migrator → List FieldSpec → Prop) (e : Event) : Prop :=
  ∀ table specs, e.sent.request.statement.growth? = some (table, specs) →
    ∃ m : Migrator, e.sent.request.sender = some m.handle ∧ table = m.table ∧ supplies m specs ∧
      (e.sent.request.query = ⟨creationText table specs, []⟩ ∨
        ∃ f, specs = [f] ∧ e.sent.request.query = ⟨additionText table f, []⟩)

theorem Event.grows_of_none {supplies : Migrator → List FieldSpec → Prop} {e : Event}
    (h : e.sent.request.statement.growth? = none) : e.Grows supplies := by
  intro table specs hgrowth
  rw [h] at hgrowth
  cases hgrowth

namespace Session

variable {α : Type}

/-- All events of a session are of a certain kind, whatever is kept. -/
def Only (allowed : Event → Prop) (s : Session α) : Prop :=
  ∀ ⦃caches events outcome caches'⦄, s.Runs caches events outcome caches' → ∀ e ∈ events, allowed e

theorem closed_only (allowed : Event → Prop) : Closed fun s => Only allowed s where
  ofExcept x := by
    intro caches events outcome caches' hruns e he
    obtain ⟨rfl, _, _⟩ := runs_ofExcept.1 hruns
    cases he
  bind hs hf := by
    intro caches events outcome caches' hruns e he
    rcases runs_bind.1 hruns with ⟨_, _, hfirst⟩ | ⟨first, a, _, second, rfl, hfirst, hsecond⟩
    · exact hs hfirst e he
    · rcases List.mem_append.1 he with he | he
      · exact hs hfirst e he
      · exact hf a ⟨_, _, _, hfirst⟩ hsecond e he

theorem only_rows {allowed : Event → Prop} {sender : Handle} {statement : Statement}
    (h : ∀ request reply, request.statement = statement → allowed (.fetched request reply)) :
    (rows sender statement).Only allowed := by
  intro caches events outcome caches' hruns e he
  obtain ⟨_, ⟨_, _, rfl, _⟩ | ⟨request, reply, _, hstatement, rfl, _⟩⟩ := runs_rows hruns
  · cases he
  · obtain rfl := List.mem_singleton.1 he
    exact h request reply hstatement

/-- A statement of another kind makes no table grow. -/
theorem grows_rows {supplies : Migrator → List FieldSpec → Prop} {sender : Handle}
    {statement : Statement} (h : statement.growth? = none) :
    (rows sender statement).Only (Event.Grows supplies) := by
  refine only_rows fun request reply hstatement => Event.grows_of_none ?_
  show request.statement.growth? = none
  rw [hstatement, h]

end Session

/-! ## Ensuring -/

variable {supplies : Migrator → List FieldSpec → Prop}

namespace Migrator

variable {m : Migrator} {required : FieldSet}

/-- A change to a table gives it columns of required fields. -/
theorem growth_of_changeRequest {seen : Sighting} {request : Request}
    (h : request ∈ m.changeRequests required seen) :
    request.sender = some m.handle ∧
      ∃ specs, request.statement.growth? = some (m.table, specs) ∧ specs ⊆ required.specs ∧
        (request.query = ⟨creationText m.table specs, []⟩ ∨
          ∃ f, specs = [f] ∧ request.query = ⟨additionText m.table f, []⟩) := by
  obtain ⟨_ | _, fields⟩ := seen
  · obtain rfl := List.mem_singleton.1 h
    refine ⟨rfl, _, rfl, ?_, .inl rfl⟩
    rw [FieldSet.specs_missing]
    exact List.filter_subset_self _
  · obtain ⟨f, hf, rfl⟩ := List.mem_map.1 h
    refine ⟨rfl, [f], rfl, ?_, .inr ⟨f, rfl, rfl⟩⟩
    intro g hg
    obtain rfl := List.mem_singleton.1 hg
    exact (List.mem_filter.1 hf).1

theorem Inquiry.growth {kept : Option Sighting} {events : List Event}
    {found : Except Error Sighting} (h : m.Inquiry kept events found) :
    ∀ e ∈ events, e.sent.request.statement.growth? = none := by
  intro e he
  cases h with
  | kept => cases he
  | asked =>
    obtain rfl := List.mem_singleton.1 he
    rfl

/-- Ensuring fields adds columns of these fields only. -/
theorem Course.grows (hsupplies : ∀ specs, specs ⊆ required.specs → supplies m specs)
    {kept kept' : Option Sighting} {events : List Event} {outcome : Except Error FieldSet}
    (h : m.Course required kept events outcome kept') : ∀ e ∈ events, e.Grows supplies := by
  intro e he
  cases h with
  | unknown hinquiry | provided hinquiry => exact Event.grows_of_none (hinquiry.growth e he)
  | changed hinquiry _ changes hchanges reply =>
    rcases List.mem_append.1 he with he | he
    · rcases List.mem_append.1 he with he | he
      · exact Event.grows_of_none (hinquiry.growth e he)
      · -- a change is one of those that the table needs
        obtain ⟨c, hc, rfl⟩ := List.mem_map.1 he
        obtain ⟨hsender, specs, hgrowth, hrequired, htext⟩ :=
          growth_of_changeRequest (hchanges ▸ List.mem_map_of_mem hc)
        intro table specs' hgrowth'
        have hgrowth' : c.request.statement.growth? = some (table, specs') := hgrowth'
        rw [hgrowth] at hgrowth'
        cases hgrowth'
        exact ⟨m, hsender, rfl, hsupplies specs hrequired, htext⟩
    · obtain rfl := List.mem_singleton.1 he
      exact Event.grows_of_none rfl

theorem grows_ensure (hsupplies : ∀ specs, specs ⊆ required.specs → supplies m specs) :
    (m.ensure required).Only (Event.Grows supplies) := by
  intro caches events outcome caches' hruns
  obtain ⟨_, _, hcourse⟩ := runs_ensure.1 hruns
  exact hcourse.grows hsupplies

theorem grows_current : m.current.Only (Event.Grows supplies) := by
  intro caches events outcome caches' hruns e he
  obtain ⟨_, hinquiry, _, _⟩ := runs_current.1 hruns
  exact Event.grows_of_none (hinquiry.growth e he)

theorem grows_forget : m.forget.Only (Event.Grows supplies) := by
  intro caches events outcome caches' hruns e he
  obtain ⟨rfl, _, _⟩ := Session.runs_setCache.1 hruns
  cases he

end Migrator

namespace Table

variable {t : Table}

theorem grows_ensure {required : FieldSet}
    (hsupplies : ∀ specs, specs ⊆ required.specs → supplies t.migrator specs) :
    (t.ensure required).Only (Event.Grows supplies) :=
  closed_ensure (Session.closed_only _) (Migrator.grows_ensure hsupplies)

/-- Looking for fields adds columns only where fields are declared. -/
theorem grows_live (hsupplies : t.declared.isEmpty = false →
      ∀ specs, specs ⊆ t.declared.specs → supplies t.migrator specs) :
    t.live.Only (Event.Grows supplies) := by
  intro caches events outcome caches' hruns e he
  rcases runs_live hruns with ⟨_, _, hinquiry, _, _⟩ | ⟨hdeclared, _, _, hcourse, _, _⟩
  · exact Event.grows_of_none (hinquiry.growth e he)
  · exact hcourse.grows (hsupplies hdeclared) e he

theorem grows_find (hsupplies : t.declared.isEmpty = false →
      ∀ specs, specs ⊆ t.declared.specs → supplies t.migrator specs) (filter : Record) :
    (t.find filter).Only (Event.Grows supplies) :=
  closed_find (Session.closed_only _) (grows_live hsupplies) (fun _ => Session.grows_rows rfl) filter

theorem grows_findRow (hsupplies : t.declared.isEmpty = false →
      ∀ specs, specs ⊆ t.declared.specs → supplies t.migrator specs) (id : Int64) :
    (t.findRow id).Only (Event.Grows supplies) :=
  closed_findRow (Session.closed_only _) (grows_live hsupplies) (fun _ => Session.grows_rows rfl) id

theorem grows_runSql (hsupplies : ∀ specs, specs ⊆ t.declared.specs → supplies t.migrator specs)
    (sql : String) (params : List Datum) : (t.runSql sql params).Only (Event.Grows supplies) :=
  closed_runSql (Session.closed_only _) (grows_ensure hsupplies) (Session.grows_rows rfl)

end Table

/-! ## What a record calls for -/

/-- A field is deduced from a record: it is optional, and has the name of one of its keys, which is
not the identifier, and the type of the value, which is not null. -/
def FieldSpec.DeducedFrom (record : Record) (f : FieldSpec) : Prop :=
  ∃ value type, (f.name, value) ∈ record ∧ f.name ≠ idName ∧ value ≠ .null ∧
    FieldType.ofValue? value = some type ∧ f = { name := f.name, type, required := false }

/-- What a record requires is declared, or deduced from a key that is not declared. -/
theorem Table.declared_or_deduced {t : Table} {record : Record} {required : FieldSet}
    (h : t.requiredFor record = .ok required) {f : FieldSpec} (hf : f ∈ required.specs) :
    f ∈ t.declared.specs ∨ f.name ∉ t.declared.names ∧ f.DeducedFrom record := by
  obtain ⟨deduced, hdeduced, rfl⟩ := map_eq_ok.1 h
  rcases FieldSet.mem_overlay.1 hf with ⟨d, hd, rfl⟩ | ⟨hf, _⟩
  case inr => exact .inl hf
  rw [FieldSet.eq_ofList_of_deduce hdeduced] at hd
  obtain ⟨⟨name, value⟩, hentry, hcalled⟩ :=
    List.mem_filterMap.1 (FieldSet.mem_of_mem_ofList hd)
  obtain ⟨hmem, hdeclared⟩ := List.mem_filter.1 hentry
  have hname : name ∉ t.declared.names := by
    rw [← FieldSet.contains_iff]
    simpa using hdeclared
  obtain ⟨hid, type, htype, rfl⟩ := FieldSet.calledFor?_eq_some_iff.1 hcalled
  -- the name is not declared, so that no physical name is inherited
  have hphysical : t.declared.inheritPhysical { name, type, required := false }
      = { name, type, required := false } := by
    rw [FieldSet.inheritPhysical, FieldSet.get?_eq_none_iff.2 hname]
    rfl
  rw [hphysical]
  refine .inr ⟨hname, value, type, hmem, hid, ?_, htype, rfl⟩
  rintro rfl
  cases htype

namespace Table

variable {t : Table} {record : Record}

/-- Writing a record adds columns of fields that are declared or deduced from it. -/
theorem grows_ensure_required (hsupplies : ∀ specs : List FieldSpec,
      (∀ f ∈ specs, f ∈ t.declared.specs ∨ f.name ∉ t.declared.names ∧ f.DeducedFrom record) →
        supplies t.migrator specs) (required : FieldSet)
    (hrequired : t.requiredFor record = .ok required) :
    (t.ensure required).Only (Event.Grows supplies) := by
  refine grows_ensure fun specs hspecs => hsupplies specs fun f hf => ?_
  exact declared_or_deduced hrequired (hspecs hf)

theorem grows_insert (hsupplies : ∀ specs : List FieldSpec,
      (∀ f ∈ specs, f ∈ t.declared.specs ∨ f.name ∉ t.declared.names ∧ f.DeducedFrom record) →
        supplies t.migrator specs) : (t.insert record).Only (Event.Grows supplies) :=
  closed_insert (Session.closed_only _) (grows_ensure_required hsupplies)
    fun _ => Session.grows_rows rfl

theorem grows_update (hsupplies : ∀ specs : List FieldSpec,
      (∀ f ∈ specs, f ∈ t.declared.specs ∨ f.name ∉ t.declared.names ∧ f.DeducedFrom record) →
        supplies t.migrator specs) (id : Value) :
    (t.update id record).Only (Event.Grows supplies) := by
  refine closed_update (Session.closed_only _) (grows_ensure_required hsupplies) (fun n => ?_)
    (fun _ => Session.grows_rows rfl) id
  exact grows_findRow (fun _ specs hspecs => hsupplies specs fun f hf => .inl (hspecs hf)) n

end Table

/-! ## Tables that a filter leads to -/

/-- The declared references that a filter names lead from certain fields to a table, with what is
asked of its records there. -/
inductive Plan.Reaches (registry : Registry) (fields : FieldSet) (filter : Record) :
    Table → Record → Prop where
  | direct {field : FieldSpec} {value : Value} {target : Table}
      (hkey : (field, value) ∈ Clause.references fields filter)
      (htarget : registry.target? field = some target) :
      Reaches registry fields filter target value.nested
  | further {between : Table} {nested : Record} {field : FieldSpec} {value : Value} {target : Table}
      (hbetween : Reaches registry fields filter between nested)
      (hkey : (field, value) ∈ Clause.references between.declared nested)
      (htarget : registry.target? field = some target) :
      Reaches registry fields filter target value.nested

/-- A table is reached with the references of a filter, however this is written. -/
def Plan.ReachesLike (registry : Registry) (fields : FieldSet) (filter : Record) (target : Table)
    (nested : Record) : Prop :=
  ∃ nested', Reaches registry fields filter target nested' ∧
    ∀ fields, Clause.references fields nested = Clause.references fields nested'

theorem Plan.leadsOn_reachesLike (registry : Registry) (fields : FieldSet) (filter : Record) :
    LeadsOn registry (ReachesLike registry fields filter) := by
  rintro t nested field value target nested' ⟨_, hreaches, hlike⟩ hkey htarget hlike'
  rw [hlike] at hkey
  exact ⟨value.nested, hreaches.further hkey htarget, hlike'⟩

namespace Table

variable {t : Table} {history : List Event}

/-- Looking for fields gives those of reported columns, with what is declared laid over them. -/
theorem meets_live {allowed : Event → Prop} (hallowed : t.live.Only allowed) :
    t.live.Meets (FreshSince history allowed)
      (fun found past caches => FreshSince history allowed past caches ∧ ∀ fields, found = some fields →
        ∃ columns, fields = (fieldsOfColumns columns).overlay t.declared)
      (fun _ => FreshSince history allowed) := by
  have hkeeps : t.live.Keeps (FreshSince history allowed) :=
    Session.keeps_freshSince t.keeps_live fun hruns => hallowed hruns
  constructor
  case given =>
    intro past caches events found caches' hpre hruns
    have hafter := hkeeps hpre hruns
    refine ⟨hafter, ?_⟩
    rintro fields rfl
    obtain ⟨live, hkept, rfl⟩ := kept_of_runs_live hruns
    obtain ⟨columns, _, rfl⟩ := hafter.1.lastReport hkept
    exact ⟨columns, rfl⟩
  case failed =>
    intro past caches events e caches' hpre hruns
    exact hkeeps hpre hruns

/-- Planning adds columns of what is declared for the tables that the filter leads to. -/
theorem keeps_growth_relatedPlan {registry : Registry} {filter : Record}
    (hjoined : ∀ target nested, Plan.Reaches registry t.declared filter target nested →
      ∀ specs, specs ⊆ target.declared.specs → supplies target.migrator specs)
    (columns : List ColumnInfo) :
    (t.relatedPlan registry filter ((fieldsOfColumns columns).overlay t.declared)).Keeps
      (FreshSince history (Event.Grows supplies)) := by
  have hmake : (Plan.make registry t.name ((fieldsOfColumns columns).overlay t.declared) filter).Keeps
      (FreshSince history (Event.Grows supplies)) := by
    refine ((Plan.meets_make (Plan.leadsOn_reachesLike registry t.declared filter) ?_ t.name ?_).mono
      (fun _ _ h => h) (fun _ _ _ h => h.1) fun _ _ _ h => h.1).keeps
    · rintro target nested ⟨nested', hreaches, _⟩ caches events outcome caches' hruns
      exact grows_ensure (hjoined target nested' hreaches) hruns
    · -- only what is declared for the table leads to another one
      intro field value target nested hkey htarget hlike
      obtain ⟨d, hd, hdtarget⟩ := Clause.exists_declared_reference hkey htarget
      exact ⟨value.nested, .direct hd hdtarget, hlike⟩
  have hclosed := Session.closed_keeps (FreshSince history (Event.Grows supplies))
  refine hclosed.bind (hclosed.bind hmake fun plan _ => ?_) fun relational _ => ?_
  · exact hclosed.pure plan.query
  · exact hclosed.pure (Statement.select relational.select, relational.embedded)

/-- Finding records with those that they refer to adds columns of declared fields, to the table
itself and to those that the filter leads to. -/
theorem keeps_growth_findRelated {registry : Registry} {filter : Record}
    (hown : t.declared.isEmpty = false →
      ∀ specs, specs ⊆ t.declared.specs → supplies t.migrator specs)
    (hjoined : ∀ target nested, Plan.Reaches registry t.declared filter target nested →
      ∀ specs, specs ⊆ target.declared.specs → supplies target.migrator specs) :
    (t.findRelated registry filter).Keeps (FreshSince history (Event.Grows supplies)) := by
  rw [findRelated]
  refine Session.Meets.keeps (.bind (meets_live (grows_live hown)) fun found _ => ?_)
  refine .of_entails (fun past caches h => h.2) fun hfields => ?_
  cases found with
  | none => exact .pure fun past caches h => h.1
  | some fields =>
    obtain ⟨columns, rfl⟩ := hfields fields rfl
    refine .bind ((keeps_growth_relatedPlan hjoined columns).meets.mono (fun _ _ h => h.1)
      (fun _ _ _ h => h) fun _ _ _ h => h) fun planned hplanned => ?_
    obtain ⟨plan, _, rfl⟩ := of_gives_relatedPlan hplanned
    refine Session.Keeps.meets (Session.keeps_freshSince ?_ fun hruns => ?_)
    · refine (Session.closed_keeps Fresh).bind (Session.keeps_rows t.handle rfl) fun rows _ => ?_
      exact (Session.closed_keeps Fresh).ofExcept _
    · have hrows : (Session.rows t.handle (.select plan.select)).Only (Event.Grows supplies) :=
        Session.grows_rows rfl
      have honly := (Session.closed_only (Event.Grows supplies)).bind hrows
        fun rows _ => (Session.closed_only _).ofExcept
          (rows.mapM (decode ((fieldsOfColumns columns).overlay t.declared) plan.query.embedded))
      exact honly hruns

end Table

/-- The tables that an operation may create or give columns, each with the fields that these are
for. -/
def Operation.Supplies : Operation → Migrator → List FieldSpec → Prop
  | .schema t, m, specs | .runSql t _ _, m, specs =>
    m = t.migrator ∧ specs ⊆ t.declared.specs
  | .find t _, m, specs | .findById t _, m, specs =>
    t.declared.isEmpty = false ∧ m = t.migrator ∧ specs ⊆ t.declared.specs
  | .insert t record, m, specs | .update t _ record, m, specs =>
    m = t.migrator ∧ ∀ f ∈ specs, f ∈ t.declared.specs ∨
      f.name ∉ t.declared.names ∧ f.DeducedFrom record
  | .findRelated t registry filter, m, specs =>
    (t.declared.isEmpty = false ∧ m = t.migrator ∧ specs ⊆ t.declared.specs) ∨
      ∃ target nested, Plan.Reaches registry t.declared filter target nested ∧
        m = target.migrator ∧ specs ⊆ target.declared.specs
  | .ensure m' required, m, specs => m = m' ∧ specs ⊆ required.specs
  | .forget _, _, _ | .current _, _, _ | .reset _, _, _ => False

/-- Where what is kept is fresh, an operation adds to tables only what it may. -/
theorem Operation.grows_session {history : List Event} {caches : Caches}
    (hfresh : Fresh history caches) (operation : Operation) {events : List Event}
    {outcome : Except Error Unit} {caches' : Caches}
    (hruns : operation.session.Runs caches events outcome caches') :
    ∀ e ∈ events, e.Grows operation.Supplies := by
  have hclosed := Session.closed_only (Event.Grows operation.Supplies)
  cases operation with
  | schema t =>
    exact hclosed.map (Table.grows_ensure fun specs h => ⟨rfl, h⟩) (fun _ => ()) hruns
  | insert t record =>
    exact hclosed.map (Table.grows_insert fun specs h => ⟨rfl, h⟩) (fun _ => ()) hruns
  | find t filter =>
    exact hclosed.map (Table.grows_find (fun hdeclared specs h => ⟨hdeclared, rfl, h⟩) filter)
      (fun _ => ()) hruns
  | findById t id =>
    refine hclosed.map (Table.closed_findById hclosed (fun n => ?_) id) (fun _ => ()) hruns
    exact Table.grows_findRow (fun hdeclared specs h => ⟨hdeclared, rfl, h⟩) n
  | update t id changes =>
    exact hclosed.map (Table.grows_update (fun specs h => ⟨rfl, h⟩) id) (fun _ => ()) hruns
  | findRelated t registry filter =>
    -- which tables are reached depends on what is found, and only what is fresh can be told
    have hkeeps : (t.findRelated registry filter).Keeps
        (FreshSince history (Event.Grows (Operation.findRelated t registry filter).Supplies)) :=
      Table.keeps_growth_findRelated (fun hdeclared specs h => .inl ⟨hdeclared, rfl, h⟩)
        fun target nested hreaches specs h => .inr ⟨target, nested, hreaches, rfl, h⟩
    have hstart : FreshSince history (Event.Grows (Operation.findRelated t registry filter).Supplies)
        [] caches := ⟨by rwa [List.append_nil], List.forall_mem_nil _⟩
    obtain ⟨_, _, hresult⟩ := Session.runs_discard.1 hruns
    exact (hkeeps hstart hresult).2
  | runSql t sql params =>
    exact hclosed.map (Table.grows_runSql (fun specs h => ⟨rfl, h⟩) sql params) (fun _ => ()) hruns
  | forget t => exact Migrator.grows_forget hruns
  | ensure m required =>
    exact hclosed.map (Migrator.grows_ensure fun specs h => ⟨rfl, h⟩) (fun _ => ()) hruns
  | current m => exact hclosed.map Migrator.grows_current (fun _ => ()) hruns
  | reset registry => exact hclosed.forM (fun t _ => Migrator.grows_forget) hruns

/-! ## Reading without declared fields -/

/-- A session on a table changes no table. Where its own is reported not to exist, it sends nothing
more and gives what stands for that. -/
structure Session.ReadsOnly {α : Type} (s : Session α) (t : Table) (absent : α) : Prop where
  unchanged : ∀ {caches events outcome caches'}, s.Runs caches events outcome caches' →
    ∀ e ∈ events, e.sent.request.statement.growth? = none
  absent : ∀ {caches events outcome caches' reply}, s.Runs caches events outcome caches' →
    .fetched (columnsRequest t.handle t.name) reply ∈ events → reported t.name reply = .ok .absent →
      events = [.fetched (columnsRequest t.handle t.name) reply] ∧ outcome = .ok absent

namespace Table

variable {t : Table}

/-- Looking for fields without declared ones, and then asking for rows with what was found. -/
theorem readsOnly_live_bind {α : Type} {absent : α} (hdeclared : t.declared.isEmpty = true)
    {f : Option FieldSet → Session α} (hnone : f none = pure absent)
    (hsome : ∀ fields, (f (some fields)).Only fun e => e.sent.request.statement.isSchema = false) :
    (t.live >>= f).ReadsOnly t absent := by
  have hlive : ∀ {caches events outcome caches'}, t.live.Runs caches events outcome caches' →
      ∃ found, t.migrator.Inquiry (caches t.handle) events found ∧
        outcome = found.map fun seen => seen.fields?.map (·.overlay t.declared) := by
    intro caches events outcome caches' hruns
    rcases runs_live hruns with ⟨_, found, hinquiry, _, houtcome⟩ | ⟨hnot, _⟩
    · exact ⟨found, hinquiry, houtcome⟩
    · rw [hdeclared] at hnot
      cases hnot
  constructor
  case unchanged =>
    intro caches events outcome caches' hruns e he
    rcases Session.runs_bind.1 hruns with ⟨_, _, hfound⟩ | ⟨first, found, _, rest, rfl, hfound, hrest⟩
    · obtain ⟨_, hinquiry, _⟩ := hlive hfound
      exact hinquiry.growth e he
    obtain ⟨_, hinquiry, _⟩ := hlive hfound
    rcases List.mem_append.1 he with he | he
    · exact hinquiry.growth e he
    cases found with
    | none =>
      rw [hnone] at hrest
      obtain ⟨rfl, _, _⟩ := Session.runs_pure.1 hrest
      cases he
    | some fields => exact Statement.growth?_of_not_schema (hsome fields hrest e he)
  case absent =>
    intro caches events outcome caches' reply hruns he hreply
    -- the reply belongs to the inquiry, which finds nothing with it
    have hasked : ∀ {kept events found}, t.migrator.Inquiry kept events found →
        .fetched (columnsRequest t.handle t.name) reply ∈ events →
          events = [.fetched (columnsRequest t.handle t.name) reply] ∧ found = .ok .absent := by
      intro kept events found hinquiry he
      cases hinquiry with
      | kept => cases he
      | asked reply' =>
        cases List.mem_singleton.1 he
        exact ⟨rfl, hreply⟩
    rcases Session.runs_bind.1 hruns with
      ⟨e, _, hfound⟩ | ⟨first, found, _, rest, rfl, hfound, hrest⟩
    · obtain ⟨found, hinquiry, houtcome⟩ := hlive hfound
      obtain ⟨_, rfl⟩ := hasked hinquiry he
      cases houtcome
    obtain ⟨found', hinquiry, houtcome⟩ := hlive hfound
    cases found with
    | none =>
      rw [hnone] at hrest
      obtain ⟨rfl, rfl, _⟩ := Session.runs_pure.1 hrest
      rw [List.append_nil] at he ⊢
      exact ⟨(hasked hinquiry he).1, rfl⟩
    | some fields =>
      rcases List.mem_append.1 he with he | he
      · obtain ⟨_, rfl⟩ := hasked hinquiry he
        cases houtcome
      · cases hsome fields hrest _ he

theorem only_rows_of_not_schema {α : Type} {statement : Statement}
    (hstatement : statement.isSchema = false) (read : List Row → Except Error α) :
    (Session.rows t.handle statement >>= fun rows => Session.ofExcept (read rows)).Only
      fun e => e.sent.request.statement.isSchema = false := by
  refine (Session.closed_only _).bind (Session.only_rows ?_) fun rows _ =>
    (Session.closed_only _).ofExcept _
  intro request reply hrequest
  show request.statement.isSchema = false
  rw [hrequest, hstatement]

theorem readsOnly_find (hdeclared : t.declared.isEmpty = true) (filter : Record) :
    (t.find filter).ReadsOnly t [] := by
  have hclosed := Session.closed_only fun e => e.sent.request.statement.isSchema = false
  refine readsOnly_live_bind hdeclared rfl fun fields => ?_
  refine hclosed.bind (closed_findPlan hclosed filter fields) fun planned hplanned => ?_
  obtain ⟨select, rfl⟩ := of_gives_findPlan hplanned
  exact only_rows_of_not_schema rfl _

theorem readsOnly_findRow (hdeclared : t.declared.isEmpty = true) (id : Int64) :
    (t.findRow id).ReadsOnly t none := by
  refine readsOnly_live_bind hdeclared rfl fun fields => ?_
  exact only_rows_of_not_schema rfl _

/-- A value that denotes no identifier finds nothing, and nothing is sent. -/
theorem readsOnly_findById (hdeclared : t.declared.isEmpty = true) (id : Value) :
    (t.findById id).ReadsOnly t none := by
  unfold findById
  cases id.lookupId? with
  | some n => exact readsOnly_findRow hdeclared n
  | none =>
    constructor
    case unchanged =>
      intro caches events outcome caches' hruns e he
      obtain ⟨rfl, _, _⟩ := Session.runs_pure.1 hruns
      cases he
    case absent =>
      intro caches events outcome caches' reply hruns he
      obtain ⟨rfl, _, _⟩ := Session.runs_pure.1 hruns
      cases he

end Table

/-- A session sends nothing, changes nothing that is kept, and gives a certain result. -/
def Session.Silent {α : Type} (s : Session α) (a : α) : Prop :=
  ∀ caches events outcome caches', s.Runs caches events outcome caches' ↔
    events = [] ∧ outcome = .ok a ∧ caches' = caches

/-- Operations add to tables only what they may: reading adds columns of declared fields, to the
table itself and to those that the filter leads to, and writing also those of fields that are deduced
from the record. Without declared fields finding records changes no table, and a value that denotes
no identifier sends nothing. -/
theorem Operation.grows_of_runs {operations : List Operation} {history : List Event} {caches : Caches}
    (hhistory : History operations history caches) :
    (∀ (operation : Operation) events outcome caches',
      operation.session.Runs caches events outcome caches' →
        ∀ e ∈ events, e.Grows operation.Supplies) ∧
    (∀ t : Table, t.declared.isEmpty = true →
      (∀ filter, (t.find filter).ReadsOnly t []) ∧ ∀ id, (t.findById id).ReadsOnly t none) ∧
    ∀ (t : Table) id, Value.lookupId? id = none →
      (t.findById id).Silent none ∧ ∀ changes, (t.update id changes).Silent none := by
  refine ⟨?_, ?_, ?_⟩
  · intro operation events outcome caches' hruns
    exact operation.grows_session hhistory.fresh hruns
  · intro t hdeclared
    exact ⟨Table.readsOnly_find hdeclared, Table.readsOnly_findById hdeclared⟩
  · intro t id hid
    constructor
    · intro caches events outcome caches'
      simp only [Table.findById, hid]
      exact Session.runs_pure
    · intro changes caches events outcome caches'
      rw [Table.update_eq_pure hid]
      exact Session.runs_pure

/-- Finding the edges, each with its person, adds the columns of both tables, where others are first to
do so. -/
theorem Operation.grows_of_runs_beaten :
    (∀ e ∈ Table.beatenEvents, e.Grows Table.edgesWithPersons.Supplies) ∧
      Table.beatenEvents.filterMap (fun e => e.sent.request.statement.growth?)
        = [("edges", Table.edges.declared.specs), ("people", Table.persons.declared.specs)] := by
  have hruns := Session.runs_play Table.edgesWithPersons.session (fun _ => none) Table.beatenReplies
  exact ⟨(grows_of_runs .nil).1 _ _ _ _ hruns, by decide +kernel⟩

end RecordMapping

import RecordMapping.Proofs.Query.Compiling
import RecordMapping.Proofs.Query.Scoping
import RecordMapping.Proofs.Table.Agreement
import RecordMapping.Proofs.Table.Identifier
import RecordMapping.Proofs.Table.Refusal

/-!
# Statements that can be built

A calendar value has no physical value, and a statement that it is handed over to cannot be built
(`Converts`). Nothing else keeps a statement from being built, and the statements of operations are
handed no such values (`Table.Builds`): what a record stores, what a filter asks for and what a plan
reads are integers, numbers and texts. So no operation fails because a statement of its own cannot be
built (`Table.built_of_operations`).
-/

namespace RecordMapping

/-! ## Physical values -/

namespace Param

/-- The calendar value that a value is, if it is one. -/
def calendar? : Param → Option CalendarParam
  | .calendar value => some value
  | _ => none

theorem datum_eq_error_iff {p : Param} {c : CalendarParam} :
    p.datum = .error c ↔ p.calendar? = some c := by
  cases p <;> simp [datum, calendar?]

/-- Values of all other kinds have physical values, whatever they are. -/
theorem isStored_iff {p : Param} : p.IsStored ↔ p.calendar? = none := by
  cases hdatum : p.datum with
  | ok d =>
    have hcalendar : p.calendar? = none := by
      refine Option.eq_none_iff_forall_ne_some.2 fun c hc => ?_
      cases hdatum.symm.trans (datum_eq_error_iff.2 hc)
    exact iff_of_true ⟨d, hdatum⟩ hcalendar
  | error c =>
    refine iff_of_false ?_ (by rw [datum_eq_error_iff.1 hdatum]; exact Option.some_ne_none c)
    rintro ⟨d, hd⟩
    cases hdatum.symm.trans hd

/-- The first calendar value of a list has no physical value, and is what the list is refused for. -/
theorem data_eq_error_iff {params : List Param} {c : CalendarParam} :
    data params = .error c ↔ params.findSome? calendar? = some c := by
  unfold data
  -- the first value decides if it is a calendar value, and otherwise the rest does
  induction params with
  | nil =>
    rw [List.mapM_nil]
    exact iff_of_false nofun nofun
  | cons p rest ih =>
    rw [List.mapM_cons, bind_eq_error, List.findSome?_cons]
    cases hp : p.calendar? with
    | some c' =>
      have hdatum := datum_eq_error_iff.2 hp
      constructor
      · rintro (h | ⟨d, hd, _⟩)
        · exact congrArg some (Except.error.inj (hdatum.symm.trans h))
        · cases hdatum.symm.trans hd
      · intro h
        exact .inl (hdatum.trans (congrArg Except.error (Option.some.inj h)))
    | none =>
      obtain ⟨d, hd⟩ := isStored_iff.2 hp
      rw [← ih]
      constructor
      · rintro (h | ⟨_, _, h⟩)
        · cases hd.symm.trans h
        · rcases bind_eq_error.1 h with h | ⟨_, _, h⟩
          · exact h
          · cases h
      · intro h
        exact .inr ⟨d, hd, bind_eq_error.2 (.inl h)⟩

end Param

/-! ## Builders -/

/-- A query is built of a text and of values that were handed over: it has the physical value of each
of them, in their order. If there are calendar values among them it is not built, for the first of
these. -/
structure Converts (built : Except Error Query) (text : String) (handed : List Param) : Prop where
  ok_iff : ∀ query, built = .ok query ↔
    query.sql = text ∧ List.Forall₂ (fun p d => p.datum = .ok d) handed query.params
  error_iff : ∀ e, built = .error e ↔
    ∃ c, handed.findSome? Param.calendar? = some c ∧ e = .unsupportedType (.param c)

theorem Pieces.converts (pieces : Pieces) : Converts pieces.query pieces.text pieces.params := by
  cases hdata : Param.data pieces.params with
  | ok data =>
    have hquery := query_of_data hdata
    refine ⟨fun query => ?_, fun e => ?_⟩
    · obtain ⟨sql, params⟩ := query
      rw [hquery, ← data_eq_ok_iff, hdata]
      simp only [Except.ok.injEq, Query.mk.injEq, eq_comm]
    · rw [hquery]
      refine iff_of_false nofun ?_
      rintro ⟨c, hc, _⟩
      cases hdata.symm.trans (Param.data_eq_error_iff.2 hc)
  | error c =>
    have hquery : pieces.query = .error (.unsupportedType (.param c)) := by
      unfold query
      rw [hdata]
    refine ⟨fun query => ?_, fun e => ?_⟩
    · rw [hquery, ← data_eq_ok_iff, hdata]
      exact iff_of_false nofun fun h => nomatch h.2
    · rw [hquery, Param.data_eq_error_iff.1 hdata]
      simp only [Except.error.injEq, Option.some.injEq, exists_eq_left', eq_comm]

/-- What is handed over to a selection: with its projections, its joins and its filters, and its
limit. -/
def Select.handed (s : Select) : List Param :=
  (s.projections.flatMap fun p => p.1.pieces.params) ++ (s.joins.flatMap fun j => j.on.values) ++
    s.filters.flatMap Filter.values ++ s.limit.toList.map (.bigUnsigned <| some ·)

/-- What is handed over to an update: the values of its columns, and with its filters. -/
def Update.handed (u : Update) : List Param :=
  u.values.map Prod.snd ++ u.filters.flatMap Filter.values

/-- What is handed over to the builder of a statement. -/
def Statement.handed : Statement → List Param
  | .select s => s.handed
  | .insert i => i.row
  | .update u => u.handed
  | _ => []

theorem Select.converts (s : Select) : Converts (Statement.select s).query s.pieces.text s.handed := by
  have hparams : s.pieces.params = s.handed := by
    obtain ⟨table, aliasName, projections, joins, filters, order, limit⟩ := s
    cases limit <;>
      simp [pieces, handed, Pieces.params_flatMap, projectionPieces, joinPieces,
        Filter.params_expr, limitPieces, params_wherePieces]
  rw [← hparams]
  exact s.pieces.converts

theorem Insert.converts (i : Insert) : Converts (Statement.insert i).query i.pieces.text i.row := by
  have hquery : (Statement.insert i).query = i.pieces.query := i.query_eq_pieces
  rw [row, ← params_pieces, hquery]
  exact i.pieces.converts

theorem Update.converts (u : Update) : Converts (Statement.update u).query u.pieces.text u.handed := by
  have hbound := flatMap_params_bind u.values
    (fun v => [.text (identifier v.1 ++ " = "), .bind v.2]) fun _ _ => rfl
  have hparams : u.pieces.params = u.handed := by
    simp [pieces, handed, Pieces.params_separated, hbound, params_wherePieces]
  rw [← hparams]
  exact u.pieces.converts

/-- Where a query is built, no calendar value was handed over. -/
theorem Converts.calendar?_eq_none {built : Except Error Query} {text : String}
    {handed : List Param} (h : Converts built text handed) {query : Query}
    (hquery : built = .ok query) : ∀ p ∈ handed, p.calendar? = none := by
  intro p hp
  obtain ⟨d, _, hd⟩ := exists_right_of_forall₂ ((h.ok_iff query).1 hquery).2 hp
  exact Param.isStored_iff.1 ⟨d, hd⟩

/-! ## What operations build -/

namespace Table

variable {t : Table}

/-- The statements that the operations on a table build: for what is stored of a record, for a filter,
for an identifier, and for a plan. -/
inductive Builds (t : Table) : Statement → Prop where
  | insert {fields : FieldSet} {record : Record} {values : Named Param}
      (h : encode fields record = .ok values) : Builds t (.insert ⟨t.name, values⟩)
  | update {fields : FieldSet} {changes : Record} {values : Named Param}
      (h : encode fields changes = .ok values) (id : Int64) :
      Builds t (.update ⟨t.name, values, [hasId id]⟩)
  | find {fields : FieldSet} {filter : Record} {planned : Statement × List Embedded}
      (h : (t.findPlan filter fields).Gives planned) : Builds t planned.1
  | findRow (id : Int64) :
      Builds t (.select { table := t.name, filters := [hasId id], limit := some 1 })
  | relational {registry : Registry} {fields : FieldSet} {filter : Record} {query : RelationalQuery}
      (h : (compileRelational registry t.name fields filter).Gives query) :
      Builds t (.select query.select)

theorem exists_query_of_findPlan {fields : FieldSet} {filter : Record}
    {planned : Statement × List Embedded} (h : (t.findPlan filter fields).Gives planned) :
    ∃ query, planned.1.query = .ok query := by
  obtain ⟨clause, hclause, h⟩ := h.of_bind
  obtain ⟨conditions, hconditions, h⟩ := h.of_bind
  have hcompile := hclause.of_ofExcept
  obtain ⟨_, rfl⟩ := conditions_eq_map hcompile hconditions.of_ofExcept
  cases Session.gives_pure.1 h
  exact (comparesColumns (Clause.all_isLocal_compile hcompile)
    (Clause.alike_compile rfl hcompile hcompile).predicates).built

theorem exists_query_of_builds {statement : Statement} (h : t.Builds statement) :
    ∃ query, statement.query = .ok query := by
  cases h with
  | insert h =>
    obtain ⟨_, _, _, hdata⟩ := exists_stored_of_encode h
    exact ⟨_, Insert.query_eq hdata⟩
  | update h id =>
    obtain ⟨_, _, _, hdata⟩ := exists_stored_of_encode h
    exact ⟨_, Update.query_eq hdata⟩
  | find h => exact exists_query_of_findPlan h
  | findRow id => exact ⟨_, rfl⟩
  | relational h =>
    obtain ⟨plan, hplan, h⟩ := h.of_bind
    cases Session.gives_pure.1 h
    obtain ⟨_, _, hquery⟩ := Plan.query_select (Plan.alike_of_gives_make hplan)
    exact ⟨_, hquery⟩

/-- What is handed over to such a statement is of a kind that has physical values. -/
theorem calendar?_of_builds {statement : Statement} (h : t.Builds statement) :
    ∀ p ∈ statement.handed, p.calendar? = none := by
  obtain ⟨query, hquery⟩ := exists_query_of_builds h
  cases statement with
  | select s => exact s.converts.calendar?_eq_none hquery
  | insert i => exact i.converts.calendar?_eq_none hquery
  | update u => exact u.converts.calendar?_eq_none hquery
  | tableInfo _ | createTable _ _ | addColumn _ _ | custom _ _ => exact List.forall_mem_nil _

/-! ### What is sent -/

/-- What an operation on a table may send: statements on schemas, and statements that it builds. -/
def MaySend (t : Table) (sent : Sent) : Prop := sent.IsSchema ∨ t.Builds sent.request.statement

theorem maySend_of_sends_schema {α : Type} {s : Session α} (h : s.Sends Sent.IsSchema) :
    s.Sends t.MaySend :=
  fun caches => (h caches).mono fun _ => .inl

/-- A statement that is built may be sent, and nothing is sent for its rows. -/
theorem maySend_rows_bind {α : Type} {statement : Statement} (h : t.Builds statement)
    (read : List Row → Except Error α) :
    (Session.rows t.handle statement >>= fun rows => Session.ofExcept (read rows)).Sends
      t.MaySend := by
  refine Session.Sends.bind (Session.sends_rows fun request hrequest => .inr ?_) fun rows =>
    (Session.closed_sends _).ofExcept _
  show t.Builds request.statement
  rw [hrequest]
  exact h

theorem encode_of_gives_prepare {record : Record} {p : FieldSet × Named Param}
    (h : (t.prepare record).Gives p) : encode p.1 record = .ok p.2 := by
  obtain ⟨caches, events, caches', h⟩ := h
  obtain ⟨kept, _, h⟩ := runs_prepare.1 h
  obtain ⟨_, _, _, _, _, _, hencode⟩ := h.of_ok
  exact hencode

theorem maySend_findRow (id : Int64) : (t.findRow id).Sends t.MaySend := by
  refine Session.Sends.bind (maySend_of_sends_schema t.sends_live) fun live => ?_
  cases live with
  | none => exact (Session.closed_sends _).pure none
  | some fields => exact maySend_rows_bind (.findRow id) _

theorem maySend_insert (record : Record) : (t.insert record).Sends t.MaySend := by
  rw [insert]
  refine (Session.closed_sends _).bind (maySend_of_sends_schema (t.sends_prepare record)) ?_
  intro p hp
  exact maySend_rows_bind (.insert (encode_of_gives_prepare hp)) _

theorem maySend_update (id : Value) (changes : Record) : (t.update id changes).Sends t.MaySend := by
  rcases hid : id.lookupId? with _ | n
  · rw [update_eq_pure hid]
    exact (Session.closed_sends _).pure none
  rw [update_eq hid]
  refine (Session.closed_sends _).bind (maySend_of_sends_schema (t.sends_prepare changes)) ?_
  intro p hp
  unfold updateRow
  split
  · exact maySend_findRow n
  · exact maySend_rows_bind (.update (encode_of_gives_prepare hp) n) _

theorem maySend_find (filter : Record) : (t.find filter).Sends t.MaySend := by
  rw [find]
  refine Session.Sends.bind (maySend_of_sends_schema t.sends_live) fun live => ?_
  cases live with
  | none => exact (Session.closed_sends _).pure []
  | some fields =>
    refine (Session.closed_sends _).bind
      (maySend_of_sends_schema (t.sends_findPlan filter fields)) fun planned hplanned => ?_
    exact maySend_rows_bind (.find hplanned) _

theorem maySend_findById (id : Value) : (t.findById id).Sends t.MaySend :=
  closed_findById (Session.closed_sends _) maySend_findRow id

/-- Planning a query sends statements on schemas only. -/
theorem maySend_compileRelational (registry : Registry) (table : String) (fields : FieldSet)
    (filter : Record) : (compileRelational registry table fields filter).Sends t.MaySend := by
  have hclosed := Session.closed_sends Sent.IsSchema
  have hmake : (Plan.make registry table fields filter).Sends Sent.IsSchema :=
    Plan.closed_make hclosed (fun target _ => target.sends_ensure _) table fields filter
  exact maySend_of_sends_schema (hclosed.bind hmake fun plan _ => hclosed.pure plan.query)

end Table

/-! ## How operations fail -/

namespace Error

/-- Whether an error is that of a statement that cannot be built. -/
def isUnbuilt : Error → Bool
  | .unsupportedType (.param _) => true
  | _ => false

theorem isUnbuilt_of_refuses {e : Error} (h : e.refuses = false) : e.isUnbuilt = false := by
  cases e with
  | unsupportedType what => cases h
  | _ => rfl

theorem isUnbuilt_of_cause {e : Error} {cause : EngineError} (h : e.cause? = some cause) :
    e.isUnbuilt = false :=
  isUnbuilt_of_refuses (refuses_of_cause h)

end Error

theorem FieldType.isUnbuilt_of_store {name : String} {type : FieldType} {value : Value} {e : Error}
    (h : type.store name value = .error e) : e.isUnbuilt = false := by
  unfold store at h
  split at h
  case h_9 =>
    split at h <;> cases h
    rfl
  all_goals cases h
  rfl

theorem FieldType.isUnbuilt_of_deduce {value : Value} {e : Error}
    (h : FieldType.deduce value = .error e) : e.isUnbuilt = false := by
  unfold deduce at h
  split at h <;> cases h
  rfl

/-- A filter is refused for a value in it. -/
theorem Clause.isUnbuilt_of_compile {fields : FieldSet} {filter : Record} {e : Error}
    (h : compile fields filter = .error e) : e.isUnbuilt = false := by
  obtain ⟨name, value, _, hrefused⟩ := exists_refused_of_compile h
  cases hrefused with
  | identifier | reference => rfl
  | unstorable _ _ _ _ _ hstore => exact FieldType.isUnbuilt_of_store hstore

namespace Table

variable {t : Table} {e : Error}

theorem isUnbuilt_of_localReference {j : ReferenceJoin} (h : t.localReference j = .error e) :
    e.isUnbuilt = false := by
  unfold localReference at h
  split at h
  · cases h
  · split at h
    · split at h
      · cases h
      · split at h <;> cases h
        rfl
    · cases h
      rfl
  · cases h
    rfl

theorem isUnbuilt_of_fails_prepare {record : Record} (h : (t.prepare record).Fails e) :
    e.isUnbuilt = false := by
  obtain ⟨caches, events, caches', h⟩ := h
  obtain ⟨kept, _, h⟩ := runs_prepare.1 h
  generalize houtcome : (Except.error e : Except Error (FieldSet × Named Param)) = outcome at h
  cases h with
  | untyped hrequired =>
    cases houtcome
    obtain ⟨_, _, _, _, _, hvalue⟩ := exists_untyped hrequired
    exact FieldType.isUnbuilt_of_deduce hvalue
  | unprovided _ hcourse =>
    cases houtcome
    obtain ⟨_, hcause⟩ := hcourse.exists_cause
    exact Error.isUnbuilt_of_cause hcause
  | provided =>
    obtain ⟨_, _, _, _, hstore⟩ := exists_unstorable (map_eq_error.1 houtcome.symm)
    exact FieldType.isUnbuilt_of_store hstore

theorem isUnbuilt_of_fails_insert {record : Record} (h : (t.insert record).Fails e) :
    e.isUnbuilt = false := by
  rw [insert] at h
  rcases h.of_bind with h | ⟨⟨fields, values⟩, hprepare, h⟩
  · exact isUnbuilt_of_fails_prepare h
  · obtain ⟨_, _, _, hdata⟩ := exists_stored_of_encode (encode_of_gives_prepare hprepare)
    exact Error.isUnbuilt_of_refuses (refuses_of_fails_insertRow hdata h)

theorem isUnbuilt_of_fails_update {id : Value} {changes : Record}
    (h : (t.update id changes).Fails e) : e.isUnbuilt = false := by
  rcases hid : id.lookupId? with _ | n
  · rw [update_eq_pure hid] at h
    exact absurd h (Session.not_fails_pure none e)
  rw [update_eq hid] at h
  rcases h.of_bind with h | ⟨⟨fields, values⟩, hprepare, h⟩
  · exact isUnbuilt_of_fails_prepare h
  · obtain ⟨_, _, _, hdata⟩ := exists_stored_of_encode (encode_of_gives_prepare hprepare)
    exact Error.isUnbuilt_of_refuses (refuses_of_fails_updateRow hdata h)

theorem isUnbuilt_of_fails_find {filter : Record} (h : (t.find filter).Fails e) :
    e.isUnbuilt = false := by
  rw [find] at h
  rcases h.of_bind with h | ⟨live, _, h⟩
  · exact Error.isUnbuilt_of_refuses (refuses_of_fails_live h)
  cases live with
  | none => exact absurd h (Session.not_fails_pure [] e)
  | some fields =>
    rcases h.of_bind with h | ⟨planned, hplanned, h⟩
    · rcases h.of_bind with h | ⟨clause, _, h⟩
      · exact Clause.isUnbuilt_of_compile h.of_ofExcept
      rcases h.of_bind with h | ⟨references, _, h⟩
      · obtain ⟨j, _, hlocal⟩ := exists_of_mapM_eq_error h.of_ofExcept
        exact isUnbuilt_of_localReference hlocal
      · exact absurd h (Session.not_fails_pure _ e)
    · obtain ⟨query, hquery⟩ := exists_query_of_findPlan hplanned
      obtain ⟨select, rfl⟩ := of_gives_findPlan hplanned
      refine Error.isUnbuilt_of_refuses (refuses_of_fails_rows_bind hquery (fun rows hrows => ?_) h)
      obtain ⟨row, _, hrow⟩ := exists_of_mapM_eq_error hrows
      exact refuses_of_decode hrow

theorem isUnbuilt_of_fails_findById {id : Value} (h : (t.findById id).Fails e) :
    e.isUnbuilt = false := by
  unfold findById at h
  rcases hid : id.lookupId? with _ | n
  · rw [hid] at h
    exact absurd h (Session.not_fails_pure none e)
  · rw [hid] at h
    exact Error.isUnbuilt_of_refuses (refuses_of_fails_findRow h)

theorem isUnbuilt_of_fails_schema (h : t.schema.Fails e) : e.isUnbuilt = false := by
  obtain ⟨caches, events, caches', h⟩ := h
  obtain ⟨found, kept, hcourse, _, hfound⟩ := runs_ensure.1 h
  rw [map_eq_error.1 hfound.symm] at hcourse
  obtain ⟨_, hcause⟩ := hcourse.exists_cause
  exact Error.isUnbuilt_of_cause hcause

end Table

namespace Plan

variable {registry : Registry} {e : Error}

/-- Planning builds no statement of its own. -/
theorem isUnbuilt_of_fails_join {depth : Nat} {owner : String} {reference : ReferenceJoin}
    (h : (join registry depth owner reference).Fails e) : e.isUnbuilt = false := by
  induction depth generalizing owner reference with
  | zero =>
    have h : (Session.ofExcept (.error (.joinDepthExceeded owner maxDepth)) :
      Session PlannedJoin).Fails e := h
    cases h.of_ofExcept
    rfl
  | succ depth ih =>
    -- the step that fails resolves, looks up fields, compiles, or plans a join on the next level
    rcases h.of_bind with h | ⟨target, _, h⟩
    · have hresolve := h.of_ofExcept
      unfold Registry.resolve at hresolve
      split at hresolve <;> cases hresolve
      rfl
    rcases h.of_bind with h | ⟨fields, _, h⟩
    · exact Table.isUnbuilt_of_fails_schema h
    rcases h.of_bind with h | ⟨clause, _, h⟩
    · exact Clause.isUnbuilt_of_compile h.of_ofExcept
    rcases h.of_bind with h | ⟨joins, _, h⟩
    · obtain ⟨j, _, hj⟩ := h.of_mapM
      exact ih hj
    · exact absurd h (Session.not_fails_pure _ e)

theorem isUnbuilt_of_fails_compileRelational {table : String} {fields : FieldSet} {filter : Record}
    (h : (compileRelational registry table fields filter).Fails e) : e.isUnbuilt = false := by
  rcases h.of_bind with h | ⟨plan, _, h⟩
  · rcases h.of_bind with h | ⟨clause, _, h⟩
    · exact Clause.isUnbuilt_of_compile h.of_ofExcept
    rcases h.of_bind with h | ⟨joins, _, h⟩
    · obtain ⟨j, _, hj⟩ := h.of_mapM
      exact isUnbuilt_of_fails_join hj
    · exact absurd h (Session.not_fails_pure _ e)
  · exact absurd h (Session.not_fails_pure _ e)

end Plan

/-! ## Operations -/

namespace Table

/-- Whatever is kept and replied, a session sends statements on schemas and such as the operations on a
table build, and it does not fail because a statement cannot be built. -/
structure SendsBuilt {α : Type} (t : Table) (s : Session α) : Prop where
  sends : s.Sends t.MaySend
  fails : ∀ e, s.Fails e → e.isUnbuilt = false

/-- Every statement that operations build can be built, from values of kinds that have physical ones,
so that no operation fails because one of its statements cannot be built. In general, a statement is
built of the physical values of all that is handed over to it, in order, unless there is a value of
another kind, and then it fails for the first such value. The values of a row are as many as its
columns in any case. -/
theorem built_of_operations (t : Table) :
    (∀ statement, t.Builds statement →
      (∃ query, statement.query = .ok query) ∧ ∀ p ∈ statement.handed, p.calendar? = none) ∧
    ((∀ record, t.SendsBuilt (t.insert record)) ∧
      (∀ id changes, t.SendsBuilt (t.update id changes)) ∧
      (∀ filter, t.SendsBuilt (t.find filter)) ∧
      (∀ id, t.SendsBuilt (t.findById id)) ∧
      ∀ registry fields filter, t.SendsBuilt (compileRelational registry t.name fields filter)) ∧
    (∀ params data, Param.data params = .ok data ↔
      List.Forall₂ (fun p d => p.datum = .ok d) params data) ∧
    (∀ params c, Param.data params = .error c ↔ params.findSome? Param.calendar? = some c) ∧
    (∀ s : Select, Converts (Statement.select s).query s.pieces.text s.handed) ∧
    (∀ u : Update, Converts (Statement.update u).query u.pieces.text u.handed) ∧
    ∀ i : Insert, i.checkWidth = .ok () ∧
      Converts (Statement.insert i).query i.pieces.text i.row := by
  refine ⟨fun statement h => ⟨exists_query_of_builds h, calendar?_of_builds h⟩, ?_,
    fun _ _ => data_eq_ok_iff, fun _ _ => Param.data_eq_error_iff, Select.converts,
    Update.converts, fun i => ⟨i.checkWidth_eq, i.converts⟩⟩
  refine ⟨fun record => ?_, fun id changes => ?_, fun filter => ?_, fun id => ?_,
    fun registry fields filter => ?_⟩
  · exact ⟨maySend_insert record, fun _ => isUnbuilt_of_fails_insert⟩
  · exact ⟨maySend_update id changes, fun _ => isUnbuilt_of_fails_update⟩
  · exact ⟨maySend_find filter, fun _ => isUnbuilt_of_fails_find⟩
  · exact ⟨maySend_findById id, fun _ => isUnbuilt_of_fails_findById⟩
  · exact ⟨maySend_compileRelational registry t.name fields filter,
      fun _ => Plan.isUnbuilt_of_fails_compileRelational⟩

/-- A person with an age. -/
def agedPerson : Record := [("age", .integer 7)]

/-- The statement for a person with an age is built, and a person whose age is a text is refused for
that text. -/
theorem built_of_operations_people :
    (∃ query, (Statement.insert ⟨"people", [("age", .double (some (.ofInt 7)))]⟩).query = .ok query) ∧
      (History.people.insert agelessPerson).Fails ageRefused ∧ ageRefused.isUnbuilt = false := by
  obtain ⟨hbuilds, ⟨hinsert, _⟩, _⟩ := built_of_operations History.people
  have hencode : encode History.people.declared agedPerson
      = .ok [("age", .double (some (.ofInt 7)))] := rfl
  have hfails : (History.people.insert agelessPerson).Fails ageRefused := by
    have hruns :=
      Session.runs_play (History.people.insert agelessPerson) (fun _ => none) creationReplies
    have hrefused : ((History.people.insert agelessPerson).play (fun _ => none)
        creationReplies).result.1 = .error ageRefused := rfl
    rw [hrefused] at hruns
    exact ⟨_, _, _, hruns⟩
  exact ⟨(hbuilds _ (.insert hencode)).1, hfails, (hinsert agelessPerson).fails _ hfails⟩

end Table

end RecordMapping

import RecordMapping.Proofs.Query.Compiling
import RecordMapping.Proofs.Query.Evaluation
import RecordMapping.Proofs.Table.Building

/-!
# Nulls in a filter

A null in a filter of records asks for rows that have nothing in a column: that of the identifier, or
that of a field which is no reference (`Clause.nullColumn?`). The statement that finds records has
this condition then, and selects no other rows. For a reference a null asks for nothing: it is as if
the filter did not have the key (`Table.findSelect_nullReference`).
-/

namespace RecordMapping

namespace Session

variable {α β : Type}

theorem ofExcept_bind (x : Except Error α) (f : α → Except Error β) :
    ofExcept (x >>= f) = ofExcept x >>= fun a => ofExcept (f a) := by
  cases x <;> rfl

theorem ofExcept_map (x : Except Error α) (f : α → β) :
    ofExcept (x.map f) = ofExcept x >>= fun a => pure (f a) := by
  cases x <;> rfl

end Session

/-! ## Compiling nulls -/

namespace Clause

variable {fields : FieldSet} {name column : String} {field : FieldSpec}

/-- The column that a null is looked for in, where a key of a filter names the identifier or a field
that is no reference. -/
def nullColumn? (fields : FieldSet) (name : String) : Option String :=
  if name = idName then some idName
  else (fields.get? name).bind fun field =>
    if field.type = .reference then none else some field.column

theorem becomes_of_nullColumn? (h : nullColumn? fields name = some column) :
    Becomes fields name .null (some (.predicate (.isNull none column))) := by
  unfold nullColumn? at h
  by_cases hname : name = idName
  · rw [if_pos hname] at h
    cases h
    subst hname
    exact .noIdentifier
  · rw [if_neg hname] at h
    obtain ⟨field, hfield, hcolumn⟩ := Option.bind_eq_some_iff.1 h
    by_cases htype : field.type = .reference
    · rw [if_pos htype] at hcolumn
      cases hcolumn
    · rw [if_neg htype] at hcolumn
      cases hcolumn
      exact .isNull hname hfield htype

/-- What a key becomes is one thing. -/
theorem Becomes.unique {value : Value} {i i' : Option ClauseItem} (h : Becomes fields name value i)
    (h' : Becomes fields name value i') : i = i' :=
  Except.ok.inj ((item_of_becomes h).symm.trans (item_of_becomes h'))

/-- What a filter of two parts is compiled to. -/
theorem compile_append (first second : Record) : compile fields (first ++ second) = do
    let a ← compile fields first
    let b ← compile fields second
    return ⟨a.predicates ++ b.predicates, a.joins ++ b.joins⟩ := by
  unfold compile
  rw [List.mapM_append]
  cases first.mapM fun key => item fields key.1 key.2 with
  | error e => rfl
  | ok items =>
    cases second.mapM fun key => item fields key.1 key.2 with
    | error e => rfl
    | ok items' =>
      show Except.ok (ofItems ((items ++ items').filterMap id)) = Except.ok _
      unfold ofItems
      rw [List.filterMap_append, List.filterMap_append, List.filterMap_append]

/-- A null becomes a condition on its column. -/
theorem isNull_mem_predicates {filter : Record} {clause : Clause}
    (hcompile : compile fields filter = .ok clause) (hnull : (name, .null) ∈ filter)
    (hcolumn : nullColumn? fields name = some column) :
    .isNull none column ∈ clause.predicates := by
  obtain ⟨items, hitems, rfl⟩ := compile_eq_ok_iff.1 hcompile
  obtain ⟨i, hi, hbecomes⟩ := exists_right_of_forall₂ hitems hnull
  obtain rfl := hbecomes.unique (becomes_of_nullColumn? hcolumn)
  exact List.mem_filterMap.2 ⟨_, List.mem_filterMap.2 ⟨_, hi, rfl⟩, rfl⟩

end Clause

/-- A selection with such a condition selects only rows that have nothing in the column. -/
theorem Select.isNull_of_mem_selected {ops : Operators} {db : Database} {s : Select}
    {column : String} (h : .isNull none column ∈ s.filters) {row : Row}
    (hrow : row ∈ s.selected ops db) : (row.value column).isNull = true := by
  obtain ⟨b, hb, rfl⟩ := List.mem_map.1 hrow
  have htrue : (Filter.and s.filters).isTrue ops b s.source = true := (List.mem_filter.1 hb).2
  rw [Filter.isTrue_and, List.all_eq_true] at htrue
  have hnull : (Filter.isNull none column).isTrue ops b s.source = true := htrue _ h
  simpa [Filter.isTrue, Filter.expr, Expr.eval, SqlValue.isTrue, SqlValue.truth, Bindings.value]
    using hnull

namespace Table

variable {t : Table} {fields : FieldSet} {filter : Record}

/-! ## The statement -/

/-- The selection of the records that match a filter. -/
def findSelect (t : Table) (filter : Record) (fields : FieldSet) : Except Error Select := do
  let clause ← Clause.compile fields filter
  let references ← clause.joins.mapM t.localReference
  return { table := t.name
           filters := clause.predicates ++ references.filterMap id
           order := [(none, idName)] }

theorem findPlan_eq (t : Table) (filter : Record) (fields : FieldSet) :
    t.findPlan filter fields
      = Session.ofExcept ((t.findSelect filter fields).map fun s => (.select s, [])) := by
  rw [Session.ofExcept_map, findSelect, Session.ofExcept_bind, bind_assoc]
  refine bind_congr fun clause => ?_
  rw [Session.ofExcept_bind, bind_assoc]
  rfl

/-! ## References -/

/-- A null for a reference asks for nothing: the statement is that for the filter without this key,
and so is the error, where there is no statement. -/
theorem findSelect_nullReference {before after : Record} {name : String} {field : FieldSpec}
    (hname : name ≠ idName) (hfield : fields.get? name = some field)
    (htype : field.type = .reference) :
    t.findSelect (before ++ (name, .null) :: after) fields = t.findSelect (before ++ after) fields := by
  have hnull : Clause.compile fields [(name, .null)] = .ok ⟨[], [⟨field, []⟩]⟩ :=
    Clause.compile_eq_ok_iff.2 ⟨_, .cons (.join hname hfield htype .null) .nil, rfl⟩
  have hlocal : t.localReference ⟨field, []⟩ = .ok none := rfl
  rw [← List.singleton_append, findSelect, findSelect, Clause.compile_append, Clause.compile_append,
    Clause.compile_append, hnull]
  cases Clause.compile fields before with
  | error e => rfl
  | ok first =>
    cases Clause.compile fields after with
    | error e => rfl
    | ok second =>
      -- both have the same conditions, and the joins are those around the one for the null
      show ((first.joins ++ ⟨field, []⟩ :: second.joins).mapM t.localReference >>= fun _ => _)
        = (first.joins ++ second.joins).mapM t.localReference >>= fun _ => _
      rw [List.mapM_append, List.mapM_append, List.mapM_cons, hlocal]
      cases first.joins.mapM t.localReference with
      | error e => rfl
      | ok references =>
        cases second.joins.mapM t.localReference with
        | error e => rfl
        | ok references' =>
          have hnone : (references ++ none :: references').filterMap id
              = (references ++ references').filterMap id := by simp
          show Except.ok _ = Except.ok _
          rw [hnone]
          rfl

/-! ## Finding records -/

/-- What a selection makes of the nulls in a filter. It selects rows of the table alone; each null for
the identifier or for a field that is no reference is one of its conditions, and a row that has
something in the column is not selected. -/
structure AsksNulls (t : Table) (fields : FieldSet) (filter : Record) (s : Select) : Prop where
  table : s.table = t.name
  source : s.source = t.name
  joins : s.joins = []
  conjunct : ∀ name column, (name, .null) ∈ filter → Clause.nullColumn? fields name = some column →
    .isNull none column ∈ s.filters
  rows : ∀ name column, (name, .null) ∈ filter → Clause.nullColumn? fields name = some column →
    ∀ ops db, ∀ row ∈ s.selected ops db, (row.value column).isNull = true

theorem asksNulls_of_findSelect {s : Select} (h : t.findSelect filter fields = .ok s) :
    t.AsksNulls fields filter s := by
  obtain ⟨clause, hcompile, h⟩ := bind_eq_ok.1 h
  obtain ⟨references, _, h⟩ := bind_eq_ok.1 h
  cases h
  have hconjunct : ∀ name column, (name, .null) ∈ filter →
      Clause.nullColumn? fields name = some column →
        .isNull none column ∈ clause.predicates ++ references.filterMap id :=
    fun name column hnull hcolumn =>
      List.mem_append_left _ (Clause.isNull_mem_predicates hcompile hnull hcolumn)
  constructor
  case table => rfl
  case source => rfl
  case joins => rfl
  case conjunct => exact hconjunct
  case rows =>
    intro name column hnull hcolumn ops db row hrow
    exact Select.isNull_of_mem_selected (hconjunct name column hnull hcolumn) hrow

theorem runs_findPlan {caches caches' : Caches} {events : List Event}
    {planned : Statement × List Embedded}
    (h : (t.findPlan filter fields).Runs caches events (.ok planned) caches') :
    ∃ s, t.findSelect filter fields = .ok s ∧ planned = (.select s, []) ∧ events = [] ∧
      caches' = caches := by
  rw [findPlan_eq] at h
  obtain ⟨rfl, hplanned, rfl⟩ := Session.runs_ofExcept.1 h
  obtain ⟨s, hs, rfl⟩ := map_eq_ok.1 hplanned.symm
  exact ⟨s, hs, rfl, rfl, rfl⟩

/-- The one statement on rows that is sent, if there is one, is sent last, for the fields that were
found. -/
theorem findSelect_of_fetched {caches caches' : Caches} {events : List Event}
    {outcome : Except Error (List Record)}
    (h : (t.find filter).Runs caches events outcome caches') {request : Request}
    {reply : Except EngineError (List Row)} (hsent : .fetched request reply ∈ events) {s : Select}
    (hselect : request.statement = .select s) :
    ∃ before fields, events = before ++ [.fetched request reply] ∧
      t.live.Runs caches before (.ok (some fields)) caches' ∧
      t.findSelect filter fields = .ok s := by
  have hschema : request.statement.isSchema = false := by rw [hselect]; rfl
  rw [find] at h
  cases runs_listing h with
  | unknown hlive | absent hlive =>
    exact absurd hsent (Session.notMem_of_sends_schema t.sends_live hlive hschema)
  | unplanned hlive hplan | unsent hlive hplan =>
    rcases List.mem_append.1 hsent with hsent | hsent
    · exact absurd hsent (Session.notMem_of_sends_schema t.sends_live hlive hschema)
    · exact absurd hsent (Session.notMem_of_sends_schema (t.sends_findPlan _ _) hplan hschema)
  | @answered first _ fields _ _ _ hlive hplan hstatement _ =>
    obtain ⟨s', hs', rfl, rfl, rfl⟩ := runs_findPlan hplan
    rw [List.append_nil] at hsent ⊢
    rcases List.mem_append.1 hsent with hsent | hsent
    · exact absurd hsent (Session.notMem_of_sends_schema t.sends_live hlive hschema)
    · cases List.mem_singleton.1 hsent
      cases hselect.symm.trans hstatement
      exact ⟨first, fields, rfl, hlive, hs'⟩

/-- Where there is a statement for a filter, it is sent, whatever is replied to it. -/
theorem runs_find_of_findSelect {caches between : Caches} {before : List Event} {s : Select}
    (hlive : t.live.Runs caches before (.ok (some fields)) between)
    (hselect : t.findSelect filter fields = .ok s) (reply : Except EngineError (List Row)) :
    ∃ request outcome, request.statement = .select s ∧
      (t.find filter).Runs caches (before ++ [.fetched request reply]) outcome between := by
  have hplan : (t.findPlan filter fields).Runs between [] (.ok (.select s, [])) between := by
    rw [findPlan_eq, hselect]
    exact Session.runs_pure.2 ⟨rfl, rfl, rfl⟩
  obtain ⟨query, hquery⟩ := exists_query_of_findPlan ⟨_, _, _, hplan⟩
  have hrows : (Session.rows t.handle (.select s)).Runs between
      [.fetched ⟨some t.handle, .select s, query, hquery⟩ reply]
      (reply.mapError (.statement query.sql query.params)) between := by
    unfold Session.Runs
    rw [Session.run_rows hquery]
    exact .fetch reply (.done _)
  rw [find]
  refine ⟨⟨some t.handle, .select s, query, hquery⟩, ?_, rfl, Session.runs_bind.2
    (.inr ⟨before, some fields, between, _, rfl, hlive, Session.runs_bind.2
      (.inr ⟨[], _, between, _, rfl, hplan, ?_⟩)⟩)⟩
  · exact (reply.mapError (.statement query.sql query.params)).bind
      fun rows => rows.mapM (decode fields [])
  cases reply with
  | error e => exact Session.runs_bind.2 (.inl ⟨_, rfl, hrows⟩)
  | ok rows =>
    refine Session.runs_bind.2 (.inr ⟨_, rows, between, [], rfl, hrows, ?_⟩)
    exact Session.runs_ofExcept.2 ⟨rfl, rfl, rfl⟩

/-- The statement that finds records is the one for the filter and for the fields that were found, and
where there is such a statement it is sent. It has a condition for each null in the filter under the
identifier or under a field that is no reference, so that rows which have something in that column are
not selected. For a reference, though, a null asks for nothing: the statement is the one for the filter
without that key. -/
theorem asksNulls_of_find (t : Table) (filter : Record) :
    (∀ caches events outcome caches' request reply s,
      (t.find filter).Runs caches events outcome caches' → .fetched request reply ∈ events →
      request.statement = .select s →
        ∃ before fields, events = before ++ [.fetched request reply] ∧
          t.live.Runs caches before (.ok (some fields)) caches' ∧
          t.findSelect filter fields = .ok s) ∧
    (∀ caches before fields between s,
      t.live.Runs caches before (.ok (some fields)) between → t.findSelect filter fields = .ok s →
        ∀ reply, ∃ request outcome, request.statement = .select s ∧
          (t.find filter).Runs caches (before ++ [.fetched request reply]) outcome between) ∧
    (∀ fields s, t.findSelect filter fields = .ok s → t.AsksNulls fields filter s) ∧
    ∀ fields before name after field, filter = before ++ (name, .null) :: after → name ≠ idName →
      fields.get? name = some field → field.type = .reference →
        t.findSelect filter fields = t.findSelect (before ++ after) fields := by
  refine ⟨?_, ?_, fun _ _ => asksNulls_of_findSelect, ?_⟩
  · intro caches events outcome caches' request reply s h hsent hselect
    exact findSelect_of_fetched h hsent hselect
  · intro caches before fields between s hlive hs reply
    exact runs_find_of_findSelect hlive hs reply
  · rintro fields before name after field rfl hname hfield htype
    exact findSelect_nullReference hname hfield htype

/-- The person with an identifier, if that person has no name. -/
def namelessFilter : Record := [("name", .null), (idName, .integer 7)]

theorem asksNulls_of_find_nameless :
    ∃ caches events outcome caches' request reply s,
      (persons.find namelessFilter).Runs caches (events ++ [.fetched request reply]) outcome caches' ∧
      request.statement = .select s ∧ .isNull none "name" ∈ s.filters ∧
      ∀ ops db, ∀ row ∈ s.selected ops db, (row.value "name").isNull = true := by
  obtain ⟨_, hsends, hasks, _⟩ := asksNulls_of_find persons namelessFilter
  let replies : List Reply := [.rows (personColumns.map ColumnInfo.row)]
  have hlive := Session.runs_play persons.live (fun _ => none) replies
  have hfields : (persons.live.play (fun _ => none) replies).result.1
      = .ok (some persons.declared) := rfl
  rw [hfields] at hlive
  obtain ⟨s, hs⟩ : ∃ s, persons.findSelect namelessFilter persons.declared = .ok s := ⟨_, rfl⟩
  obtain ⟨request, outcome, hrequest, hruns⟩ := hsends _ _ _ _ s hlive hs (.ok [])
  have hnulls := hasks persons.declared s hs
  exact ⟨_, _, outcome, _, request, .ok [], s, hruns, hrequest,
    hnulls.conjunct "name" "name" List.mem_cons_self rfl,
    hnulls.rows "name" "name" List.mem_cons_self rfl⟩

/-- Finding the edges whose reference is null, where the engine has one edge, to the seventh
person. -/
def edgesWithoutPerson : Played (Except Error (List Record) × Caches) :=
  (edges.find [("one", .null)]).play (fun _ => none)
    [.rows ((edgeColumns []).map ColumnInfo.row),
      .rows [⟨"0", [(idName, .int64 (some 1)), ("one::reference", .int64 (some 7))]⟩]]

/-- The filter names the reference, but the statement does not ask for its column to be null, and the
edge is found. -/
theorem find_nullReference_edges :
    (edges.declared.get? "one").map FieldSpec.column = some "one::reference" ∧
      (∃ s, edges.findSelect [("one", .null)] edges.declared = .ok s ∧
        .isNull none "one::reference" ∉ s.filters) ∧
      edgesWithoutPerson.sent.map (·.request.query.sql)
        = [tableInfoText, "SELECT \"edges\".* FROM \"edges\" ORDER BY \"edges\".\"id\" ASC"] ∧
      personIds edgesWithoutPerson.result.1 = some [some 7] :=
  ⟨rfl, ⟨_, rfl, List.not_mem_nil⟩, by decide +kernel, by decide +kernel⟩

end Table

end RecordMapping

import RecordMapping.Proofs.Query.Embedding
import RecordMapping.Proofs.Table.Listing
import RecordMapping.Proofs.Table.Provision

/-!
# Records with the records they refer to

A relational query asks for the rows of a table with one object for each joined table, and reads
them with the fields that the table was found to have. What a record then has for a joined table is
its object, unless other columns of the table have the name of the reference field
(`Table.joined_of_findRelated`).
-/

namespace RecordMapping

namespace Session

variable {α β : Type}

/-- What is said of each result of a list of sessions is said of all of them, in order. -/
theorem Gives.map_of_mapM {γ : Type} {f : α → Session β} {g : β → γ} {g' : α → γ}
    (hf : ∀ a b, Gives (f a) b → g b = g' a) {l : List α} {bs : List β}
    (h : Gives (l.mapM f) bs) : bs.map g = l.map g' := by
  induction l generalizing bs with
  | nil =>
    cases gives_pure.1 h
    rfl
  | cons a rest ih =>
    rw [List.mapM_cons] at h
    obtain ⟨first, hfirst, h⟩ := h.of_bind
    obtain ⟨others, hothers, h⟩ := h.of_bind
    cases gives_pure.1 h
    rw [List.map_cons, List.map_cons, hf a first hfirst, ih hothers]

end Session

/-! ## The joined tables of a filter -/

/-- The join that a key of a filter becomes is along the field of that name, which is not the
identifier. -/
theorem Clause.name_of_item {fields : FieldSet} {name : String} {value : Value} {j : ReferenceJoin}
    (h : item fields name value = .ok (some (.join j))) : j.field.name = name ∧ name ≠ idName := by
  cases item_eq_ok_iff.1 h with
  | join hname hfield => exact ⟨(FieldSet.get?_eq_some_iff.1 hfield).2, hname⟩

/-- The joins of a compiled filter are along fields that it names, in its order. -/
theorem Clause.names_joins_sublist {fields : FieldSet} {filter : Record} {clause : Clause}
    (h : compile fields filter = .ok clause) :
    (clause.joins.map (·.field.name)).Sublist (Named.names filter) := by
  obtain ⟨items, hitems, hclause⟩ := bind_eq_ok.1 h
  cases hclause
  show ((((items.filterMap id).filterMap ClauseItem.join?)).map (·.field.name)).Sublist _
  clear h
  induction filter generalizing items with
  | nil =>
    cases hitems
    exact .slnil
  | cons p rest ih =>
    obtain ⟨name, value⟩ := p
    rw [List.mapM_cons] at hitems
    obtain ⟨first, hfirst, hitems⟩ := bind_eq_ok.1 hitems
    obtain ⟨others, hothers, hitems⟩ := bind_eq_ok.1 hitems
    cases hitems
    have hrest := ih others hothers
    -- only a join adds to the list, and it is along the field that the filter names here
    rcases first with _ | f | j
    · exact hrest.cons name
    · exact hrest.cons name
    · obtain rfl := (name_of_item hfirst).1
      exact hrest.cons_cons _

theorem PlannedJoin.map_name_placeAll (parent : String) (above : JoinKind) (next : Nat)
    (joins : List PlannedJoin) :
    (placeAll parent above next joins).map JoinedTable.name = joins.map (·.field.name) := by
  induction joins generalizing next with
  | nil => rfl
  | cons j rest ih =>
    rw [placeAll, List.map_cons, List.map_cons, ih, JoinedTable.name_eq, field_place]

/-- The joined tables of a plan have names that its filter has, in the same order, and none of them
is the identifier. -/
theorem Plan.names_joinedTables {registry : Registry} {table : String} {fields : FieldSet}
    {filter : Record} {plan : Plan} (h : (make registry table fields filter).Gives plan) :
    plan.fields = fields ∧
      (plan.joinedTables.map JoinedTable.name).Sublist (Named.names filter) ∧
        idName ∉ plan.joinedTables.map JoinedTable.name := by
  obtain ⟨clause, hclause, h⟩ := h.of_bind
  obtain ⟨joins, hjoins, h⟩ := h.of_bind
  cases Session.gives_pure.1 h
  have hcompile := hclause.of_ofExcept
  have hnames : (PlannedJoin.placeAll rootAlias .inner 1 joins).map JoinedTable.name
      = clause.joins.map (·.field.name) := by
    rw [PlannedJoin.map_name_placeAll]
    refine Session.Gives.map_of_mapM ?_ hjoins
    intro reference j hj
    rw [(of_gives_join hj).1]
  rw [joinedTables, hnames]
  refine ⟨rfl, Clause.names_joins_sublist hcompile, ?_⟩
  intro hid
  obtain ⟨reference, hreference, hname⟩ := List.mem_map.1 hid
  obtain ⟨name, value, hitem⟩ := (Clause.exists_item_of_mem hcompile).2 reference hreference
  obtain ⟨rfl, hne⟩ := Clause.name_of_item hitem
  exact hne hname

namespace Table

/-- A relational query that is answered with rows has found the fields of the table and made a plan
with them; it has sent the statement of the plan, and reads the rows. -/
theorem answered_of_runs_findRelated {t : Table} {registry : Registry} {filter : Record}
    {caches caches' : Caches} {events : List Event} {outcome : Except Error (List Record)}
    (hruns : (t.findRelated registry filter).Runs caches events outcome caches')
    {request : Request} {rows : List Row} (hselect : request.statement.isSchema = false)
    (hrows : .fetched request (.ok rows) ∈ events) :
    ∃ before after fields between plan, events = before ++ after ∧
      t.live.Runs caches before (.ok (some fields)) between ∧
      (Plan.make registry t.name fields filter).Gives plan ∧
      request.statement = .select plan.select ∧
      outcome = rows.mapM (decode fields plan.query.embedded) := by
  rw [findRelated] at hruns
  obtain ⟨before, after, fields, between, _, planned, hevents, hlive, hmade, hstatement, houtcome⟩ :=
    (runs_listing hruns).of_rows t.sends_live (t.sends_relatedPlan registry filter) hselect hrows
  obtain ⟨plan, hmake, rfl⟩ := of_gives_relatedPlan ⟨_, _, _, hmade⟩
  exact ⟨before, after, fields, between, plan, hevents, hlive, hmake, hstatement, houtcome⟩

/-- How a row is read that has the columns of the table of a plan and then one object for each
joined table. A record that is read from it has what the object holds, if as many of the columns
have its name as are taken before the object, and otherwise what is at its place among these
columns. It cannot be read only because of a column or an object that does not fit. -/
structure ReadsObjects (plan : Plan) (columns : List String) (row : Row)
    (root objects : Named Datum) : Prop where
  carries : ∀ record, decode plan.fields plan.query.embedded row = .ok record →
    ∀ j ∈ plan.joinedTables, j.Carries
      (if plan.fields.objectPlace j.field = columns.count j.name then objects.get? j.name
        else (root.all j.name)[plan.fields.objectPlace j.field]?) record
  unreadable : ∀ e, decode plan.fields plan.query.embedded row = .error e →
    JoinedTable.Unreadable plan.fields plan.joinedTables row e

/-- A relational query that is answered with rows reads them with the fields of the columns that
were last reported, what is declared laid over them, and the objects in them by their places. -/
theorem joined_of_findRelated {operations : List Operation} {history : List Event} {caches : Caches}
    (hhistory : History operations history caches) {t : Table} {registry : Registry}
    {filter : Record} (hfilter : (Named.names filter).Nodup) {events : List Event}
    {outcome : Except Error (List Record)} {caches' : Caches}
    (hruns : (t.findRelated registry filter).Runs caches events outcome caches')
    {request : Request} {rows : List Row} (hselect : request.statement.isSchema = false)
    (hrows : .fetched request (.ok rows) ∈ events) :
    ∃ before after columns plan, events = before ++ after ∧
      LastReport (history ++ before) t.handle columns ∧
      plan.fields = (fieldsOfColumns columns).overlay t.declared ∧
      (Plan.make registry t.name plan.fields filter).Gives plan ∧
      request.statement = .select plan.select ∧
      outcome = rows.mapM (decode plan.fields plan.query.embedded) ∧
      ∀ row root objects, row.columns = root ++ objects →
        Named.names root = columns.map ColumnInfo.name →
        Named.names objects = plan.joinedTables.map JoinedTable.name →
          ReadsObjects plan (columns.map ColumnInfo.name) row root objects := by
  obtain ⟨before, after, fields, between, plan, hevents, hlive, hmake, hstatement, houtcome⟩ :=
    answered_of_runs_findRelated hruns hselect hrows
  obtain ⟨found, hfound, rfl⟩ := kept_of_runs_live hlive
  obtain ⟨columns, hreport, rfl⟩ := (t.keeps_live hhistory.fresh hlive).lastReport hfound
  obtain ⟨hfields, hsublist, hid⟩ := Plan.names_joinedTables hmake
  have hnames : (plan.joinedTables.map JoinedTable.name).Nodup := hsublist.nodup hfilter
  have hrooted : ∀ j ∈ plan.joinedTables, j.field ∈ plan.fields.specs :=
    (Plan.rooted_of_gives_make hmake).1
  have hid : ∀ j ∈ plan.joinedTables, j.name ≠ idName := by
    intro j hj h
    exact hid (h ▸ List.mem_map_of_mem hj)
  rw [← hfields] at hmake houtcome
  refine ⟨before, after, columns, plan, hevents, hreport, hfields, hmake, hstatement, houtcome, ?_⟩
  intro row root objects hrow hroot hobjects
  constructor
  case carries =>
    intro record hrecord j hj
    have hcarries := JoinedTable.carries_of_decode hnames hrecord hj (hrooted j hj) (hid j hj)
    rwa [hrow, JoinedTable.getElem?_all_objectPlace hroot hobjects hnames] at hcarries
  case unreadable =>
    intro e he
    exact JoinedTable.unreadable_of_decode hnames hrooted hid he

/-- A table of edges, each to a person. -/
def edges : Table :=
  ⟨0, "edges", ⟨[{ name := "one", type := .reference, target := some "people" }], by decide⟩⟩

/-- The table of people that the edges refer to. -/
def persons : Table := ⟨1, "people", ⟨[{ name := "name", type := .string }], by decide⟩⟩

/-- The columns of the table of edges, if it has the given ones besides those that it needs. -/
def edgeColumns (columns : List ColumnInfo) : List ColumnInfo :=
  ⟨idName, "INTEGER", true⟩ :: columns ++ [⟨"one::reference", "INTEGER", false⟩]

/-- The columns of the table of people. -/
def personColumns : List ColumnInfo := [⟨idName, "INTEGER", true⟩, ⟨"name", "TEXT", false⟩]

/-- An edge to a person, with the given values in the other columns of its table. -/
def edgeRow (values : Named Datum) : Row :=
  ⟨"0", (idName, .int64 (some 1)) :: values ++ [("one::reference", .int64 (some 7)),
    ("one", .text (some "\x7b\"id\":7,\"name\":\"Ann\"\x7d"))]⟩

/-- What the engine replies where the table of edges has some other columns, with the given values
in its one row. -/
def edgeReplies (columns : List ColumnInfo) (values : Named Datum) : List Reply :=
  [.rows ((edgeColumns columns).map ColumnInfo.row), .rows (personColumns.map ColumnInfo.row),
    .rows [edgeRow values]]

/-- What finding the edges, each with its person, gives on these replies. -/
def edgesFound (columns : List ColumnInfo) (values : Named Datum) :
    Played (Except Error (List Record) × Caches) :=
  (edges.findRelated ⟨[persons]⟩ [("one", .null)]).play (fun _ => none) (edgeReplies columns values)

/-- What is sent for it, with the replies. -/
def edgeEvents (columns : List ColumnInfo) (values : Named Datum) : List Event :=
  Dialogue.events ((edges.findRelated ⟨[persons]⟩ [("one", .null)]).run fun _ => none)
    (edgeReplies columns values)

/-- Whether an event is the answer to a statement that is not on a schema, with the given rows. -/
def answers (rows : List Row) : Event → Bool
  | .fetched request (.ok result) => !request.statement.isSchema && decide (result = rows)
  | _ => false

theorem joined_of_findRelated_edges :
    ∃ before after columns plan, edgeEvents [] [] = before ++ after ∧
      LastReport before 0 columns ∧
      plan.fields = (fieldsOfColumns columns).overlay edges.declared ∧
      (Plan.make ⟨[persons]⟩ "edges" plan.fields [("one", .null)]).Gives plan ∧
      (edgesFound [] []).result.1 = [edgeRow []].mapM (decode plan.fields plan.query.embedded) ∧
      ∀ root objects, (edgeRow []).columns = root ++ objects →
        Named.names root = columns.map ColumnInfo.name →
        Named.names objects = plan.joinedTables.map JoinedTable.name →
          ReadsObjects plan (columns.map ColumnInfo.name) (edgeRow []) root objects := by
  have hanswered : (edgeEvents [] []).any (answers [edgeRow []]) = true := by decide +kernel
  obtain ⟨e, he, hanswers⟩ := List.any_eq_true.1 hanswered
  unfold answers at hanswers
  split at hanswers
  · next request result =>
    obtain ⟨hschema, hresult⟩ := Bool.and_eq_true_iff.1 hanswers
    obtain rfl := of_decide_eq_true hresult
    obtain ⟨before, after, columns, plan, hevents, hreport, hfields, hmake, _, houtcome, hrows⟩ :=
      joined_of_findRelated .nil (by decide) (Session.runs_play _ _ (edgeReplies [] []))
        (by simpa using hschema) he
    exact ⟨before, after, columns, plan, hevents, hreport, hfields, hmake, houtcome, hrows _⟩
  · cases hanswers

/-- The identifiers of the persons that the found edges have. -/
def personIds (found : Except Error (List Record)) : Option (List (Option Int64)) :=
  found.toOption.map fun records => records.map fun record => (record.get? "one").bind Value.id?

/-- A column of the table that belongs to no field is taken for the person, if it has the name of
the reference field; without it the same object is read. -/
theorem joined_of_findRelated_shadowed :
    personIds (edgesFound [] []).result.1 = some [some 7] ∧
      personIds (edgesFound [⟨"one", "BLOB", false⟩] [("one", .text none)]).result.1
        = some [none] := by
  decide +kernel

end Table

end RecordMapping

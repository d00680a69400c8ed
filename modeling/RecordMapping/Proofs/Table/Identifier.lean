import RecordMapping.Proofs.Field.Set
import RecordMapping.Proofs.Session.Parallel
import RecordMapping.Proofs.Table.Writing

/-!
# The identifier of a record that is written

What a record has under the name of the identifier is left out of what a write requires of a table,
and it is stored only where the table has a field of this name. Where it has none, records that are
the same without the identifier are written by the same statements and with the same result
(`Table.play_eq_of_withoutId_eq`).
-/

namespace RecordMapping

/-! ## Records without the identifier -/

/-- A record without what it has under the name of the identifier. -/
def Record.withoutId (record : Record) : Record := record.filter (·.1 ≠ idName)

variable {a b : Record}

theorem Record.get?_withoutId (record : Record) {name : String} (h : name ≠ idName) :
    Named.get? record.withoutId name = record.get? name := by
  unfold withoutId
  induction record with
  | nil => rfl
  | cons p rest ih =>
    obtain ⟨n, v⟩ := p
    rw [Named.get?_cons]
    by_cases hn : n = idName
    · have hne : n ≠ name := fun heq => h (heq.symm.trans hn)
      rw [List.filter_cons_of_neg (by simpa using hn), ih, if_neg hne]
    · rw [List.filter_cons_of_pos (by simpa using hn), Named.get?_cons, ih]

/-- The identifier calls for no field. -/
theorem FieldSet.deduce_withoutId (record : Record) :
    deduce record.withoutId = deduce record := by
  have hspecs : ∀ record : Record,
      (record.withoutId.mapM fun p => deduceSpec p.1 p.2).map (List.filterMap id)
        = (record.mapM fun p => deduceSpec p.1 p.2).map (List.filterMap id) := by
    intro record
    unfold Record.withoutId
    induction record with
    | nil => rfl
    | cons p rest ih =>
      obtain ⟨name, value⟩ := p
      by_cases hname : name = idName
      · have hspec : deduceSpec name value = .ok none := if_pos hname
        rw [List.filter_cons_of_neg (by simpa using hname), ih, List.mapM_cons, hspec]
        cases List.mapM (fun p : String × Value => deduceSpec p.1 p.2) rest <;> rfl
      · rw [List.filter_cons_of_pos (by simpa using hname), List.mapM_cons, List.mapM_cons]
        cases deduceSpec name value with
        | error e => rfl
        | ok spec =>
          -- what the first value calls for is put before what the others call for
          have hcons : ∀ x : Except Error (List (Option FieldSpec)),
              (Except.ok spec >>= fun first => x >>= fun more => pure (first :: more)).map
                  (List.filterMap id)
                = (x.map (List.filterMap id)).map (spec.toList ++ ·) := by
            intro x
            cases x with
            | error e => rfl
            | ok more => cases spec <;> rfl
          rw [hcons, hcons, ih]
  have hdeduce : ∀ record : Record, deduce record
      = ((record.mapM fun p => deduceSpec p.1 p.2).map (List.filterMap id)).map ofList := by
    intro record
    unfold deduce
    cases List.mapM (fun p : String × Value => deduceSpec p.1 p.2) record <;> rfl
  rw [hdeduce, hdeduce, hspecs]

/-- Records that are the same without the identifier require the same fields. -/
theorem Table.requiredFor_eq_of_withoutId_eq (t : Table) (h : a.withoutId = b.withoutId) :
    t.requiredFor a = t.requiredFor b := by
  have hfilter : ∀ record : Record,
      Record.withoutId (record.filter fun p => !t.declared.contains p.1)
        = record.withoutId.filter fun p => !t.declared.contains p.1 := by
    intro record
    unfold Record.withoutId
    rw [List.filter_filter, List.filter_filter]
    exact List.filter_congr fun p _ => Bool.and_comm _ _
  unfold requiredFor
  rw [← FieldSet.deduce_withoutId, hfilter, h, ← hfilter, FieldSet.deduce_withoutId]

/-- Where no field is named like the identifier, it is not encoded. -/
theorem encode_eq_of_withoutId_eq {fields : FieldSet} (hid : idName ∉ fields.names)
    (h : a.withoutId = b.withoutId) : encode fields a = encode fields b := by
  -- every field looks up another name
  have hget : ∀ f ∈ fields.specs, a.get? f.name = b.get? f.name := by
    intro f hf
    have hname : f.name ≠ idName := fun hname => hid (hname ▸ List.mem_map_of_mem hf)
    rw [← Record.get?_withoutId a hname, ← Record.get?_withoutId b hname, h]
  unfold encode
  rw [List.filterMap_congr fun f hf => congrArg (Option.map (f, ·)) (hget f hf)]

/-! ## Fields that are named like the identifier -/

/-- A table has a field that is named like the identifier exactly if the name of one of its columns
is that of the identifier, marked with a type. -/
theorem idName_mem_names_fieldsOfColumns {columns : List ColumnInfo} :
    idName ∈ (fieldsOfColumns columns).names ↔
      ∃ column ∈ columns, ∃ type : FieldType, column.name = idName ++ "::" ++ type.tag := by
  have hfield : ∀ column : ColumnInfo, (∃ f, columnField? column = some f ∧ f.name = idName) ↔
      ∃ type : FieldType, column.name = idName ++ "::" ++ type.tag := by
    intro column
    constructor
    · rintro ⟨f, hf, hname⟩
      unfold columnField? at hf
      split at hf
      · cases hf
      rename_i hid
      rcases hsplit : splitColumn column.name with ⟨name, _ | type⟩
      · -- a column that keeps its name is not the identifier
        have hkeeps := eq_of_splitColumn_none hsplit
        simp only [hsplit] at hf
        split at hf <;> cases hf <;> exact absurd (hkeeps.symm.trans hname) hid
      · simp only [hsplit] at hf
        cases hf
        exact ⟨type, hname ▸ eq_of_splitColumn_some hsplit⟩
    · rintro ⟨type, hname⟩
      have hid : column.name ≠ idName := by
        rw [hname]
        cases type <;> decide
      unfold columnField?
      rw [if_neg hid, hname, splitColumn_tagged]
      exact ⟨_, rfl, rfl⟩
  rw [mem_names_fieldsOfColumns]
  simp only [hfield]

/-- The rows that are fetched on recorded replies are among them. -/
theorem Dialogue.mem_of_fetched {α : Type} {d : Dialogue α} {replies : List Reply}
    {request : Request} {rows : List Row}
    (h : .fetched request (.ok rows) ∈ d.events replies) : .rows rows ∈ replies := by
  induction d generalizing replies with
  | done a => cases h
  | fetch request' next ih =>
    rcases List.mem_cons.1 h with heq | h
    · -- only recorded rows are received as rows
      injection heq with _ hreply
      cases replies with
      | nil => cases hreply
      | cons reply rest =>
        cases reply with
        | rows result =>
          cases hreply
          exact List.mem_cons_self
        | count | failure _ => cases hreply
    · exact List.mem_of_mem_tail (ih _ h)
  | execute request' next ih =>
    rcases List.mem_cons.1 h with heq | h
    · cases heq
    · exact List.mem_of_mem_tail (ih _ h)

/-- Ensuring gives the fields of the table that is kept, or those of columns that were reported
meanwhile. -/
theorem Migrator.Course.kept_or_reported {m : Migrator} {required : FieldSet}
    {kept kept' : Option Sighting} {events : List Event} {live : FieldSet}
    (h : m.Course required kept events (.ok live) kept') :
    kept = some ⟨true, live⟩ ∨ ∃ request rows columns, .fetched request (.ok rows) ∈ events ∧
      reportedColumns (.ok rows) = some columns ∧ live = fieldsOfColumns columns := by
  generalize houtcome : (Except.ok live : Except Error FieldSet) = outcome at h
  cases h with
  | unknown => cases houtcome
  | provided hinquiry _ =>
    cases houtcome
    generalize hfound : (Except.ok ⟨true, live⟩ : Except Error Sighting) = found at hinquiry
    cases hinquiry with
    | kept seen =>
      cases hfound
      exact .inl rfl
    | asked reply =>
      obtain ⟨rows, columns, rfl, hcolumns, _, hlive⟩ := columns_of_reported_present hfound.symm
      exact .inr ⟨_, rows, columns, List.mem_singleton_self _, hcolumns, hlive⟩
  | changed _ _ changes _ reply =>
    obtain ⟨found, hreport, hjudged⟩ := bind_eq_ok.1 houtcome.symm
    obtain ⟨rfl, _⟩ := judgement_eq_ok hjudged
    obtain ⟨rows, columns, rfl, hcolumns, _, hlive⟩ := columns_of_reported_present hreport
    exact .inr ⟨columnsRequest m.handle m.table, rows, columns,
      List.mem_append_right _ (List.mem_singleton_self _), hcolumns, hlive⟩

/-! ## Preparing a write -/

namespace Session

variable {α β : Type}

/-- A statement that is sent is the one that is asked for. -/
theorem sends_rows {p : Sent → Prop} {sender : Handle} {statement : Statement}
    (h : ∀ request, request.statement = statement → p (.fetch request)) :
    (rows sender statement).Sends p := by
  intro caches
  cases hquery : statement.query with
  | ok query =>
    rw [run_rows hquery]
    exact ⟨h _ rfl, fun _ => trivial⟩
  | error e =>
    have hof : Request.of sender statement = .error e := by
      unfold Request.of
      split
      · next query hquery' => cases hquery.symm.trans hquery'
      · next e' hquery' =>
        cases hquery.symm.trans hquery'
        rfl
    unfold rows
    rw [hof]
    trivial

end Session

namespace Table

variable {t : Table} {record : Record} {caches : Caches} {replies : List Reply}

/-- A write whose values have no types is not prepared, and sends nothing. -/
theorem play_prepare_of_untyped {e : Error} (h : t.requiredFor record = .error e) :
    (t.prepare record).play caches replies = ⟨(.error e, caches), [], replies⟩ := by
  unfold prepare
  rw [h]
  rfl

/-- A write is prepared by ensuring what it requires, and then by storing its values. -/
theorem play_prepare {required : FieldSet} (h : t.requiredFor record = .ok required) :
    (t.prepare record).play caches replies =
      let ensured := (t.ensure required).play caches replies
      ⟨(ensured.result.1 >>= fun fields => (encode fields record).map (fields, ·),
          ensured.result.2), ensured.sent, ensured.unused⟩ := by
  have hprepare : t.prepare record = t.ensure required >>= fun fields =>
      Session.ofExcept (encode fields record) >>= fun values => pure (fields, values) := by
    unfold prepare
    rw [h]
    rfl
  rw [hprepare, Session.play_bind]
  rcases (t.ensure required).play caches replies with ⟨⟨e | fields, kept⟩, sent, unused⟩
  · rfl
  · -- storing the values sends nothing
    have hstored : (Session.ofExcept (encode fields record) >>= fun values =>
        (pure (fields, values) : Session _)).play kept unused
          = ⟨((encode fields record).map (fields, ·), kept), [], unused⟩ := by
      cases encode fields record <;> rfl
    dsimp only
    rw [hstored, List.append_nil]
    rfl

/-- Ensuring what a record requires gives no field that is named like the identifier. -/
def KeepsIdApart (t : Table) (record : Record) (caches : Caches) (replies : List Reply) : Prop :=
  ∀ required fields, t.requiredFor record = .ok required →
    ((t.ensure required).play caches replies).result.1 = .ok fields → idName ∉ fields.names

/-- This is so where neither what is declared nor what is kept has such a field, and no reply reports
a column that is read as one. -/
theorem keepsIdApart_of_reports (hdeclared : idName ∉ t.declared.names)
    (hkept : ∀ fields, caches t.handle = some ⟨true, fields⟩ → idName ∉ fields.names)
    (hreports : ∀ rows columns, .rows rows ∈ replies → reportedColumns (.ok rows) = some columns →
      ∀ column ∈ columns, ∀ type : FieldType, column.name ≠ idName ++ "::" ++ type.tag) :
    t.KeepsIdApart record caches replies := by
  intro required fields _ hensured
  have hruns := Session.runs_play (t.ensure required) caches replies
  rw [hensured] at hruns
  obtain ⟨found, kept, hcourse, -, hfields⟩ := runs_ensure.1 hruns
  obtain ⟨live, rfl, rfl⟩ := map_eq_ok.1 hfields.symm
  -- the declared fields are laid over those of the table
  suffices hlive : idName ∉ live.names by
    intro hmem
    obtain ⟨f, hf, hname⟩ := List.mem_map.1 hmem
    rcases FieldSet.mem_overlay.1 hf with ⟨d, hd, rfl⟩ | ⟨hf, _⟩
    · exact hdeclared (List.mem_map.2 ⟨d, hd, hname⟩)
    · exact hlive (hname ▸ List.mem_map_of_mem hf)
  rcases hcourse.kept_or_reported with hkeeps | ⟨request, rows, columns, hevent, hcolumns, rfl⟩
  · exact hkept live hkeeps
  · rw [idName_mem_names_fieldsOfColumns]
    rintro ⟨column, hcolumn, type, hname⟩
    exact hreports rows columns (Dialogue.mem_of_fetched hevent) hcolumns column hcolumn type hname

/-- Then records that are the same without the identifier are prepared in the same way. -/
theorem play_prepare_eq (h : a.withoutId = b.withoutId)
    (hid : t.KeepsIdApart a caches replies) :
    (t.prepare a).play caches replies = (t.prepare b).play caches replies := by
  have hrequired := t.requiredFor_eq_of_withoutId_eq h
  cases ha : t.requiredFor a with
  | error e => rw [play_prepare_of_untyped ha, play_prepare_of_untyped (hrequired ▸ ha)]
  | ok required =>
    rw [play_prepare ha, play_prepare (hrequired ▸ ha)]
    have hfields := hid required
    dsimp only
    cases hensured : ((t.ensure required).play caches replies).result.1 with
    | error e => rfl
    | ok fields =>
      have hencode := encode_eq_of_withoutId_eq (hid required fields ha hensured) h
      show Played.mk ((encode fields a).map (fields, ·), _) _ _
        = Played.mk ((encode fields b).map (fields, ·), _) _ _
      rw [hencode]

/-- What is prepared is what the fields store of the record, and none of them is named like the
identifier. -/
theorem encode_of_play_prepare (hid : t.KeepsIdApart record caches replies) {fields : FieldSet}
    {values : Named Param}
    (h : ((t.prepare record).play caches replies).result.1 = .ok (fields, values)) :
    idName ∉ fields.names ∧ encode fields record = .ok values := by
  cases hrequired : t.requiredFor record with
  | error e =>
    rw [play_prepare_of_untyped hrequired] at h
    cases h
  | ok required =>
    rw [play_prepare hrequired] at h
    obtain ⟨fields', hensured, hencode⟩ := bind_eq_ok.1 h
    obtain ⟨values', hvalues, hpair⟩ := map_eq_ok.1 hencode
    cases hpair
    exact ⟨hid required fields hrequired hensured, hvalues⟩

end Table

/-! ## What is assigned -/

/-- The columns that a statement assigns, with their parameters. -/
def Statement.assigned : Statement → Named Param
  | .insert insertion => insertion.values
  | .update change => change.values
  | _ => []

/-- What is sent assigns nothing but the values, under their columns. -/
def Sent.AssignsFrom (values : Named Param) (sent : Sent) : Prop :=
  sent.request.statement.assigned ⊆ values

/-- A statement on a schema assigns no column. -/
theorem Sent.IsSchema.assignsFrom {sent : Sent} (h : sent.IsSchema) (values : Named Param) :
    sent.AssignsFrom values := by
  unfold AssignsFrom
  unfold IsSchema at h
  cases hstatement : sent.request.statement with
  | tableInfo _ | createTable _ _ | addColumn _ _ => exact List.nil_subset values
  | select _ | insert _ | update _ | custom _ _ =>
    rw [hstatement] at h
    cases h

/-- A statement assigns what it says. -/
theorem Session.assignsFrom_rows {sender : Handle} {statement : Statement} {values : Named Param}
    (h : statement.assigned ⊆ values) :
    (Session.rows sender statement).Sends (Sent.AssignsFrom values) := by
  refine Session.sends_rows fun request hrequest => ?_
  show request.statement.assigned ⊆ values
  rw [hrequest]
  exact h

namespace Table

variable {t : Table} {record : Record} {caches : Caches} {replies : List Reply}

theorem sends_insertRow (fields : FieldSet) (values : Named Param) :
    (t.insertRow fields values).Sends (Sent.AssignsFrom values) :=
  Session.Sends.bind (Session.assignsFrom_rows (List.Subset.refl values)) fun _ =>
    (Session.closed_sends _).ofExcept _

theorem sends_updateRow (n : Int64) (fields : FieldSet) (values : Named Param) :
    (t.updateRow n fields values).Sends (Sent.AssignsFrom values) := by
  have hclosed := Session.closed_sends (Sent.AssignsFrom values)
  unfold updateRow
  split
  · -- the row is only read
    refine closed_findRow hclosed (fun caches => ?_) (fun select => ?_) n
    · exact (t.sends_live caches).mono fun sent hsent => hsent.assignsFrom values
    · exact Session.assignsFrom_rows (List.nil_subset values)
  · refine Session.Sends.bind (Session.assignsFrom_rows ?_) fun rows => hclosed.ofExcept _
    exact List.Subset.refl values

/-- A column is assigned what a record has for a field that is not named like the identifier. -/
def Assigns (record : Record) (column : String × Param) : Prop :=
  ∃ (f : FieldSpec) (value : Value), f.name ≠ idName ∧ record.get? f.name = some value ∧
    column.1 = f.column ∧ f.store value = .ok column.2

/-- What is encoded assigns columns in this way, where no field is named like the identifier. -/
theorem assigns_of_encode {fields : FieldSet} (hid : idName ∉ fields.names) {values : Named Param}
    (h : encode fields record = .ok values) : ∀ column ∈ values, Assigns record column := by
  intro column hcolumn
  obtain ⟨⟨f, value⟩, hgiven, hstore⟩ := exists_of_mem_mapM h hcolumn
  obtain ⟨hf, hvalue⟩ := FieldSet.mem_given.1 hgiven
  obtain ⟨param, hparam, rfl⟩ := map_eq_ok.1 hstore
  exact ⟨f, value, fun hname => hid (hname ▸ List.mem_map_of_mem hf), hvalue, rfl, hparam⟩

/-- A write that goes on from its preparation assigns no column from the identifier. -/
theorem assigns_of_play_prepare {α : Type} (hid : t.KeepsIdApart record caches replies)
    {f : FieldSet × Named Param → Session α}
    (hf : ∀ fields values, (f (fields, values)).Sends (Sent.AssignsFrom values)) :
    ∀ sent ∈ ((t.prepare record >>= f).play caches replies).sent,
      ∀ column ∈ sent.request.statement.assigned, Assigns record column := by
  have hschema : ∀ sent ∈ ((t.prepare record).play caches replies).sent, sent.IsSchema :=
    (t.sends_prepare record caches).of_play replies
  have hencode : ∀ fields values,
      ((t.prepare record).play caches replies).result.1 = .ok (fields, values) →
        idName ∉ fields.names ∧ encode fields record = .ok values :=
    fun fields values => encode_of_play_prepare hid
  rw [Session.play_bind]
  generalize (t.prepare record).play caches replies = prepared at hschema hencode
  obtain ⟨⟨e | ⟨fields, values⟩, kept⟩, first, unused⟩ := prepared
  · intro sent hsent column hcolumn
    exact absurd ((hschema sent hsent).assignsFrom [] hcolumn) List.not_mem_nil
  · obtain ⟨hnames, hvalues⟩ := hencode fields values rfl
    intro sent hsent column hcolumn
    rcases List.mem_append.1 hsent with hsent | hsent
    · exact absurd ((hschema sent hsent).assignsFrom [] hcolumn) List.not_mem_nil
    · have hassigned := (hf fields values kept).of_play unused sent hsent
      exact assigns_of_encode hnames hvalues column (hassigned hcolumn)

/-- Where ensuring gives no field that is named like the identifier, records that are the same
without the identifier are inserted by the same statements and with the same result, and the same
holds for changes. No column is assigned from the identifier. -/
theorem play_eq_of_withoutId_eq (t : Table) {a b : Record} (h : a.withoutId = b.withoutId)
    (caches : Caches) (replies : List Reply) (hid : t.KeepsIdApart a caches replies) :
    ((t.insert a).play caches replies = (t.insert b).play caches replies ∧
      ∀ sent ∈ ((t.insert a).play caches replies).sent,
        ∀ column ∈ sent.request.statement.assigned, Assigns a column) ∧
    ∀ id, (t.update id a).play caches replies = (t.update id b).play caches replies ∧
      ∀ sent ∈ ((t.update id a).play caches replies).sent,
        ∀ column ∈ sent.request.statement.assigned, Assigns a column := by
  -- both writes go on in the same way once they are prepared
  have hprepare := play_prepare_eq h hid
  refine ⟨⟨?_, ?_⟩, fun id => ?_⟩
  · rw [insert, insert, Session.play_bind, Session.play_bind, hprepare]
  · rw [insert]
    exact assigns_of_play_prepare hid fun fields values => sends_insertRow fields values
  · cases hlookup : id.lookupId? with
    | none =>
      rw [update_eq_pure hlookup, update_eq_pure hlookup]
      exact ⟨rfl, fun sent hsent => absurd hsent List.not_mem_nil⟩
    | some n =>
      rw [update_eq hlookup, update_eq hlookup]
      refine ⟨?_, ?_⟩
      · rw [Session.play_bind, Session.play_bind, hprepare]
      · exact assigns_of_play_prepare hid fun fields values => sends_updateRow n fields values

/-- The row that the engine gives for an inserted person. -/
def insertedPerson : Row := ⟨"0", [(idName, .int64 (some 1)), ("age", .double (some (.ofInt 5)))]⟩

/-- What the engine replies to the insertion. -/
def insertionReplies : List Reply :=
  [.rows (History.peopleColumnsWithAge.map ColumnInfo.row), .rows [insertedPerson]]

/-- A person is inserted in the same way with an identifier in front and with another at the end. -/
theorem play_eq_of_withoutId_eq_people :
    (History.people.insert [(idName, .integer 9), ("age", .integer 5)]).play (fun _ => none)
        insertionReplies
      = (History.people.insert [("age", .integer 5), (idName, .boolean true)]).play (fun _ => none)
          insertionReplies := by
  have hsame : Record.withoutId [(idName, .integer 9), ("age", .integer 5)]
      = Record.withoutId [("age", .integer 5), (idName, .boolean true)] := rfl
  have hapart : History.people.KeepsIdApart [(idName, .integer 9), ("age", .integer 5)]
      (fun _ => none) insertionReplies := by
    refine keepsIdApart_of_reports (by decide) (fun _ h => nomatch h) ?_
    intro rows columns hrows hcolumns
    rcases List.mem_pair.1 hrows with hrows | hrows
    · obtain rfl : History.peopleColumnsWithAge = columns := by
        cases hrows
        exact Option.some.inj hcolumns
      intro column hcolumn type
      revert column
      cases type <;> decide
    · -- an inserted row is not the report of a column
      cases hrows
      cases hcolumns
  exact (play_eq_of_withoutId_eq History.people hsame (fun _ => none) insertionReplies hapart).1.1

/-- The columns of a table with one that is read as a field named like the identifier. -/
def taggedIdColumns : List ColumnInfo :=
  [⟨idName, "INTEGER", true⟩, ⟨"age", "REAL", false⟩, ⟨"id::boolean", "INTEGER", false⟩]

/-- Into this table a truth value under the name of the identifier is inserted. -/
theorem insert_assigns_taggedId :
    let assigned := fun record => ((History.people.insert record).play (fun _ => none)
      [.rows (taggedIdColumns.map ColumnInfo.row)]).sent.map (·.request.statement.assigned)
    Record.withoutId [(idName, .boolean true)] = Record.withoutId [] ∧
      assigned [(idName, .boolean true)] = [[], [("id::boolean", .bigInt (some 1))]] ∧
      assigned [] = [[], []] :=
  ⟨rfl, rfl, rfl⟩

end Table

end RecordMapping

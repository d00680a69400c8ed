import Mathlib.Logic.Relation
import RecordMapping.Proofs.Schema.Columns
import RecordMapping.Proofs.Schema.Migration

/-!
# One table and its writers

What an engine is taken to do with the statements on one table (`Answers`), and what other writers
may do to the table between them (`Write`): they create it or add columns, and never drop anything.
`Follows` says that the replies of a run are those of such an engine, with other writers at work
before each statement and after the last one.
-/

namespace RecordMapping

/-- The columns of a table, if it exists. -/
abbrev TableState := Option (List ColumnInfo)

namespace TableState

/-- The columns that are reported for a table; none if it does not exist. -/
def columns (s : TableState) : List ColumnInfo := s.getD []

/-- A table that exists has columns, and all of them are usable. -/
def Sound (s : TableState) : Prop :=
  ∀ columns, s = some columns → columns ≠ [] ∧ ∀ c ∈ columns, c.IsUsable

/-- Nothing is dropped on the way from one state to another. -/
def Extends (s s' : TableState) : Prop :=
  ∀ columns, s = some columns → ∃ columns', s' = some columns' ∧ columns ⊆ columns'

theorem Extends.refl (s : TableState) : s.Extends s :=
  fun columns h => ⟨columns, h, List.Subset.refl columns⟩

theorem Extends.trans {s s' s'' : TableState} (h : s.Extends s') (h' : s'.Extends s'') :
    s.Extends s'' := by
  intro columns hs
  obtain ⟨columns', hs', hsub⟩ := h columns hs
  obtain ⟨columns'', hs'', hsub'⟩ := h' columns' hs'
  exact ⟨columns'', hs'', List.Subset.trans hsub hsub'⟩

theorem sound_some {columns : List ColumnInfo} :
    Sound (some columns) ↔ columns ≠ [] ∧ ∀ c ∈ columns, c.IsUsable := by
  constructor
  · intro h
    exact h columns rfl
  · rintro h _ ⟨⟩
    exact h

theorem extends_some {columns : List ColumnInfo} {s : TableState} :
    Extends (some columns) s ↔ ∃ columns', s = some columns' ∧ columns ⊆ columns' := by
  constructor
  · intro h
    exact h columns rfl
  · rintro h _ ⟨⟩
    exact h

end TableState

/-! ## Writers and the engine -/

/-- What another writer may do to the table. -/
inductive Write : TableState → TableState → Prop where
  | create {columns : List ColumnInfo} (hsound : TableState.Sound (some columns)) :
      Write none (some columns)
  | add {columns : List ColumnInfo} {column : ColumnInfo}
      (hname : column.name ∉ columns.map ColumnInfo.name) (husable : column.IsUsable) :
      Write (some columns) (some (columns ++ [column]))

/-- What other writers may do to the table in any number of steps. -/
abbrev Writes : TableState → TableState → Prop := Relation.ReflTransGen Write

/-- The column that is added for a field. -/
def FieldSpec.columnInfo (field : FieldSpec) : ColumnInfo :=
  ⟨field.column, field.type.storageClass.keyword, false⟩

/-- The columns of a table that is created with some fields. -/
def createdColumns (fields : FieldSet) : List ColumnInfo :=
  ⟨idName, StorageClass.integer.keyword, true⟩ :: fields.specs.map FieldSpec.columnInfo

/-- What the engine does with a statement on the table: it reports the columns that there are, it
creates the table unless it exists, and it adds a column unless the table is absent or has one of
that name. A statement that fails changes nothing. -/
inductive Answers (table : String) : TableState → Event → TableState → Prop where
  | report {s : TableState} {request : Request} {reply : Except EngineError (List Row)}
      (hstatement : request.statement = .tableInfo table)
      (hreply : reportedColumns reply = some s.columns) :
      Answers table s (.fetched request reply) s
  | create {request : Request} {fields : FieldSet}
      (hstatement : request.statement = .createTable table fields) :
      Answers table none (.executed request (.ok ())) (some (createdColumns fields))
  | createRefused {columns : List ColumnInfo} {request : Request} {fields : FieldSet}
      {e : EngineError} (hstatement : request.statement = .createTable table fields) :
      Answers table (some columns) (.executed request (.error e)) (some columns)
  | add {columns : List ColumnInfo} {request : Request} {field : FieldSpec}
      (hstatement : request.statement = .addColumn table field)
      (hname : field.column ∉ columns.map ColumnInfo.name) :
      Answers table (some columns) (.executed request (.ok ()))
        (some (columns ++ [field.columnInfo]))
  | addRefused {s : TableState} {request : Request} {field : FieldSpec} {e : EngineError}
      (hstatement : request.statement = .addColumn table field)
      (hname : ∀ columns, s = some columns → field.column ∈ columns.map ColumnInfo.name) :
      Answers table s (.executed request (.error e)) s

/-- The replies of a run are those of the engine, with other writers at work between the
statements. -/
inductive Follows (table : String) : TableState → List Event → TableState → Prop where
  | done {s s' : TableState} (hwrites : Writes s s') : Follows table s [] s'
  | step {s s₁ s₂ s' : TableState} {event : Event} {events : List Event} (hwrites : Writes s s₁)
      (hanswer : Answers table s₁ event s₂) (hrest : Follows table s₂ events s') :
      Follows table s (event :: events) s'

theorem follows_nil {table : String} {s s' : TableState} : Follows table s [] s' ↔ Writes s s' := by
  constructor
  · intro h
    cases h with
    | done hwrites => exact hwrites
  · exact .done

theorem follows_cons {table : String} {s s' : TableState} {event : Event} {events : List Event} :
    Follows table s (event :: events) s' ↔
      ∃ s₁ s₂, Writes s s₁ ∧ Answers table s₁ event s₂ ∧ Follows table s₂ events s' := by
  constructor
  · intro h
    cases h with
    | step hwrites hanswer hrest => exact ⟨_, _, hwrites, hanswer, hrest⟩
  · rintro ⟨s₁, s₂, hwrites, hanswer, hrest⟩
    exact .step hwrites hanswer hrest

theorem follows_append {table : String} {s s' : TableState} {first second : List Event} :
    Follows table s (first ++ second) s' ↔
      ∃ s₁, Follows table s first s₁ ∧ Follows table s₁ second s' := by
  induction first generalizing s with
  | nil =>
    constructor
    · intro h
      exact ⟨s, .done .refl, h⟩
    · rintro ⟨s₁, hwrites, h⟩
      rw [follows_nil] at hwrites
      -- writers at the end of the first part are at work before the second
      cases h with
      | done hwrites' => exact .done (hwrites.trans hwrites')
      | step hwrites' hanswer hrest => exact .step (hwrites.trans hwrites') hanswer hrest
  | cons event first ih =>
    rw [List.cons_append, follows_cons]
    constructor
    · rintro ⟨s₁, s₂, hwrites, hanswer, hrest⟩
      obtain ⟨s₃, hfirst, hsecond⟩ := ih.1 hrest
      exact ⟨s₃, .step hwrites hanswer hfirst, hsecond⟩
    · rintro ⟨s₃, hfirst, hsecond⟩
      obtain ⟨s₁, s₂, hwrites, hanswer, hrest⟩ := follows_cons.1 hfirst
      exact ⟨s₁, s₂, hwrites, hanswer, ih.2 ⟨s₃, hrest, hsecond⟩⟩

/-! ## What is kept -/

/-- The types that columns are declared with are recognised. -/
theorem isSome_ofDeclared?_keyword (storage : StorageClass) :
    (StorageClass.ofDeclared? storage.keyword).isSome = true := by
  cases storage <;> decide

theorem FieldSpec.isUsable_columnInfo (field : FieldSpec) : field.columnInfo.IsUsable :=
  .inr (isSome_ofDeclared?_keyword _)

theorem sound_createdColumns (fields : FieldSet) :
    TableState.Sound (some (createdColumns fields)) := by
  rw [TableState.sound_some]
  refine ⟨List.cons_ne_nil _ _, ?_⟩
  intro c hc
  rcases List.mem_cons.1 hc with rfl | hc
  · exact .inl rfl
  · obtain ⟨field, _, rfl⟩ := List.mem_map.1 hc
    exact field.isUsable_columnInfo

/-- A column that is added leaves a table sound. -/
theorem TableState.Sound.add {columns : List ColumnInfo} (h : Sound (some columns))
    {column : ColumnInfo} (husable : column.IsUsable) : Sound (some (columns ++ [column])) := by
  rw [sound_some] at h ⊢
  refine ⟨by simp, ?_⟩
  intro c hc
  rcases List.mem_append.1 hc with hc | hc
  · exact h.2 c hc
  · rw [List.mem_singleton.1 hc]
    exact husable

/-- A column that is added drops nothing. -/
theorem TableState.extends_add (columns : List ColumnInfo) (column : ColumnInfo) :
    Extends (some columns) (some (columns ++ [column])) :=
  extends_some.2 ⟨_, rfl, List.subset_append_left _ _⟩

/-- From a state to a later one that is sound if the first was, without anything dropped. -/
structure Evolves (s s' : TableState) : Prop where
  sound : s.Sound → s'.Sound
  grows : s.Extends s'

namespace Evolves

theorem refl (s : TableState) : Evolves s s := ⟨id, .refl s⟩

theorem trans {s s' s'' : TableState} (h : Evolves s s') (h' : Evolves s' s'') : Evolves s s'' :=
  ⟨h'.sound ∘ h.sound, h.grows.trans h'.grows⟩

end Evolves

theorem Write.evolves {s s' : TableState} (h : Write s s') : Evolves s s' := by
  cases h with
  | create hsound =>
    refine ⟨fun _ => hsound, ?_⟩
    intro columns h
    cases h
  | add hname husable => exact ⟨fun h => h.add husable, TableState.extends_add _ _⟩

theorem Writes.evolves {s s' : TableState} (h : Writes s s') : Evolves s s' := by
  induction h with
  | refl => exact .refl s
  | tail _ hwrite ih => exact ih.trans hwrite.evolves

theorem Answers.evolves {table : String} {s s' : TableState} {event : Event}
    (h : Answers table s event s') : Evolves s s' := by
  cases h with
  | report | createRefused | addRefused => exact .refl _
  | create =>
    refine ⟨fun _ => sound_createdColumns _, ?_⟩
    intro columns h
    cases h
  | add => exact ⟨fun h => h.add (FieldSpec.isUsable_columnInfo _), TableState.extends_add _ _⟩

/-- Whatever happens, nothing is dropped, and the table stays sound. -/
theorem Follows.evolves {table : String} {s s' : TableState} {events : List Event}
    (h : Follows table s events s') : Evolves s s' := by
  induction h with
  | done hwrites => exact hwrites.evolves
  | step hwrites hanswer _ ih => exact (hwrites.evolves.trans hanswer.evolves).trans ih

/-! ## An answer to everything -/

/-- The row that reports a column. -/
def ColumnInfo.row (column : ColumnInfo) : Row :=
  ⟨"", [("name", .text (some column.name)), ("type", .text (some column.declaredType)),
    ("pk", .boolean (some column.primaryKey))]⟩

/-- Any columns can be reported. -/
theorem reportedColumns_rows (columns : List ColumnInfo) :
    reportedColumns (.ok (columns.map ColumnInfo.row)) = some columns := by
  have hrows : (columns.map ColumnInfo.row).mapM ColumnInfo.ofRow = .ok columns := by
    induction columns with
    | nil => rfl
    | cons column rest ih =>
      rw [List.map_cons, List.mapM_cons, ih]
      rfl
  unfold reportedColumns
  simp only [hrows]
  rfl

/-- The engine has an answer to each statement that creates the table or adds a column to it. -/
theorem exists_answers {m : Migrator} {request : Request} (hown : m.Own (.execute request))
    (s : TableState) : ∃ reply s', Answers m.table s (.executed request reply) s' := by
  rcases hown with ⟨fields, rfl⟩ | ⟨field, rfl⟩
  · cases s with
    | none => exact ⟨_, _, .create rfl⟩
    | some columns => exact ⟨.error (.root "table exists"), _, .createRefused rfl⟩
  · cases s with
    | none =>
      refine ⟨.error (.root "no such table"), none, .addRefused rfl ?_⟩
      intro columns h
      cases h
    | some columns =>
      by_cases hname : field.column ∈ columns.map ColumnInfo.name
      · refine ⟨.error (.root "duplicate column"), some columns, .addRefused rfl ?_⟩
        rintro _ ⟨⟩
        exact hname
      · exact ⟨_, _, .add rfl hname⟩

/-- The engine has an answer to whatever a migrator of the table sends, and so each of its dialogues
has a run, whatever other writers have done to the table. -/
theorem exists_follows {α : Type} {m : Migrator} {d : Dialogue α} (hsends : d.Sends m.Own)
    (s : TableState) : ∃ events a s', d.Runs events a ∧ Follows m.table s events s' := by
  induction d generalizing s with
  | done a => exact ⟨[], a, s, .done a, .done .refl⟩
  | fetch request next ih =>
    obtain ⟨hown, hnext⟩ := hsends
    -- the report changes nothing, so the rest goes on from the same columns
    obtain ⟨events, a, s', hruns, hfollows⟩ :=
      ih (.ok (s.columns.map ColumnInfo.row)) (hnext _) s
    cases hown
    exact ⟨_, a, s', .fetch _ hruns, .step .refl (.report rfl (reportedColumns_rows _)) hfollows⟩
  | execute request next ih =>
    obtain ⟨hown, hnext⟩ := hsends
    obtain ⟨reply, s₁, hanswer⟩ := exists_answers hown s
    obtain ⟨events, a, s', hruns, hfollows⟩ := ih reply (hnext reply) s₁
    exact ⟨_, a, s', .execute reply hruns, .step .refl hanswer hfollows⟩

end RecordMapping

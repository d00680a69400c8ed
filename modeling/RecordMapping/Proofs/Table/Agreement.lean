import RecordMapping.Proofs.Query.Flattening
import RecordMapping.Proofs.Query.Kind
import RecordMapping.Proofs.Query.Reference
import RecordMapping.Proofs.Session.Triple
import RecordMapping.Proofs.Table.Related

/-!
# Two ways to filter by a reference

A filter may ask for the identifier of the record that a reference refers to, or that it has none
(`Value.asked?`). Finding records compares the column of the reference for that; finding them with the
records that they refer to joins these and compares their identifiers. Where the first has a statement
the second has one too, unless a table cannot be joined, and the conditions of the two correspond to
each other in their order (`Table.agree_of_findPlan`).
-/

namespace RecordMapping

/-! ## What is asked for -/

/-- What a filter asks of the record that a reference refers to. -/
inductive Asked where
  | anything
  /-- That it has no identifier, as where there is no such record. -/
  | noIdentifier
  | identifier (id : Int64)
  deriving DecidableEq

/-- The condition for it, on the column that has the identifier. -/
def Asked.condition? (column : String) : Asked → Option Filter
  | .anything => none
  | .noIdentifier => some (.isNull none column)
  | .identifier id => some (.equal none column (.bigInt (some id)))

/-- What a value for the identifier asks. -/
def Value.idAsked? : Value → Option Asked
  | .null => some .noIdentifier
  | value => value.id?.map .identifier

/-- What a filter asks, if it names the identifier alone or nothing. -/
def Record.asked? : Record → Option Asked
  | [] => some .anything
  | [(name, value)] => if name = idName then value.idAsked? else none
  | _ => none

/-- What the value of a reference asks, however the identifier is wrapped in it. -/
def Value.asked? : Value → Option Asked
  | .null => some .anything
  | .record r => Record.asked? r
  | value => value.id?.map .identifier

/-- The condition that the value of a reference stands for, on the column that has the identifier. -/
def Value.condition? (column : String) (value : Value) : Option Filter :=
  value.asked?.bind (Asked.condition? column)

/-- Such a condition is on the table's own column, and can be written. -/
theorem Value.isLocal_of_condition? {column : String} {value : Value} {f : Filter}
    (h : value.condition? column = some f) : f.isLocal = true ∧ f.Alike f := by
  obtain ⟨asked, _, hf⟩ := Option.bind_eq_some_iff.1 h
  cases asked with
  | anything => cases hf
  | noIdentifier =>
    cases hf
    exact ⟨rfl, .isNull none column⟩
  | identifier id =>
    cases hf
    exact ⟨rfl, .equal none column ⟨_, rfl⟩ ⟨_, rfl⟩⟩

theorem Value.idAsked?_of_ne_null {value : Value} (h : value ≠ .null) :
    value.idAsked? = value.id?.map .identifier := by
  cases value with
  | null => exact absurd rfl h
  | _ => rfl

/-- The filter that a value of a reference becomes asks the same. -/
theorem Clause.asked?_of_referenceFilter {field : FieldSpec} {value : Value} {r : Record}
    (h : referenceFilter field value = .ok r) : Record.asked? r = value.asked? := by
  rcases referenceFilter_eq_ok h with ⟨rfl, rfl⟩ | rfl | ⟨hnull, hrecord, id, hid, rfl⟩
  · rfl
  · rfl
  · have hasked : value.asked? = value.id?.map .identifier := by
      cases value with
      | null => exact absurd rfl hnull
      | record r => cases hrecord
      | _ => rfl
    rw [hasked, hid]
    rfl

/-- A condition on the column of a reference stands for what is asked, and nothing else is
accepted. -/
theorem Table.localReference_eq_ok_iff {t : Table} {j : ReferenceJoin} {condition : Option Filter} :
    t.localReference j = .ok condition ↔
      ∃ asked, Record.asked? j.filter = some asked ∧
        condition = asked.condition? j.field.column := by
  unfold localReference Record.asked?
  rcases j.filter with _ | ⟨⟨name, value⟩, _ | _⟩
  · simp [Asked.condition?, eq_comm]
  · by_cases hname : name = idName
    · cases value with
      | null => simp [hname, Value.idAsked?, Asked.condition?, eq_comm]
      | _ =>
        simp only [hname, if_true, Value.idAsked?]
        split
        · next id hid => simp [hid, Asked.condition?, eq_comm]
        · next hid => simp [hid]
    · simp [hname]
  · simp

/-- A value for the identifier becomes the condition for what it asks. -/
theorem Clause.identifierFilter_of_idAsked {value : Value} {asked : Asked}
    (h : value.idAsked? = some asked) :
    ∃ f, identifierFilter value = .ok f ∧ asked.condition? idName = some f := by
  by_cases hnull : value = .null
  · subst hnull
    cases h
    exact ⟨_, rfl, rfl⟩
  · rw [Value.idAsked?_of_ne_null hnull] at h
    obtain ⟨id, hid, rfl⟩ := Option.map_eq_some_iff.1 h
    refine ⟨.equal none idName (.bigInt (some id)), ?_, rfl⟩
    rw [identifierFilter_of_ne_null hnull, hid]

/-- In the table that a reference refers to, what is asked becomes the condition on the identifier,
whatever fields the table has. -/
theorem Clause.compile_of_asked {r : Record} {asked : Asked} (h : Record.asked? r = some asked)
    (fields : FieldSet) : compile fields r = .ok ⟨(asked.condition? idName).toList, []⟩ := by
  unfold Record.asked? at h
  split at h
  · cases h
    rfl
  · next name value =>
    split at h
    · next hname =>
      obtain ⟨f, hf, hcondition⟩ := identifierFilter_of_idAsked h
      have hitem : item fields name value = .ok (some (.predicate f)) := by
        rw [item, if_pos hname, hf]
        rfl
      rw [hcondition]
      exact bind_eq_ok.2 ⟨[some (.predicate f)], mapM_eq_ok_iff.2 (.cons hitem .nil), rfl⟩
    · cases h
  · cases h

/-! ## The conditions of a selection -/

namespace Filter

/-- The conditions of a list of filters; a single conjunction stands for its parts. -/
def conjuncts : List Filter → List Filter
  | [.and (f :: rest)] => f :: rest
  | filters => filters

theorem expr_and_conjuncts (table : String) (filters : List Filter) :
    (Filter.and (conjuncts filters)).expr table = (Filter.and filters).expr table := by
  unfold conjuncts
  split <;> rfl

theorem conjuncts_of_isLocal {filters : List Filter} (h : ∀ f ∈ filters, f.isLocal = true) :
    conjuncts filters = filters := by
  unfold conjuncts
  split
  · next f rest => cases h (.and (f :: rest)) List.mem_cons_self
  · rfl

theorem isEmpty_conjuncts (filters : List Filter) :
    (conjuncts filters).isEmpty = filters.isEmpty := by
  unfold conjuncts
  split <;> rfl

end Filter

namespace Select

/-- The conditions of a selection, with their tables written in. -/
def conditions (s : Select) : List Filter := (Filter.conjuncts s.filters).map (Filter.on s.source)

/-- The conditions are what is written after `WHERE`. -/
theorem wherePieces_of_conditions {s : Select} {filters : List Filter}
    (h : s.conditions = filters) :
    wherePieces s.source s.filters = wherePieces s.source filters := by
  rw [← h]
  have hexpr : (Filter.and s.conditions).expr s.source = (Filter.and s.filters).expr s.source := by
    rw [← Filter.expr_and_conjuncts s.source s.filters, conditions, Filter.map_on, Filter.expr,
      Filter.expr, Filter.exprs_onAll]
  have hempty : s.conditions.isEmpty = s.filters.isEmpty := by
    rw [conditions, List.isEmpty_map, Filter.isEmpty_conjuncts]
  unfold wherePieces
  rw [hempty, hexpr]

/-- The columns that a selection is ordered by, with their tables written in. -/
def orderColumns (s : Select) : List ColumnRef :=
  s.order.map fun c => ⟨c.1.getD s.source, c.2⟩

end Select

/-! ## Finding records -/

namespace Table

variable {t : Table} {fields : FieldSet} {filter : Record}

/-- A selection compares the columns of references for what is asked of the records that they refer
to, after conditions that are given. -/
structure ComparesColumns (t : Table) (predicates : List Filter)
    (references : List (FieldSpec × Value)) (s : Select) : Prop where
  source : s.source = t.name
  conditions : s.conditions = predicates.map (Filter.on t.name) ++
    references.filterMap fun r => (r.2.condition? r.1.column).map (Filter.on t.name)
  /-- They are all that is written after `WHERE`. -/
  written : wherePieces s.source s.filters = wherePieces t.name
    (predicates.map (Filter.on t.name) ++
      references.filterMap fun r => (r.2.condition? r.1.column).map (Filter.on t.name))
  order : s.orderColumns = [⟨t.name, idName⟩]
  /-- It can be sent. -/
  built : ∃ query, (Statement.select s).query = .ok query

/-- Each reference of a filter becomes the condition that its value stands for. -/
theorem conditions_eq_map {clause : Clause} (hcompile : Clause.compile fields filter = .ok clause)
    {conditions : List (Option Filter)} (h : clause.joins.mapM t.localReference = .ok conditions) :
    (∀ r ∈ Clause.references fields filter, r.2.asked?.isSome = true) ∧
      conditions = (Clause.references fields filter).map fun r => r.2.condition? r.1.column := by
  have hall := forall₂_trans (Clause.forall₂_joins hcompile).flip (mapM_eq_ok_iff.1 h)
  generalize Clause.references fields filter = references at hall
  clear hcompile h
  induction hall with
  | nil => exact ⟨List.forall_mem_nil _, rfl⟩
  | @cons r condition _ _ hr _ ih =>
    obtain ⟨j, ⟨hfield, hfilter⟩, hlocal⟩ := hr
    obtain ⟨asked, hasked, rfl⟩ := localReference_eq_ok_iff.1 hlocal
    rw [Clause.asked?_of_referenceFilter hfilter] at hasked
    refine ⟨?_, ?_⟩
    · rw [List.forall_mem_cons]
      exact ⟨by rw [hasked]; rfl, ih.1⟩
    · rw [List.map_cons, ← ih.2, Value.condition?, hasked, hfield]
      rfl

end Table

/-! ## Finding them with the records that they refer to -/

/-- A reference cannot be followed: no table is registered for it, or what is declared for the table
could not be ensured. -/
inductive Registry.Blocks (registry : Registry) (field : FieldSpec) (events : List Event) :
    Error → Prop where
  | unresolved {e : Error} (h : registry.target? field = none) : Blocks registry field events e
  | unensured {e : Error} {target : Table} (htarget : registry.target? field = some target)
    {before during after : List Event} {caches caches' : Caches}
    (hevents : events = before ++ during ++ after)
    (hruns : target.schema.Runs caches during (.error e) caches') : Blocks registry field events e

namespace PlannedJoin

/-- The join along a reference that is asked for an identifier at most: the registered table, with
nothing joined to it and the condition that is asked for. -/
def JoinsAsked (registry : Registry) (reference : FieldSpec × Value) (j : PlannedJoin) : Prop :=
  ∃ target fields, registry.target? reference.1 = some target ∧ target.schema.Gives fields ∧
    j = .mk reference.1 target.name fields (reference.2.condition? idName).toList []

variable {registry : Registry} {references : List (FieldSpec × Value)} {joins : List PlannedJoin}

/-- The condition on a reference, under the alias with a number. -/
def askedCondition? (r : (FieldSpec × Value) × Nat) : Option Filter :=
  (r.1.2.condition? idName).map (Filter.on (tableAlias r.2))

theorem conditionsAll_placeAll (h : List.Forall₂ (JoinsAsked registry) references joins)
    (parent : String) (above : JoinKind) (next : Nat) :
    JoinedTable.conditionsAll (placeAll parent above next joins)
      = (references.zipIdx next).filterMap askedCondition? := by
  induction h generalizing next with
  | nil => rfl
  | @cons r j rest _ hj _ ih =>
    obtain ⟨target, fields, _, _, rfl⟩ := hj
    rw [placeAll, JoinedTable.conditionsAll, place, JoinedTable.conditions, size, sizeAll, ih,
      List.zipIdx_cons, placeAll, JoinedTable.conditionsAll, List.append_nil]
    cases hcondition : r.2.condition? idName with
    | none =>
      have hnone : askedCondition? (r, next) = none := by rw [askedCondition?, hcondition]; rfl
      rw [List.filterMap_cons_none hnone]
      rfl
    | some f =>
      have hsome : askedCondition? (r, next) = some (f.on (tableAlias next)) := by
        rw [askedCondition?, hcondition]
        rfl
      rw [List.filterMap_cons_some hsome]
      rfl

/-- Each table is joined where its identifier is that of the reference. -/
theorem map_toJoinsAll_placeAll (h : List.Forall₂ (JoinsAsked registry) references joins)
    (parent : String) (above : JoinKind) (next : Nat) :
    (JoinedTable.toJoinsAll (placeAll parent above next joins)).map (fun j => (j.aliasName, j.on))
      = (references.zipIdx next).map fun r => (tableAlias r.2,
          .equalColumns ⟨tableAlias r.2, idName⟩ ⟨parent, r.1.1.column⟩) := by
  induction h generalizing next with
  | nil => rfl
  | @cons r j rest _ hj _ ih =>
    obtain ⟨target, fields, _, _, rfl⟩ := hj
    rw [placeAll, JoinedTable.toJoinsAll, place, JoinedTable.toJoins, size, sizeAll,
      List.zipIdx_cons, placeAll, JoinedTable.toJoinsAll, List.map_append, ih]
    rfl

theorem alikeAll_of_joinsAsked (h : List.Forall₂ (JoinsAsked registry) references joins) :
    AlikeAll joins joins := by
  induction h with
  | nil => exact .nil
  | @cons r j _ _ hj _ ih =>
    obtain ⟨target, fields, _, _, rfl⟩ := hj
    refine .cons (.mk _ _ _ ?_ .nil) ih
    cases hcondition : r.2.condition? idName with
    | none => exact .nil
    | some f => exact .cons (Value.isLocal_of_condition? hcondition).2 .nil

end PlannedJoin

namespace Plan

/-- Planning the join along a reference with such a filter fails only where the reference cannot be
followed. -/
theorem meets_join_of_asked {registry : Registry} (depth : Nat) (owner : String)
    {j : ReferenceJoin} {asked : Asked} (hasked : Record.asked? j.filter = some asked) :
    (join registry (depth + 1) owner j).Meets (fun _ _ => True)
      (fun planned _ _ => ∃ target fields, registry.target? j.field = some target ∧
        target.schema.Gives fields ∧
          planned = .mk j.field target.name fields (asked.condition? idName).toList [])
      (fun e past _ => registry.Blocks j.field past e) := by
  -- the table
  refine .bind (M := fun _ _ _ => True) (.ofExcept (fun _ _ _ _ _ => trivial) ?_) ?_
  · intro e he past caches _
    cases htarget : registry.target? j.field with
    | none => exact .unresolved htarget
    | some target => cases he.symm.trans (Registry.resolve_eq_ok_iff.2 htarget)
  intro target htarget
  have htarget := Registry.resolve_eq_ok_iff.1 htarget.of_ofExcept
  -- its fields
  refine .bind (M := fun _ _ _ => True) ⟨fun _ _ => trivial, ?_⟩ ?_
  · intro past caches events e caches' _ hruns
    exact .unensured htarget (List.append_nil _).symm hruns
  intro fields hfields
  -- its condition
  rw [Clause.compile_of_asked hasked fields]
  exact .pure fun past caches _ => ⟨target, fields, htarget, hfields, rfl⟩

/-- A plan selects on the conditions that are given, and on identifiers of joined tables: one for each
reference, in order, with no table joined to it in turn. -/
structure JoinsReferences (registry : Registry) (table : String) (fields : FieldSet)
    (predicates : List Filter) (references : List (FieldSpec × Value)) (plan : Plan) : Prop where
  table : plan.table = table
  fields : plan.fields = fields
  joins : List.Forall₂ (PlannedJoin.JoinsAsked registry) references plan.joins
  source : plan.select.source = rootAlias
  joined : plan.select.joins.map (fun j => (j.aliasName, j.on))
    = (references.zipIdx 1).map fun r => (tableAlias r.2,
        .equalColumns ⟨tableAlias r.2, idName⟩ ⟨rootAlias, r.1.1.column⟩)
  conditions : plan.select.conditions = predicates.map (Filter.on rootAlias) ++
    (references.zipIdx 1).filterMap fun r =>
      (r.1.2.condition? idName).map (Filter.on (tableAlias r.2))
  /-- They are all that is written after `WHERE`. -/
  written : wherePieces plan.select.source plan.select.filters = wherePieces rootAlias
    (predicates.map (Filter.on rootAlias) ++ (references.zipIdx 1).filterMap fun r =>
      (r.1.2.condition? idName).map (Filter.on (tableAlias r.2)))
  order : plan.select.orderColumns = [⟨rootAlias, idName⟩]
  /-- Its statement can be sent. -/
  built : ∃ query, (Statement.select plan.select).query = .ok query

theorem conditions_select (plan : Plan) :
    plan.select.conditions = plan.conditions.map (Filter.on rootAlias) := by
  show (Filter.conjuncts (if plan.conditions.isEmpty then [] else [.and plan.conditions])).map
    (Filter.on rootAlias) = _
  cases plan.conditions <;> rfl

/-- All that is selected on follows from the conditions and the joins of a plan. -/
theorem joinsReferences_of_joins {registry : Registry} {table : String} {fields : FieldSet}
    {predicates : List Filter} (halike : Filter.AlikeAll predicates predicates)
    {references : List (FieldSpec × Value)} {joins : List PlannedJoin}
    (h : List.Forall₂ (PlannedJoin.JoinsAsked registry) references joins) :
    JoinsReferences registry table fields predicates references
      ⟨table, fields, predicates, joins⟩ := by
  have hconditions : (select ⟨table, fields, predicates, joins⟩).conditions
      = predicates.map (Filter.on rootAlias) ++ (references.zipIdx 1).filterMap fun r =>
          (r.1.2.condition? idName).map (Filter.on (tableAlias r.2)) := by
    have hall := PlannedJoin.conditionsAll_placeAll h rootAlias .inner 1
    rw [conditions_select, conditions, joinedTables, hall, List.map_append, List.map_map,
      List.map_filterMap]
    congr 1
    · exact List.map_congr_left fun f _ => Filter.on_on _ _ f
    · refine List.filterMap_congr fun r _ => ?_
      rw [PlannedJoin.askedCondition?, Option.map_map]
      exact congrArg (Option.map · _) (funext fun f => Filter.on_on _ _ f)
  constructor
  case table => rfl
  case fields => rfl
  case joins => exact h
  case source => rfl
  case joined => exact PlannedJoin.map_toJoinsAll_placeAll h rootAlias .inner 1
  case conditions => exact hconditions
  case written => exact Select.wherePieces_of_conditions hconditions
  case order => rfl
  case built =>
    have hplan : Plan.Alike ⟨table, fields, predicates, joins⟩ ⟨table, fields, predicates, joins⟩ :=
      ⟨rfl, rfl, halike, PlannedJoin.alikeAll_of_joinsAsked h⟩
    obtain ⟨query, _, hquery, _⟩ := hplan.select.pieces.exists_query
    exact ⟨query, hquery⟩

variable {fields : FieldSet} {filter : Record} {clause : Clause}

/-- Planning joins one table for each reference of the filter. -/
theorem meets_joins_of_asked (registry : Registry) (table : String)
    (hcompile : Clause.compile fields filter = .ok clause)
    (hasked : ∀ r ∈ Clause.references fields filter, r.2.asked?.isSome = true) :
    (clause.joins.mapM (join registry maxDepth table)).Meets (fun _ _ => True)
      (fun joins _ _ => List.Forall₂ (PlannedJoin.JoinsAsked registry)
        (Clause.references fields filter) joins)
      (fun e past _ => ∃ r ∈ Clause.references fields filter, registry.Blocks r.1 past e) := by
  have hreferences := Clause.forall₂_joins hcompile
  have hjoin : ∀ j ∈ clause.joins, (join registry maxDepth table j).Meets (fun _ _ => True)
      (fun planned _ _ => True ∧ ∃ asked target fields, Record.asked? j.filter = some asked ∧
        registry.target? j.field = some target ∧ target.schema.Gives fields ∧
          planned = .mk j.field target.name fields (asked.condition? idName).toList [])
      (fun e past _ => ∃ r ∈ Clause.references fields filter, registry.Blocks r.1 past e) := by
    intro j hj
    obtain ⟨value, hnamed, hfilter⟩ := Clause.exists_reference_of_join hcompile hj
    obtain ⟨asked, hsome⟩ := Option.isSome_iff_exists.1 (hasked _ hnamed)
    rw [← Clause.asked?_of_referenceFilter hfilter] at hsome
    refine (meets_join_of_asked 15 table hsome).mono (fun _ _ h => h) ?_ ?_
    · rintro planned past caches ⟨target, fields, htarget⟩
      exact ⟨trivial, asked, target, fields, hsome, htarget⟩
    · intro e past caches hblocks
      exact ⟨_, hnamed, hblocks⟩
  refine (Session.Meets.mapM (fun _ _ _ _ h => h) hjoin).mono (fun _ _ h => h) ?_ fun _ _ _ h => h
  -- what the compiled filter has for a reference asks the same as its value
  intro joins past caches h
  refine (forall₂_trans hreferences.flip h.2).imp ?_
  rintro r planned ⟨j, ⟨hfield, hfilter⟩, asked, target, fields', hsome, htarget, hgives, rfl⟩
  rw [Clause.asked?_of_referenceFilter hfilter] at hsome
  refine ⟨target, fields', hfield ▸ htarget, hgives, ?_⟩
  rw [Value.condition?, hsome, hfield]
  rfl

theorem meets_make_of_asked (registry : Registry) (table : String)
    (hcompile : Clause.compile fields filter = .ok clause)
    (hasked : ∀ r ∈ Clause.references fields filter, r.2.asked?.isSome = true) :
    (make registry table fields filter).Meets (fun _ _ => True)
      (fun plan _ _ => plan.JoinsReferences registry table fields clause.predicates
        (Clause.references fields filter))
      (fun e past _ => ∃ r ∈ Clause.references fields filter, registry.Blocks r.1 past e) := by
  have hmake : make registry table fields filter
      = clause.joins.mapM (join registry maxDepth table) >>= fun joins =>
        pure ⟨table, fields, clause.predicates, joins⟩ := by
    unfold make
    rw [hcompile]
    rfl
  rw [hmake]
  refine .bind (meets_joins_of_asked registry table hcompile hasked) fun joins _ => ?_
  have halike := (Clause.alike_compile rfl hcompile hcompile).predicates
  exact .pure fun past caches h => joinsReferences_of_joins halike h

end Plan

namespace Table

variable {t : Table} {fields : FieldSet} {filter : Record}

/-- The statement that finds records compares columns for what is asked. -/
theorem comparesColumns {predicates : List Filter} (hlocal : predicates.all Filter.isLocal = true)
    (halike : Filter.AlikeAll predicates predicates) {references : List (FieldSpec × Value)} :
    t.ComparesColumns predicates references
      { table := t.name
        filters := predicates ++
          (references.map fun r => r.2.condition? r.1.column).filterMap id
        order := [(none, idName)] } := by
  have hmap : (references.map fun r => r.2.condition? r.1.column).filterMap id
      = references.filterMap fun r => r.2.condition? r.1.column := List.filterMap_map
  have hasked : ∀ f ∈ references.filterMap fun r => r.2.condition? r.1.column,
      f.isLocal = true ∧ f.Alike f := by
    intro f hf
    obtain ⟨r, _, hr⟩ := List.mem_filterMap.1 hf
    exact Value.isLocal_of_condition? hr
  rw [hmap]
  have hall : ∀ f ∈ predicates ++ references.filterMap fun r => r.2.condition? r.1.column,
      f.isLocal = true := by
    intro f hf
    rcases List.mem_append.1 hf with hf | hf
    · exact List.all_eq_true.1 hlocal f hf
    · exact (hasked f hf).1
  have hconditions : (Filter.conjuncts (predicates ++
      references.filterMap fun r => r.2.condition? r.1.column)).map (Filter.on t.name)
        = predicates.map (Filter.on t.name) ++
          references.filterMap fun r => (r.2.condition? r.1.column).map (Filter.on t.name) := by
    rw [Filter.conjuncts_of_isLocal hall, List.map_append, List.map_filterMap]
  constructor
  case source => rfl
  case conditions => exact hconditions
  case written => exact Select.wherePieces_of_conditions hconditions
  case order => rfl
  case built =>
    have hself : Filter.AlikeAll (references.filterMap fun r => r.2.condition? r.1.column)
        (references.filterMap fun r => r.2.condition? r.1.column) :=
      Filter.alikeAll_iff.2 (List.forall₂_same.2 fun f hf => (hasked f hf).2)
    obtain ⟨query, _, hquery, _⟩ := (Select.Alike.of_filters (halike.append hself)).pieces.exists_query
    exact ⟨query, hquery⟩

/-- Where there is a statement that finds records, it is one selection in all cases, and it compares
columns for what is asked. -/
theorem exists_select_of_findPlan {planned : Statement × List Embedded}
    (h : (t.findPlan filter fields).Gives planned) :
    ∃ clause select, Clause.compile fields filter = .ok clause ∧ planned = (.select select, []) ∧
      t.findPlan filter fields = pure (.select select, []) ∧
      (∀ r ∈ Clause.references fields filter, r.2.asked?.isSome = true) ∧
      t.ComparesColumns clause.predicates (Clause.references fields filter) select := by
  obtain ⟨clause, hclause, h⟩ := h.of_bind
  obtain ⟨conditions, hconditions, h⟩ := h.of_bind
  have hcompile := hclause.of_ofExcept
  have hmapM := hconditions.of_ofExcept
  obtain ⟨hasked, rfl⟩ := conditions_eq_map hcompile hmapM
  have halike : Filter.AlikeAll clause.predicates clause.predicates :=
    (Clause.alike_compile rfl hcompile hcompile).predicates
  have hlocal := Clause.all_isLocal_compile hcompile
  refine ⟨clause, _, hcompile, Session.gives_pure.1 h, ?_, hasked,
    comparesColumns hlocal halike⟩
  have hfirst : Session.ofExcept (Clause.compile fields filter) = pure clause := by
    rw [hcompile]
    rfl
  rw [findPlan, hfirst, pure_bind, hmapM]
  rfl

/-- The statement that finds records with those that they refer to has conditions on joined tables
for what is asked, unless a reference cannot be followed. -/
theorem meets_relatedPlan_of_asked (t : Table) (registry : Registry) {clause : Clause}
    (hcompile : Clause.compile fields filter = .ok clause)
    (hasked : ∀ r ∈ Clause.references fields filter, r.2.asked?.isSome = true) :
    (t.relatedPlan registry filter fields).Meets (fun _ _ => True)
      (fun planned _ _ => ∃ plan : Plan, planned = (.select plan.select, plan.query.embedded) ∧
        plan.JoinsReferences registry t.name fields clause.predicates
          (Clause.references fields filter))
      (fun e past _ => ∃ r ∈ Clause.references fields filter, registry.Blocks r.1 past e) := by
  have hmake := Plan.meets_make_of_asked registry t.name hcompile hasked
  refine .bind (M := fun query _ _ => ∃ plan : Plan, query = plan.query ∧
    plan.JoinsReferences registry t.name fields clause.predicates
      (Clause.references fields filter)) ?_ fun query _ => .pure fun past caches h => ?_
  · exact .bind hmake fun plan _ => .pure fun past caches h => ⟨plan, rfl, h⟩
  · obtain ⟨plan, rfl, hplan⟩ := h
    exact ⟨plan, rfl, hplan⟩

/-- Either there is such a statement, or a reference cannot be followed. -/
theorem runs_relatedPlan_of_asked (t : Table) (registry : Registry) {clause : Clause}
    (hcompile : Clause.compile fields filter = .ok clause)
    (hasked : ∀ r ∈ Clause.references fields filter, r.2.asked?.isSome = true)
    {caches caches' : Caches} {events : List Event}
    {outcome : Except Error (Statement × List Embedded)}
    (h : (t.relatedPlan registry filter fields).Runs caches events outcome caches') :
    (∃ plan : Plan, outcome = .ok (.select plan.select, plan.query.embedded) ∧
      plan.JoinsReferences registry t.name fields clause.predicates
        (Clause.references fields filter)) ∨
    ∃ e, outcome = .error e ∧
      ∃ r ∈ Clause.references fields filter, registry.Blocks r.1 events e := by
  rcases (t.meets_relatedPlan_of_asked registry hcompile hasked).of_runs trivial h with
    ⟨_, rfl, plan, rfl, hplan⟩ | ⟨e, rfl, hblocks⟩
  · exact .inl ⟨plan, rfl, hplan⟩
  · exact .inr ⟨e, rfl, hblocks⟩

/-- A selection that can be sent is sent, and nothing else. -/
theorem exists_fetched_of_built {s : Select} (hbuilt : ∃ query, (Statement.select s).query = .ok query)
    {embedded : List Embedded} {caches caches' : Caches} {events : List Event}
    {outcome : Except Error (List Record)}
    (h : (Session.rows t.handle (.select s) >>= fun rows =>
      decodeRows fields embedded rows).Runs caches events outcome caches') :
    ∃ request reply, request.statement = .select s ∧ events = [.fetched request reply] := by
  obtain ⟨_, ⟨e, hquery, _⟩ | ⟨request, reply, _, hstatement, hevents, _⟩⟩ :=
    Session.runs_rows_bind h
  · obtain ⟨query, hok⟩ := hbuilt
    rw [hok] at hquery
    cases hquery
  · exact ⟨request, reply, hstatement, hevents⟩

/-- Where there is a statement that finds the records that match a filter, each reference in the
filter asks for an identifier at most. The statement that finds them with the records that they refer
to has the same conditions on the table's own fields, and for each reference that asks for something
the same on the joined table, unless a reference cannot be followed. Both are what is sent once the
fields have been found. -/
theorem agree_of_findPlan {planned : Statement × List Embedded}
    (h : (t.findPlan filter fields).Gives planned) :
    ∃ select predicates, planned = (.select select, []) ∧ predicates.all Filter.isLocal = true ∧
      (∀ r ∈ Clause.references fields filter, r.2.asked?.isSome = true) ∧
      t.ComparesColumns predicates (Clause.references fields filter) select ∧
      (∀ registry caches events outcome caches',
        (t.relatedPlan registry filter fields).Runs caches events outcome caches' →
          (∃ plan : Plan, outcome = .ok (.select plan.select, plan.query.embedded) ∧
            plan.JoinsReferences registry t.name fields predicates
              (Clause.references fields filter)) ∨
          ∃ e, outcome = .error e ∧
            ∃ r ∈ Clause.references fields filter, registry.Blocks r.1 events e) ∧
      ∀ caches before between, t.live.Runs caches before (.ok (some fields)) between →
        (∀ after outcome caches', (t.find filter).Runs caches (before ++ after) outcome caches' →
          ∃ request reply, request.statement = .select select ∧
            after = [.fetched request reply]) ∧
        ∀ registry after outcome caches',
          (t.findRelated registry filter).Runs caches (before ++ after) outcome caches' →
            (∃ (plan : Plan) (planning : List Event) (request : Request)
                (reply : Except EngineError (List Row)), request.statement = .select plan.select ∧
              after = planning ++ [.fetched request reply] ∧
              plan.JoinsReferences registry t.name fields predicates
                (Clause.references fields filter)) ∨
            ∃ e, outcome = .error e ∧
              ∃ r ∈ Clause.references fields filter, registry.Blocks r.1 after e := by
  obtain ⟨clause, select, hcompile, hplanned, hplan, hasked, hselect⟩ := exists_select_of_findPlan h
  have hlocal := Clause.all_isLocal_compile hcompile
  refine ⟨select, clause.predicates, hplanned, hlocal, hasked, hselect, ?_, ?_⟩
  · intro registry caches events outcome caches' hruns
    exact t.runs_relatedPlan_of_asked registry hcompile hasked hruns
  intro caches before between hlive
  constructor
  · intro after outcome caches' hruns
    have hsend := hlive.of_bind hruns
    simp only [hplan, pure_bind] at hsend
    exact exists_fetched_of_built hselect.built hsend
  · intro registry after outcome caches' hruns
    rcases Session.runs_bind.1 (hlive.of_bind hruns) with
      ⟨e, rfl, hplan⟩ | ⟨planning, planned, _, sent, rfl, hplan, hsend⟩
    · rcases t.runs_relatedPlan_of_asked registry hcompile hasked hplan with
        ⟨_, hok, _⟩ | ⟨e', he, hblocks⟩
      · cases hok
      · cases he
        exact .inr ⟨e, rfl, hblocks⟩
    · rcases t.runs_relatedPlan_of_asked registry hcompile hasked hplan with
        ⟨plan, hok, hjoins⟩ | ⟨e', he, _⟩
      · cases hok
        obtain ⟨request, reply, hstatement, rfl⟩ := exists_fetched_of_built hjoins.built hsend
        exact .inl ⟨plan, planning, request, reply, hstatement, rfl, hjoins⟩
      · cases he

/-- A table of letters, each from one person to others. -/
def letters : Table :=
  ⟨0, "letters", ⟨{ name := "title", type := .string } ::
    ["from", "to", "copy", "blind", "reply"].map fun name =>
      { name, type := .reference, target := some "people" }, by decide⟩⟩

/-- A filter that asks for identifiers in all the ways there are. -/
def lettersFilter : Record :=
  [("title", .text "%news"), ("from", .null), ("to", .record [("id", .null)]),
    ("copy", .record [("id", .record [("id", .integer 9)])]), ("blind", .integer 5),
    ("reply", .record [])]

/-- The columns of the table of letters. -/
def letterColumns : List ColumnInfo :=
  ⟨idName, "INTEGER", true⟩ :: ⟨"title", "TEXT", false⟩ ::
    ["from", "to", "copy", "blind", "reply"].map fun name =>
      ⟨name ++ "::reference", "INTEGER", false⟩

theorem agree_of_findPlan_letters :
    ∃ (select : Select) (predicates : List Filter) (plan : Plan) (before : List Event)
        (request : Request) (reply : Except EngineError (List Row)) (caches' : Caches),
      (letters.findPlan lettersFilter letters.declared).Gives (.select select, []) ∧
      (Clause.references letters.declared lettersFilter).map (·.2.asked?)
        = [some .anything, some .noIdentifier, some (.identifier 9), some (.identifier 5),
          some .anything] ∧
      letters.ComparesColumns predicates (Clause.references letters.declared lettersFilter) select ∧
      plan.JoinsReferences ⟨[persons]⟩ "letters" letters.declared predicates
        (Clause.references letters.declared lettersFilter) ∧
      (letters.findRelated ⟨[persons]⟩ lettersFilter).Runs (fun _ => none)
        (before ++ [.fetched request reply]) (.ok []) caches' ∧
      request.statement = .select plan.select := by
  have hgives : ∃ planned, (letters.findPlan lettersFilter letters.declared).Gives planned :=
    ⟨_, fun _ => none, [], fun _ => none, .done _⟩
  obtain ⟨planned, hgives⟩ := hgives
  obtain ⟨select, predicates, rfl, _, _, hselect, _, hsent⟩ := agree_of_findPlan hgives
  -- the fields are found, and the people in the letters are joined
  have hlive := Session.runs_play letters.live (fun _ => none)
    [.rows (letterColumns.map ColumnInfo.row)]
  have hfields : (letters.live.play (fun _ => none)
      [.rows (letterColumns.map ColumnInfo.row)]).result.1 = .ok (some letters.declared) := rfl
  rw [hfields] at hlive
  let related := letters.relatedPlan ⟨[persons]⟩ lettersFilter letters.declared >>= fun planned =>
    Session.rows letters.handle planned.1 >>= decodeRows letters.declared planned.2
  let found := (letters.live.play (fun _ => none)
    [.rows (letterColumns.map ColumnInfo.row)]).result.2
  let replies : List Reply := [.rows (personColumns.map ColumnInfo.row), .rows []]
  have hok : (related.play found replies).result.1.toOption.map List.isEmpty = some true := by
    decide +kernel
  have hrelated := Session.runs_play related found replies
  generalize (related.play found replies).result.1 = outcome at hok hrelated
  cases outcome with
  | error e => cases hok
  | ok records =>
    obtain rfl : records = [] := List.isEmpty_iff.1 (Option.some.inj hok)
    have hruns : (letters.findRelated ⟨[persons]⟩ lettersFilter).Runs _ _ (.ok []) _ :=
      Session.runs_bind.2 (.inr ⟨_, some letters.declared, found, _, rfl, hlive, hrelated⟩)
    rcases (hsent _ _ _ hlive).2 _ _ _ _ hruns with
      ⟨plan, planning, request, reply, hstatement, hevents, hplan⟩ | ⟨e, he, _⟩
    · rw [hevents, ← List.append_assoc] at hruns
      exact ⟨select, predicates, plan, _, request, reply, _, hgives, by decide, hselect, hplan,
        hruns, hstatement⟩
    · cases he

end Table

end RecordMapping

import RecordMapping.Proofs.Query.Alike
import RecordMapping.Proofs.Query.Kind
import RecordMapping.Proofs.Query.Planning
import RecordMapping.Proofs.Schema.Engine

/-!
# Aliases and parameters of a relational statement

The statement of a plan is put together from a tree: its joins, conditions and objects are collected
on one walk, and its parameters have no names, only places. The joined tables, in the order of that
walk (`Plan.tables`), are what everything is stated on: the aliases are numbered along it, each part
of the statement is the parts of these tables one after the other, and columns are looked up under
aliases that are known where they stand (`Plan.scoped_of_gives_make`).
-/

namespace RecordMapping

/-! ## Columns -/

namespace Expr

mutual
/-- The columns that an expression reads. -/
def columns : Expr → List ColumnRef
  | value _ => []
  | column c | equalsValue c _ | like c _ | isNull c => [c]
  | equalsColumn c d => [c, d]
  | and l r => columns l ++ columns r
  | jsonObject members => memberColumns members
  | unlessNull c e => c :: columns e
/-- The columns that the members of an object read. -/
def memberColumns : List (String × Expr) → List ColumnRef
  | [] => []
  | (_, e) :: rest => columns e ++ memberColumns rest
end

@[simp] theorem memberColumns_append (a b : List (String × Expr)) :
    memberColumns (a ++ b) = memberColumns a ++ memberColumns b := by
  induction a with
  | nil => rfl
  | cons m rest ih => rw [List.cons_append, memberColumns, memberColumns, ih, List.append_assoc]

@[simp] theorem memberPieces_append (a b : List (String × Expr)) :
    memberPieces (a ++ b) = memberPieces a ++ memberPieces b := by
  induction a with
  | nil => rfl
  | cons m rest ih => rw [List.cons_append, memberPieces, memberPieces, ih, List.cons_append]

end Expr

namespace Filter

variable {known : List String}

/-- All columns of a condition are of known tables, whichever table is taken where it names none. -/
def Within (known : List String) (f : Filter) : Prop :=
  ∀ table, ∀ c ∈ (f.expr table).columns, c.table ∈ known

theorem Within.mono {known' : List String} {f : Filter} (h : f.Within known)
    (hsub : ∀ a ∈ known, a ∈ known') : f.Within known' :=
  fun table c hc => hsub _ (h table c hc)

/-- A condition that leaves its table open is on one column of the table that is written in. -/
theorem within_on {f : Filter} (h : f.isLocal = true) (a : String) : (f.on a).Within [a] := by
  intro table c hc
  unfold isLocal at h
  split at h
  iterate 3
    · rw [on, expr, Expr.columns, List.mem_singleton] at hc
      rw [hc]
      exact List.mem_singleton_self a
  · cases h

theorem columns_foldl_and (rest : List Expr) (first : Expr) :
    (rest.foldl .and first).columns = first.columns ++ rest.flatMap Expr.columns := by
  induction rest generalizing first with
  | nil => simp
  | cons e rest ih => rw [List.foldl_cons, ih, Expr.columns, List.flatMap_cons, List.append_assoc]

theorem columns_conjunction (es : List Expr) :
    (conjunction es).columns = es.flatMap Expr.columns := by
  cases es with
  | nil => rfl
  | cons first rest => exact columns_foldl_and rest first

/-- A conjunction reads the columns of its parts. -/
theorem within_and {fs : List Filter} (h : ∀ f ∈ fs, f.Within known) : (and fs).Within known := by
  intro table c hc
  rw [expr, columns_conjunction, exprs_eq_map, List.mem_flatMap] at hc
  obtain ⟨e, he, hc⟩ := hc
  obtain ⟨f, hf, rfl⟩ := List.mem_map.1 he
  exact h f hf table c hc

end Filter

/-- Each join compares columns of known tables, of those joined before it, and of its own table. -/
def Join.ScopedAll (known : List String) : List Join → Prop
  | [] => True
  | join :: rest =>
    join.on.Within (known ++ [join.aliasName]) ∧ ScopedAll (known ++ [join.aliasName]) rest

theorem Join.scopedAll_append {known : List String} {joins rest : List Join} :
    ScopedAll known (joins ++ rest) ↔
      ScopedAll known joins ∧ ScopedAll (known ++ aliases joins) rest := by
  induction joins generalizing known with
  | nil => simp [ScopedAll, aliases]
  | cons join joins ih => simp [ScopedAll, aliases, ih, and_assoc]

/-- The tables of a selection have different aliases, and every column that it reads is of one of
them. A join reads no table that is joined later. -/
structure Select.Scoped (s : Select) : Prop where
  distinct : (s.source :: Join.aliases s.joins).Nodup
  joins : Join.ScopedAll [s.source] s.joins
  filters : ∀ f ∈ s.filters, f.Within (s.source :: Join.aliases s.joins)
  projections : ∀ p ∈ s.projections, ∀ c ∈ p.1.columns, c.table ∈ s.source :: Join.aliases s.joins

/-! ## Values -/

theorem Pieces.params_flatMap {α : Type} (l : List α) (f : α → Pieces) :
    params (l.flatMap f) = l.flatMap fun a => params (f a) :=
  List.filterMap_flatMap

/-- What is bound after `WHERE`. -/
theorem params_wherePieces (table : String) (filters : List Filter) :
    (wherePieces table filters).params = filters.flatMap Filter.values := by
  cases filters with
  | nil => rfl
  | cons f rest =>
    show ((Filter.and (f :: rest)).expr table).pieces.params = _
    rw [Filter.params_expr, ← Filter.valuesAll_eq_flatMap]
    rfl

/-- A selection binds what its projections bind, what its joins bind, and then what its conditions
bind. -/
theorem Select.params_pieces (s : Select) (hlimit : s.limit = none) :
    s.pieces.params = (s.projections.flatMap fun p => p.1.pieces.params) ++
      (s.joins.flatMap fun j => j.on.values) ++ s.filters.flatMap Filter.values := by
  simp [pieces, Pieces.params_flatMap, projectionPieces, joinPieces, Filter.params_expr, hlimit,
    limitPieces, params_wherePieces]

/-! ## The tables of a plan -/

namespace PlannedJoin

/-- The name of the reference field along which a table is to be joined. -/
def name (j : PlannedJoin) : String := j.field.name

mutual
/-- The keys that the object of a table to be joined has: the identifier, the columns of the fields
that no table is joined along, and then for each of the others its name and the keys of its own
object. -/
def objectKeys : PlannedJoin → List String
  | mk _ _ fields _ joins =>
    idName :: (fields.specs.filter (·.name ∉ joins.map name)).map FieldSpec.column ++
      nestedKeys joins
/-- The same for a list, each after the name of its field. -/
def nestedKeys : List PlannedJoin → List String
  | [] => []
  | j :: rest => j.name :: objectKeys j ++ nestedKeys rest
end

mutual
/-- The shape of the object: the name of the reference, the fields of the table, and the objects of
the tables joined to it, in the same order. -/
def shape : PlannedJoin → Embedded
  | mk field _ fields _ joins => .mk field.name fields (shapes joins)
/-- The shapes of the objects of a list. -/
def shapes : List PlannedJoin → List Embedded
  | [] => []
  | j :: rest => shape j :: shapes rest
end

end PlannedJoin

namespace JoinedTable

/-- The alias of the table that a table is joined to. -/
def parent : JoinedTable → String
  | mk _ parent .. => parent

/-- The conditions on a joined table. -/
def predicates : JoinedTable → List Filter
  | mk _ _ _ _ _ _ predicates _ => predicates

/-- The join that brings a table in. -/
def toJoin : JoinedTable → Join
  | mk aliasName parent kind field table .. =>
    ⟨kind, table, aliasName, .equalColumns ⟨aliasName, idName⟩ ⟨parent, field.column⟩⟩

/-- The columns that the object of a table takes from its own row: the identifier, first to see
whether there is a row, and the columns of the fields that no table is joined along. -/
def ownColumns (t : JoinedTable) : List ColumnRef :=
  (idName :: idName :: t.own.columns).map (⟨t.aliasName, ·⟩)

mutual
/-- A joined table and those below it, itself first. -/
def preorder : JoinedTable → List JoinedTable
  | mk aliasName parent kind field table fields predicates joins =>
    mk aliasName parent kind field table fields predicates joins :: preorderAll joins
/-- The same for a list of joined tables, one after the other. -/
def preorderAll : List JoinedTable → List JoinedTable
  | [] => []
  | j :: rest => preorder j ++ preorderAll rest
end

mutual
/-- What was planned for a joined table and those below it. -/
def planned : JoinedTable → PlannedJoin
  | mk _ _ _ field table fields predicates joins =>
    .mk field table fields predicates (plannedAll joins)
/-- The same for a list of joined tables. -/
def plannedAll : List JoinedTable → List PlannedJoin
  | [] => []
  | j :: rest => planned j :: plannedAll rest
end

mutual
/-- A table is joined to the one with the given alias, and so on below it. -/
def HangsOn (a : String) : JoinedTable → Prop
  | mk aliasName parent _ _ _ _ _ joins => parent = a ∧ HangOn aliasName joins
/-- The same for all tables of a list. -/
def HangOn (a : String) : List JoinedTable → Prop
  | [] => True
  | j :: rest => HangsOn a j ∧ HangOn a rest
end

/-! ### Parts of the statement, table by table -/

mutual
theorem toJoins_eq : ∀ t : JoinedTable, t.toJoins = t.preorder.map toJoin
  | mk _ _ _ _ _ _ _ joins => by
    rw [toJoins, preorder, List.map_cons, toJoinsAll_eq joins]
    rfl
theorem toJoinsAll_eq : ∀ joins : List JoinedTable,
    toJoinsAll joins = (preorderAll joins).map toJoin
  | [] => rfl
  | j :: rest => by
    rw [toJoinsAll, preorderAll, List.map_append, toJoins_eq, toJoinsAll_eq]
end

mutual
theorem conditions_eq : ∀ t : JoinedTable,
    t.conditions = t.preorder.flatMap fun s => s.predicates.map (Filter.on s.aliasName)
  | mk _ _ _ _ _ _ _ joins => by
    rw [conditions, preorder, List.flatMap_cons, conditionsAll_eq joins]
    rfl
theorem conditionsAll_eq : ∀ joins : List JoinedTable,
    conditionsAll joins
      = (preorderAll joins).flatMap fun s => s.predicates.map (Filter.on s.aliasName)
  | [] => rfl
  | j :: rest => by
    rw [conditionsAll, preorderAll, List.flatMap_append, conditions_eq, conditionsAll_eq]
end

theorem aliases_toJoinsAll (joins : List JoinedTable) :
    Join.aliases (toJoinsAll joins) = (preorderAll joins).map aliasName := by
  rw [toJoinsAll_eq, Join.aliases, List.map_map]
  exact List.map_congr_left fun t _ => by cases t; rfl

/-- The members of an object for which its own row is read. -/
theorem ownMembers_projections (a : String) (fields : FieldSet) (joins : List JoinedTable) :
    ownMembers a fields (projections joins)
      = (unjoined fields joins).specs.map fun f => (f.column, .column ⟨a, f.column⟩) := by
  rw [ownMembers, specs_unjoined]

theorem memberColumns_own (a : String) (specs : List FieldSpec) :
    Expr.memberColumns (specs.map fun f => (f.column, .column ⟨a, f.column⟩))
      = specs.map fun f => ⟨a, f.column⟩ := by
  induction specs with
  | nil => rfl
  | cons f rest ih => rw [List.map_cons, Expr.memberColumns, ih, Expr.columns]; rfl

mutual
/-- An object reads the columns of its own table, and then those of the objects in it. -/
theorem columns_projection : ∀ t : JoinedTable,
    t.projection.columns = t.preorder.flatMap ownColumns
  | mk aliasName _ _ _ _ fields _ joins => by
    rw [projection, object, preorder, List.flatMap_cons, Expr.columns, Expr.columns,
      Expr.memberColumns_append, columns_projections joins, Expr.memberColumns,
      ownMembers_projections, memberColumns_own]
    simp [ownColumns, own, FieldSet.columns, Expr.columns, JoinedTable.aliasName]
theorem columns_projections : ∀ joins : List JoinedTable,
    Expr.memberColumns (projections joins) = (preorderAll joins).flatMap ownColumns
  | [] => rfl
  | j :: rest => by
    rw [projections, preorderAll, List.flatMap_append, Expr.memberColumns, columns_projection,
      columns_projections]
end

/-- A key of an object is bound as text. -/
def keyParam (key : String) : Param := .string (some key)

theorem params_own (a : String) (specs : List FieldSpec) :
    (Expr.memberPieces (specs.map fun f => (f.column, .column ⟨a, f.column⟩))).flatMap Pieces.params
      = (specs.map FieldSpec.column).map keyParam := by
  induction specs with
  | nil => rfl
  | cons f rest ih =>
    rw [List.map_cons, Expr.memberPieces, List.flatMap_cons, ih]
    simp [Expr.pieces, keyParam]

theorem name_planned (t : JoinedTable) : t.planned.name = t.name := by
  cases t
  rfl

theorem plannedAll_eq_map (joins : List JoinedTable) : plannedAll joins = joins.map planned := by
  induction joins with
  | nil => rfl
  | cons j rest ih => rw [plannedAll, ih, List.map_cons]

theorem map_name_plannedAll (joins : List JoinedTable) :
    (plannedAll joins).map PlannedJoin.name = joins.map name := by
  rw [plannedAll_eq_map, List.map_map]
  exact List.map_congr_left fun t _ => name_planned t

mutual
/-- An object binds its keys, those of the objects in it after their names. -/
theorem params_projection : ∀ t : JoinedTable,
    t.projection.pieces.params = t.planned.objectKeys.map keyParam
  | mk aliasName _ _ _ _ fields _ joins => by
    have hkeys : (PlannedJoin.nestedKeys (plannedAll joins)).map keyParam
        = (Expr.memberPieces (projections joins)).flatMap Pieces.params :=
      (params_projections joins).symm
    rw [planned, PlannedJoin.objectKeys, List.cons_append, List.map_cons, List.map_append, hkeys,
      map_name_plannedAll, projection, object, ownMembers_projections]
    simp [Expr.pieces, Expr.memberPieces, Pieces.params_separated, params_own, unjoined, keyParam]
theorem params_projections : ∀ joins : List JoinedTable,
    (Expr.memberPieces (projections joins)).flatMap Pieces.params
      = (PlannedJoin.nestedKeys (plannedAll joins)).map keyParam
  | [] => rfl
  | j :: rest => by
    rw [projections, plannedAll, PlannedJoin.nestedKeys, Expr.memberPieces, List.flatMap_cons,
      params_projections, name_planned]
    simp [params_projection, keyParam]
end

mutual
theorem embedded_eq_shape : ∀ t : JoinedTable, t.embedded = t.planned.shape
  | mk _ _ _ _ _ _ _ joins => by
    rw [embedded, planned, PlannedJoin.shape, embeddedAll_eq_shapes joins]
theorem embeddedAll_eq_shapes : ∀ joins : List JoinedTable,
    embeddedAll joins = PlannedJoin.shapes (plannedAll joins)
  | [] => rfl
  | j :: rest => by
    rw [embeddedAll, plannedAll, PlannedJoin.shapes, embedded_eq_shape, embeddedAll_eq_shapes]
end

mutual
/-- Joins that hang on a known table compare known columns only. -/
theorem scopedAll_toJoins {known : List String} {a : String} (ha : a ∈ known) :
    ∀ t : JoinedTable, t.HangsOn a → Join.ScopedAll known t.toJoins
  | mk aliasName parent _ _ _ _ _ joins, h => by
    rw [HangsOn] at h
    rw [toJoins, Join.ScopedAll]
    have hnew : aliasName ∈ known ++ [aliasName] :=
      List.mem_append_right _ (List.mem_singleton_self _)
    refine ⟨?_, scopedAll_toJoinsAll hnew joins h.2⟩
    intro table c hc
    rw [Filter.expr, Expr.columns, List.mem_pair] at hc
    rcases hc with rfl | rfl
    · exact hnew
    · exact List.mem_append_left _ (h.1 ▸ ha)
/-- The same for a list, where each join adds to what the next ones know. -/
theorem scopedAll_toJoinsAll {known : List String} {a : String} (ha : a ∈ known) :
    ∀ joins : List JoinedTable, HangOn a joins → Join.ScopedAll known (toJoinsAll joins)
  | [], _ => trivial
  | j :: rest, h => by
    rw [HangOn] at h
    rw [toJoinsAll, Join.scopedAll_append]
    exact ⟨scopedAll_toJoins ha j h.1, scopedAll_toJoinsAll (List.mem_append_left _ ha) rest h.2⟩
end

end JoinedTable

/-! ### Placing -/

namespace PlannedJoin

mutual
theorem planned_place (parent : String) (above : JoinKind) (next : Nat) :
    ∀ j : PlannedJoin, (place parent above next j).planned = j
  | mk .. => by rw [place, JoinedTable.planned, plannedAll_placeAll]
theorem plannedAll_placeAll (parent : String) (above : JoinKind) (next : Nat) :
    ∀ joins : List PlannedJoin, JoinedTable.plannedAll (placeAll parent above next joins) = joins
  | [] => rfl
  | j :: rest => by rw [placeAll, JoinedTable.plannedAll, planned_place, plannedAll_placeAll]
end

mutual
theorem hangsOn_place (parent : String) (above : JoinKind) (next : Nat) :
    ∀ j : PlannedJoin, (place parent above next j).HangsOn parent
  | mk .. => by
    rw [place, JoinedTable.HangsOn]
    exact ⟨rfl, hangOn_placeAll _ _ _ _⟩
theorem hangOn_placeAll (parent : String) (above : JoinKind) (next : Nat) :
    ∀ joins : List PlannedJoin, JoinedTable.HangOn parent (placeAll parent above next joins)
  | [] => trivial
  | j :: rest => by
    rw [placeAll, JoinedTable.HangOn]
    exact ⟨hangsOn_place _ _ _ _, hangOn_placeAll _ _ _ _⟩
end

mutual
theorem isLocal_preorder_place {parent : String} {above : JoinKind} {next : Nat} :
    ∀ {j : PlannedJoin}, j.isLocal = true → ∀ t ∈ (place parent above next j).preorder,
      t.predicates.all Filter.isLocal = true
  | mk .., h, t, ht => by
    rw [isLocal, Bool.and_eq_true] at h
    rw [place, JoinedTable.preorder] at ht
    rcases List.mem_cons.1 ht with rfl | ht
    · exact h.1
    · exact isLocal_preorderAll_placeAll h.2 t ht
theorem isLocal_preorderAll_placeAll {parent : String} {above : JoinKind} {next : Nat} :
    ∀ {joins : List PlannedJoin}, isLocalAll joins = true →
      ∀ t ∈ JoinedTable.preorderAll (placeAll parent above next joins),
        t.predicates.all Filter.isLocal = true
  | [], _, t, ht => by cases ht
  | j :: rest, h, t, ht => by
    rw [isLocalAll, Bool.and_eq_true] at h
    rw [placeAll, JoinedTable.preorderAll] at ht
    rcases List.mem_append.1 ht with ht | ht
    · exact isLocal_preorder_place h.1 t ht
    · exact isLocal_preorderAll_placeAll h.2 t ht
end

mutual
theorem length_preorder_place (parent : String) (above : JoinKind) (next : Nat) :
    ∀ j : PlannedJoin, (place parent above next j).preorder.length = j.size
  | mk .. => by
    rw [place, JoinedTable.preorder, List.length_cons, length_preorderAll_placeAll, size]
theorem length_preorderAll_placeAll (parent : String) (above : JoinKind) (next : Nat) :
    ∀ joins : List PlannedJoin,
      (JoinedTable.preorderAll (placeAll parent above next joins)).length = sizeAll joins
  | [] => rfl
  | j :: rest => by
    rw [placeAll, JoinedTable.preorderAll, List.length_append, length_preorder_place,
      length_preorderAll_placeAll, sizeAll]
end

end PlannedJoin

/-! ## The statement of a plan -/

namespace Plan

/-- The joined tables of a plan, each before those that are joined to it. -/
def tables (plan : Plan) : List JoinedTable := JoinedTable.preorderAll plan.joinedTables

/-- The keys that the objects of a plan bind. -/
def keys (plan : Plan) : List String :=
  plan.joins.flatMap PlannedJoin.objectKeys

/-- The values that the conditions of a plan bind: those on the table itself, and then those on the
joined tables. -/
def values (plan : Plan) : List Param :=
  (plan.predicates ++ plan.tables.flatMap JoinedTable.predicates).flatMap Filter.values

/-- The statement of a plan goes through its tables in order. -/
structure Scoped (plan : Plan) : Prop where
  /-- The joined tables are those that were planned, each joined to the one above it. -/
  planned : JoinedTable.plannedAll plan.joinedTables = plan.joins
  hang : JoinedTable.HangOn rootAlias plan.joinedTables
  /-- Their aliases are numbered in order, and none of them is that of the table itself. -/
  aliases : plan.tables.map JoinedTable.aliasName
    = (List.range' 1 plan.tables.length).map tableAlias
  distinct : (rootAlias :: plan.tables.map JoinedTable.aliasName).Nodup
  /-- Each is joined where its identifier is what the reference holds. -/
  joins : plan.select.joins = plan.tables.map JoinedTable.toJoin
  /-- The conditions on each are on columns under its own alias. -/
  conditions : plan.conditions = plan.predicates.map (Filter.on rootAlias) ++
    plan.tables.flatMap fun t => t.predicates.map (Filter.on t.aliasName)
  own : (∀ f ∈ plan.predicates, (f.on rootAlias).Within [rootAlias]) ∧
    ∀ t ∈ plan.tables, ∀ f ∈ t.predicates, (f.on t.aliasName).Within [t.aliasName]
  /-- Each object reads the columns of its table under its own alias. -/
  columns : (plan.select.projections.flatMap fun p => p.1.columns)
    = plan.tables.flatMap JoinedTable.ownColumns
  inScope : plan.select.Scoped
  /-- The keys are bound before the values of the conditions, and nothing else is. -/
  sent : ∃ data, Param.data plan.values = .ok data ∧ (Statement.select plan.select).query
    = .ok ⟨plan.select.pieces.text, plan.keys.map (fun key => .text (some key)) ++ data⟩
  /-- What is read from a row has the shape of what was planned, under the same names. -/
  embedded : plan.query.embedded = PlannedJoin.shapes plan.joins
  names : plan.select.projections.map Prod.snd = plan.joins.map PlannedJoin.name

variable {plan : Plan}

theorem plannedAll_joinedTables (plan : Plan) :
    JoinedTable.plannedAll plan.joinedTables = plan.joins :=
  PlannedJoin.plannedAll_placeAll _ _ _ _

theorem aliases_select (plan : Plan) :
    Join.aliases plan.select.joins = (List.range' 1 plan.tables.length).map tableAlias := by
  have hlength : plan.tables.length = PlannedJoin.sizeAll plan.joins :=
    PlannedJoin.length_preorderAll_placeAll _ _ _ _
  rw [hlength]
  exact PlannedJoin.aliases_placeAll _ _ _ _

theorem aliases_select_eq_map (plan : Plan) :
    Join.aliases plan.select.joins = plan.tables.map JoinedTable.aliasName :=
  JoinedTable.aliases_toJoinsAll plan.joinedTables

theorem nodup_aliases (plan : Plan) : (rootAlias :: Join.aliases plan.select.joins).Nodup := by
  have hrange : rootAlias :: (List.range' 1 plan.tables.length).map tableAlias
      = (List.range' 0 (plan.tables.length + 1)).map tableAlias := rfl
  rw [aliases_select, hrange]
  exact List.Nodup.map (fun _ _ => tableAlias_injective) (List.nodup_range' _)

theorem conditions_eq (plan : Plan) :
    plan.conditions = plan.predicates.map (Filter.on rootAlias) ++
      plan.tables.flatMap fun t => t.predicates.map (Filter.on t.aliasName) := by
  rw [conditions, JoinedTable.conditionsAll_eq]
  rfl

/-- The columns of the objects of a plan, table by table. -/
theorem columns_projections (plan : Plan) :
    (plan.select.projections.flatMap fun p => p.1.columns)
      = plan.tables.flatMap JoinedTable.ownColumns := by
  have hmembers : ∀ members : List (String × Expr),
      ((members.map Prod.swap).flatMap fun p => p.1.columns) = Expr.memberColumns members := by
    intro members
    induction members with
    | nil => rfl
    | cons m rest ih => rw [List.map_cons, List.flatMap_cons, ih, Expr.memberColumns]; rfl
  exact (hmembers _).trans (JoinedTable.columns_projections plan.joinedTables)

/-- Every condition is on columns of the table that it was planned for. -/
theorem within_own (h : plan.isLocal = true) :
    (∀ f ∈ plan.predicates, (f.on rootAlias).Within [rootAlias]) ∧
      ∀ t ∈ plan.tables, ∀ f ∈ t.predicates, (f.on t.aliasName).Within [t.aliasName] := by
  rw [isLocal, Bool.and_eq_true] at h
  constructor
  · intro f hf
    exact Filter.within_on (List.all_eq_true.1 h.1 f hf) _
  · intro t ht f hf
    have hlocal := PlannedJoin.isLocal_preorderAll_placeAll h.2 t ht
    exact Filter.within_on (List.all_eq_true.1 hlocal f hf) _

/-- The statement of a plan reads columns of its tables only, each where it is known. -/
theorem scoped_select (h : plan.isLocal = true) : plan.select.Scoped := by
  have halias : ∀ t ∈ plan.tables, t.aliasName ∈ rootAlias :: Join.aliases plan.select.joins := by
    intro t ht
    rw [aliases_select_eq_map]
    exact List.mem_cons_of_mem _ (List.mem_map_of_mem ht)
  constructor
  case distinct => exact nodup_aliases plan
  case joins =>
    exact JoinedTable.scopedAll_toJoinsAll (List.mem_singleton_self _) _
      (PlannedJoin.hangOn_placeAll _ _ _ _)
  case filters =>
    have hconditions : ∀ f ∈ plan.conditions,
        f.Within (rootAlias :: Join.aliases plan.select.joins) := by
      intro f hf
      rw [conditions_eq, List.mem_append] at hf
      rcases hf with hf | hf
      · obtain ⟨g, hg, rfl⟩ := List.mem_map.1 hf
        refine ((within_own h).1 g hg).mono fun a ha => ?_
        rw [List.mem_singleton.1 ha]
        exact List.mem_cons_self
      · obtain ⟨t, ht, hf⟩ := List.mem_flatMap.1 hf
        obtain ⟨g, hg, rfl⟩ := List.mem_map.1 hf
        refine ((within_own h).2 t ht g hg).mono fun a ha => ?_
        rw [List.mem_singleton.1 ha]
        exact halias t ht
    intro f hf
    -- the conditions stand in one conjunction, if there are any
    have hf : f ∈ if plan.conditions.isEmpty then [] else [.and plan.conditions] := hf
    split at hf
    · cases hf
    · rw [List.mem_singleton.1 hf]
      exact Filter.within_and hconditions
  case projections =>
    intro p hp c hc
    have hc : c ∈ plan.select.projections.flatMap fun p => p.1.columns :=
      List.mem_flatMap.2 ⟨p, hp, hc⟩
    rw [columns_projections, List.mem_flatMap] at hc
    obtain ⟨t, ht, hc⟩ := hc
    obtain ⟨column, _, rfl⟩ := List.mem_map.1 hc
    exact halias t ht

/-- What the statement of a plan binds: the keys of its objects, and the values of its
conditions. -/
theorem params_select (plan : Plan) :
    plan.select.pieces.params = plan.keys.map JoinedTable.keyParam ++ plan.values := by
  have hprojections : (plan.select.projections.flatMap fun p => p.1.pieces.params)
      = plan.keys.map JoinedTable.keyParam := by
    show (((JoinedTable.projections plan.joinedTables).map Prod.swap).flatMap
      fun p => p.1.pieces.params) = _
    rw [JoinedTable.projections_eq_map, keys, ← plannedAll_joinedTables,
      JoinedTable.plannedAll_eq_map]
    simp [List.flatMap_map, List.map_flatMap, JoinedTable.params_projection]
  have hjoins : (plan.select.joins.flatMap fun j => j.on.values) = [] := by
    rw [List.flatMap_eq_nil_iff]
    intro join hjoin
    -- a join compares two columns
    obtain ⟨left, right, hon⟩ := JoinedTable.exists_on_of_mem_toJoinsAll hjoin
    rw [hon]
    rfl
  have hfilters : plan.select.filters.flatMap Filter.values = plan.values := by
    have hvalues : plan.conditions.flatMap Filter.values = plan.values := by
      rw [conditions_eq, values, List.flatMap_append, List.flatMap_append, List.flatMap_map,
        List.flatMap_assoc, List.flatMap_assoc]
      simp only [List.flatMap_map, Filter.values_on]
    rw [← hvalues]
    show (if plan.conditions.isEmpty then [] else [Filter.and plan.conditions]).flatMap
      Filter.values = _
    cases plan.conditions with
    | nil => rfl
    | cons f rest => simp [Filter.values, Filter.valuesAll_eq_flatMap]
  rw [Select.params_pieces _ rfl, hprojections, hjoins, hfilters, List.append_nil]

/-- The statement of a plan can be sent if the values of its conditions have physical values. -/
theorem query_select (h : plan.Alike plan) :
    ∃ data, Param.data plan.values = .ok data ∧ (Statement.select plan.select).query
      = .ok ⟨plan.select.pieces.text, plan.keys.map (fun key => .text (some key)) ++ data⟩ := by
  obtain ⟨all, _, hall, _⟩ := h.select.pieces.exists_data
  have hkeys : ∀ keys : List String,
      Param.data (keys.map JoinedTable.keyParam) = .ok (keys.map fun key => .text (some key)) := by
    intro keys
    refine data_eq_ok_iff.2 (List.forall₂_map_left_iff.2 (List.forall₂_map_right_iff.2 ?_))
    exact List.forall₂_same.2 fun key _ => rfl
  -- all that is bound has physical values, so what comes after the keys has
  rw [params_select, Param.data, List.mapM_append] at hall
  obtain ⟨texts, htexts, hall⟩ := bind_eq_ok.1 hall
  obtain ⟨data, hdata, hall⟩ := bind_eq_ok.1 hall
  cases hall
  cases htexts.symm.trans (hkeys plan.keys)
  refine ⟨data, hdata, Pieces.query_of_data ?_⟩
  rw [params_select, Param.data, List.mapM_append]
  exact bind_eq_ok.2 ⟨_, hkeys _, bind_eq_ok.2 ⟨data, hdata, rfl⟩⟩

/-- The conditions of a planned join bind values that have physical ones, on all levels. -/
theorem alike_of_gives_join {registry : Registry} {depth : Nat} {owner : String}
    {reference : ReferenceJoin} {j : PlannedJoin}
    (h : (join registry depth owner reference).Gives j) : j.Alike j := by
  induction depth generalizing owner reference j with
  | zero =>
    obtain ⟨_, _, _, h⟩ := h
    obtain ⟨_, he, _⟩ := Session.runs_throw.1 h
    cases he
  | succ depth ih =>
    obtain ⟨target, _, h⟩ := h.of_bind
    obtain ⟨fields, _, h⟩ := h.of_bind
    obtain ⟨clause, hclause, h⟩ := h.of_bind
    obtain ⟨joins, hjoins, h⟩ := h.of_bind
    cases Session.gives_pure.1 h
    have hcompile := hclause.of_ofExcept
    refine .mk _ _ _ (Clause.alike_compile rfl hcompile hcompile).predicates
      (PlannedJoin.alikeAll_iff.2 (List.forall₂_same.2 fun j hj => ?_))
    obtain ⟨reference, _, hgives⟩ := hjoins.of_mapM hj
    exact ih hgives

/-- The conditions of every plan that there is bind values that have physical ones. -/
theorem alike_of_gives_make {registry : Registry} {table : String} {fields : FieldSet}
    {filter : Record} (h : (make registry table fields filter).Gives plan) : plan.Alike plan := by
  obtain ⟨clause, hclause, h⟩ := h.of_bind
  obtain ⟨joins, hjoins, h⟩ := h.of_bind
  cases Session.gives_pure.1 h
  have hcompile := hclause.of_ofExcept
  refine ⟨rfl, rfl, (Clause.alike_compile rfl hcompile hcompile).predicates,
    PlannedJoin.alikeAll_iff.2 (List.forall₂_same.2 fun j hj => ?_)⟩
  obtain ⟨reference, _, hgives⟩ := hjoins.of_mapM hj
  exact alike_of_gives_join hgives

/-- Conditions that leave their table open, and bind what can be sent, are all that it takes. -/
theorem scoped_of_isLocal (hlocal : plan.isLocal = true) (halike : plan.Alike plan) :
    plan.Scoped := by
  constructor
  case planned => exact plannedAll_joinedTables plan
  case hang => exact PlannedJoin.hangOn_placeAll _ _ _ _
  case aliases => rw [← aliases_select_eq_map, aliases_select]
  case distinct =>
    rw [← aliases_select_eq_map]
    exact nodup_aliases plan
  case joins => exact JoinedTable.toJoinsAll_eq _
  case conditions => exact conditions_eq plan
  case own => exact within_own hlocal
  case columns => exact columns_projections plan
  case inScope => exact scoped_select hlocal
  case sent => exact query_select halike
  case embedded =>
    rw [← plannedAll_joinedTables plan]
    exact JoinedTable.embeddedAll_eq_shapes _
  case names =>
    rw [← plannedAll_joinedTables plan, JoinedTable.map_name_plannedAll,
      ← JoinedTable.names_projections]
    exact List.map_map

/-- However a plan comes about, its statement numbers the aliases of its tables in order, looks up
every column under an alias that is known there, and binds the keys of the objects and then the
values of the conditions, in the order of the tables. -/
theorem scoped_of_gives_make {registry : Registry} {table : String} {fields : FieldSet}
    {filter : Record} (h : (make registry table fields filter).Gives plan) : plan.Scoped :=
  scoped_of_isLocal (isLocal_of_gives_make h) (alike_of_gives_make h)

/-- A table of persons, each of whom refers to two others. -/
def family : Table :=
  ⟨0, "family", ⟨[{ name := "name", type := .string },
    { name := "mother", type := .reference, target := some "family" },
    { name := "father", type := .reference, target := some "family" }], by decide⟩⟩

/-- A filter that joins two tables to that of the query, and one to the first of these. -/
def familyFilter : Record :=
  [("name", .text "A%"), ("mother", .record [("father", .integer 5), ("name", .text "Eve")]),
    ("father", .record [("name", .null), ("id", .integer 7)])]

theorem scoped_of_gives_make_family :
    ∃ plan, (make ⟨[family]⟩ "family" family.declared familyFilter).Gives plan ∧ plan.Scoped ∧
      plan.tables.map (fun t => (t.aliasName, t.parent, t.name))
        = [("t1", "t0", "mother"), ("t2", "t1", "father"), ("t3", "t0", "father")] ∧
      plan.values = [.string (some "A%"), .string (some "Eve"), .bigInt (some 5),
        .bigInt (some 7)] := by
  -- the engine is asked for the columns once, whichever reference is followed
  let columns : List ColumnInfo := ⟨idName, "INTEGER", true⟩ ::
    family.declared.specs.map fun f => ⟨f.column, f.type.storageClass.keyword, false⟩
  let replies : List Reply := [.rows (columns.map ColumnInfo.row)]
  let planning := make ⟨[family]⟩ "family" family.declared familyFilter
  let outcome := (planning.play (fun _ => none) replies).result.1
  have htables : outcome.toOption.map (fun plan =>
      plan.tables.map fun t => (t.aliasName, t.parent, t.name))
        = some [("t1", "t0", "mother"), ("t2", "t1", "father"), ("t3", "t0", "father")] := by
    decide +kernel
  have hvalues : outcome.toOption.map values
      = some [.string (some "A%"), .string (some "Eve"), .bigInt (some 5), .bigInt (some 7)] := by
    decide +kernel
  have hruns : planning.Runs (fun _ => none) _ outcome _ :=
    Session.runs_play planning (fun _ => none) replies
  rcases houtcome : outcome with e | plan
  · rw [houtcome] at htables
    cases htables
  · rw [houtcome] at htables hvalues hruns
    have hgives : planning.Gives plan := ⟨_, _, _, hruns⟩
    exact ⟨plan, hgives, scoped_of_gives_make hgives, Option.some.inj htables,
      Option.some.inj hvalues⟩

end Plan

end RecordMapping

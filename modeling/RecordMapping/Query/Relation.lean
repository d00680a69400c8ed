import RecordMapping.Query.Plan
import RecordMapping.Record.Codec

/-!
# Relational queries

A plan becomes one statement. The table of the query is read as `t0`, and the joined tables as
`t1`, `t2` and so on, each before the tables that are joined to it. A join that hangs on an
optional reference keeps rows without a match, and so do all the joins below it. Each reference of
the table itself is read as one JSON object, with the objects of the tables below inside it.
-/

namespace RecordMapping

/-- The alias with a given number. -/
def tableAlias (n : Nat) : String := "t" ++ toString n

/-- The alias of the table of the query itself. -/
def rootAlias : String := tableAlias 0

/-- A joined table with its alias, and that of the table it is joined to. -/
inductive JoinedTable where
  | mk (aliasName parent : String) (kind : JoinKind) (field : FieldSpec) (table : String)
      (fields : FieldSet) (predicates : List Filter) (joins : List JoinedTable)

/-! ## Aliases -/

mutual
/-- How many tables a planned join brings in. -/
def PlannedJoin.size : PlannedJoin → Nat
  | .mk _ _ _ _ joins => PlannedJoin.sizeAll joins + 1
/-- How many tables a list of planned joins brings in. -/
def PlannedJoin.sizeAll : List PlannedJoin → Nat
  | [] => 0
  | j :: rest => PlannedJoin.size j + PlannedJoin.sizeAll rest
end

/-- The kind of a join: a join below one that keeps rows without a match keeps them too. -/
def joinKind (above : JoinKind) (field : FieldSpec) : JoinKind :=
  if above = .inner ∧ field.required then .inner else .left

mutual
/-- Gives a planned join its alias, the one with the number `next`, and those below it the aliases
that follow. -/
def PlannedJoin.place (parent : String) (above : JoinKind) (next : Nat) :
    PlannedJoin → JoinedTable
  | .mk field table fields predicates joins =>
    .mk (tableAlias next) parent (joinKind above field) field table fields predicates
      (PlannedJoin.placeAll (tableAlias next) (joinKind above field) (next + 1) joins)
/-- Gives a list of planned joins their aliases. -/
def PlannedJoin.placeAll (parent : String) (above : JoinKind) (next : Nat) :
    List PlannedJoin → List JoinedTable
  | [] => []
  | j :: rest =>
    PlannedJoin.place parent above next j ::
      PlannedJoin.placeAll parent above (next + PlannedJoin.size j) rest
end

namespace JoinedTable

/-- The name of the reference field along which a table is joined. -/
def name : JoinedTable → String
  | mk _ _ _ field .. => field.name

/-! ## Joins and conditions -/

mutual
/-- The joins that a joined table brings in, itself first. -/
def toJoins : JoinedTable → List Join
  | mk aliasName parent kind field table _ _ joins =>
    ⟨kind, table, aliasName, .equalColumns ⟨aliasName, idName⟩ ⟨parent, field.column⟩⟩ ::
      toJoinsAll joins
/-- The joins that a list of joined tables brings in. -/
def toJoinsAll : List JoinedTable → List Join
  | [] => []
  | j :: rest => toJoins j ++ toJoinsAll rest
end

mutual
/-- The conditions on a joined table and on those below it. -/
def conditions : JoinedTable → List Filter
  | mk aliasName _ _ _ _ _ predicates joins =>
    predicates.map (Filter.on aliasName) ++ conditionsAll joins
/-- The conditions on a list of joined tables. -/
def conditionsAll : List JoinedTable → List Filter
  | [] => []
  | j :: rest => conditions j ++ conditionsAll rest
end

/-! ## Embedded objects -/

/-- The members of a table's own fields, except those with an object of their own. -/
def ownMembers (aliasName : String) (fields : FieldSet) (nested : Named Expr) :
    List (String × Expr) :=
  (fields.specs.filter fun field => !nested.contains field.name).map fun field =>
    (field.column, .column ⟨aliasName, field.column⟩)

/-- The object of a joined table, or null if there is no row of it. Its members are the
identifier, the fields under their columns, and the objects of tables joined to it under their
fields. -/
def object (aliasName : String) (fields : FieldSet) (nested : Named Expr) : Expr :=
  .unlessNull ⟨aliasName, idName⟩ <| .jsonObject <|
    (idName, .column ⟨aliasName, idName⟩) :: ownMembers aliasName fields nested ++ nested

mutual
/-- The object of a joined table. -/
def projection : JoinedTable → Expr
  | mk aliasName _ _ _ _ fields _ joins => object aliasName fields (projections joins)
/-- The objects of a list of joined tables, each with the name of its field. -/
def projections : List JoinedTable → List (String × Expr)
  | [] => []
  | j :: rest => (j.name, projection j) :: projections rest
end

mutual
/-- How the object of a joined table is read. -/
def embedded : JoinedTable → Embedded
  | mk _ _ _ field _ fields _ joins => .mk field.name fields (embeddedAll joins)
/-- How the objects of a list of joined tables are read. -/
def embeddedAll : List JoinedTable → List Embedded
  | [] => []
  | j :: rest => embedded j :: embeddedAll rest
end

end JoinedTable

/-! ## The statement -/

/-- A statement together with how the objects in its rows are read. -/
structure RelationalQuery where
  select : Select
  embedded : List Embedded

namespace Plan

/-- The joined tables of a plan, with their aliases. -/
def joinedTables (plan : Plan) : List JoinedTable :=
  PlannedJoin.placeAll rootAlias .inner 1 plan.joins

/-- The conditions of a plan, those on the table itself first. -/
def conditions (plan : Plan) : List Filter :=
  plan.predicates.map (Filter.on rootAlias) ++ JoinedTable.conditionsAll plan.joinedTables

/-- The statement of a plan. -/
def select (plan : Plan) : Select where
  table := plan.table
  aliasName := some rootAlias
  projections := (JoinedTable.projections plan.joinedTables).map Prod.swap
  joins := JoinedTable.toJoinsAll plan.joinedTables
  filters := if plan.conditions.isEmpty then [] else [.and plan.conditions]
  order := [(some rootAlias, idName)]

/-- The relational query of a plan. -/
def query (plan : Plan) : RelationalQuery :=
  ⟨plan.select, JoinedTable.embeddedAll plan.joinedTables⟩

end Plan

/-- Compiles a filter on a table with the given fields into a relational query. -/
def compileRelational (registry : Registry) (table : String) (fields : FieldSet) (filter : Record) :
    Session RelationalQuery :=
  return (← Plan.make registry table fields filter).query

end RecordMapping

import RecordMapping.Sql.Expr

/-!
# Filters

A filter is a condition on columns. Where it names no table, it belongs to the one that it is used
for: `Filter.on` writes that table in, and `Filter.expr` takes it as a default.
-/

namespace RecordMapping

/-- A condition on columns. Where the table is `none` it is left open. -/
inductive Filter where
  | equal (table : Option String) (column : String) (value : Param)
  | like (table : Option String) (column : String) (pattern : String)
  | isNull (table : Option String) (column : String)
  | equalColumns (left right : ColumnRef)
  | and (filters : List Filter)

namespace Filter

/-- The conjunction of a list of expressions: the first, and each later one joined to what goes
before it. Without any it is the bound value true. -/
def conjunction : List Expr → Expr
  | [] => .value (.bool (some true))
  | first :: rest => rest.foldl .and first

mutual
/-- A filter as an expression, with a table for the columns that name none. -/
def expr (table : String) : Filter → Expr
  | .equal t column value => .equalsValue ⟨t.getD table, column⟩ value
  | .like t column pattern => .like ⟨t.getD table, column⟩ pattern
  | .isNull t column => .isNull ⟨t.getD table, column⟩
  | .equalColumns left right => .equalsColumn left right
  | .and filters => conjunction (exprs table filters)
/-- A list of filters as expressions. -/
def exprs (table : String) : List Filter → List Expr
  | [] => []
  | f :: rest => expr table f :: exprs table rest
end

mutual
/-- The filter with a table written in where it was left open. -/
def on (table : String) : Filter → Filter
  | .equal t column value => .equal (t.or (some table)) column value
  | .like t column pattern => .like (t.or (some table)) column pattern
  | .isNull t column => .isNull (t.or (some table)) column
  | .equalColumns left right => .equalColumns left right
  | .and filters => .and (onAll table filters)
/-- A list of filters with a table written in. -/
def onAll (table : String) : List Filter → List Filter
  | [] => []
  | f :: rest => on table f :: onAll table rest
end

end Filter

end RecordMapping

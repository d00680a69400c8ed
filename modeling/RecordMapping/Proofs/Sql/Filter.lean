import RecordMapping.Sql.Filter

/-!
# Laws of filters

Three walks go down a filter: `Filter.on` writes a table in, `Filter.expr` makes an expression of it,
with a table for the columns that name none, and the pieces of that expression bind values. Here they
are brought together. To write a table in is to take it as the default, once and for all, and what is
bound can be read off the parts of the filter in their order, without the expression: the operand of
each comparison with a value, and the value true for each conjunction of nothing
(`Filter.rendering_on`).
-/

namespace RecordMapping

namespace Filter

/-! ## Lists of filters -/

/-- The expressions of a list of filters, one by one. -/
theorem exprs_eq_map (table : String) (fs : List Filter) :
    exprs table fs = fs.map (expr table) := by
  induction fs with
  | nil => rfl
  | cons f rest ih => rw [exprs, ih, List.map_cons]

theorem map_on (table : String) (filters : List Filter) :
    filters.map (on table) = onAll table filters := by
  induction filters with
  | nil => rfl
  | cons f rest ih => rw [List.map_cons, onAll, ih]

/-! ## Tables written in -/

mutual
theorem on_on (a b : String) : ∀ f : Filter, (f.on a).on b = f.on a
  | .equal t _ _ | .like t _ _ | .isNull t _ => by cases t <;> rfl
  | .equalColumns _ _ => rfl
  | .and filters => by rw [on, on, onAll_onAll]
theorem onAll_onAll (a b : String) : ∀ filters : List Filter,
    onAll b (onAll a filters) = onAll a filters
  | [] => rfl
  | f :: rest => by rw [onAll, onAll, on_on, onAll_onAll]
end

mutual
/-- To write a table in is to take it as the default. What the default is then does not matter. -/
theorem expr_on (table source : String) : ∀ f : Filter, (f.on table).expr source = f.expr table
  | .equal t _ _ | .like t _ _ | .isNull t _ => by cases t <;> rfl
  | .equalColumns _ _ => rfl
  | .and filters => by rw [on, expr, expr, exprs_onAll]
theorem exprs_onAll (table source : String) : ∀ filters : List Filter,
    exprs source (onAll table filters) = exprs table filters
  | [] => rfl
  | f :: rest => by rw [onAll, exprs, exprs, expr_on, exprs_onAll]
end

/-! ## Values -/

mutual
/-- The values that a condition binds. A comparison with null or with another column binds none, an
empty conjunction the value true. -/
def values : Filter → List Param
  | equal _ _ value => [value]
  | like _ _ pattern => [.string (some pattern)]
  | isNull _ _ => []
  | equalColumns _ _ => []
  | and filters => if filters.isEmpty then [.bool (some true)] else valuesAll filters
/-- The values that a list of conditions binds. -/
def valuesAll : List Filter → List Param
  | [] => []
  | f :: rest => values f ++ valuesAll rest
end

theorem valuesAll_eq_flatMap (filters : List Filter) :
    valuesAll filters = filters.flatMap values := by
  induction filters with
  | nil => rfl
  | cons f rest ih => rw [valuesAll, ih, List.flatMap_cons]

/-- A conjunction binds what its parts bind, in their order, in parentheses or not. -/
theorem params_foldl_and (rest : List Expr) (first : Expr) :
    (rest.foldl .and first).pieces.params
      = first.pieces.params ++ rest.flatMap fun e => e.pieces.params := by
  induction rest generalizing first with
  | nil => simp
  | cons e rest ih =>
    have hand : (Expr.and first e).pieces.params = first.pieces.params ++ e.pieces.params := by
      rw [Expr.pieces]
      split <;> simp
    rw [List.foldl_cons, ih, hand, List.flatMap_cons, List.append_assoc]

mutual
/-- What a condition binds does not depend on the table it is used for. -/
theorem params_expr (table : String) : ∀ f : Filter, (f.expr table).pieces.params = f.values
  | equal .. | like .. | isNull .. | equalColumns .. => rfl
  | and [] => rfl
  | and (f :: rest) => by
    rw [expr, exprs, conjunction, params_foldl_and, params_expr, params_exprs]
    rfl
theorem params_exprs (table : String) :
    ∀ filters : List Filter,
      ((exprs table filters).flatMap fun e => e.pieces.params) = valuesAll filters
  | [] => rfl
  | f :: rest => by rw [exprs, List.flatMap_cons, params_expr, params_exprs, valuesAll]
end

/-- To write a table in changes no value. -/
theorem values_on (table : String) (f : Filter) : (f.on table).values = f.values := by
  rw [← params_expr table (f.on table), expr_on, params_expr]

/-! ## Parts -/

mutual
/-- A filter and all that it is made of, from left to right, a conjunction before what is in it. -/
def parts : Filter → List Filter
  | equal table column value => [equal table column value]
  | like table column pattern => [like table column pattern]
  | isNull table column => [isNull table column]
  | equalColumns left right => [equalColumns left right]
  | and filters => and filters :: partsAll filters
/-- The parts of a list of filters, one after the other. -/
def partsAll : List Filter → List Filter
  | [] => []
  | f :: rest => parts f ++ partsAll rest
end

/-- The value that a comparison compares its column with. -/
def operand? : Filter → Option Param
  | equal _ _ value => some value
  | like _ _ pattern => some (.string (some pattern))
  | isNull .. | equalColumns .. | and _ => none

/-- Whether a filter is the conjunction of nothing. -/
def isVacuous : Filter → Bool
  | and [] => true
  | _ => false

/-- The value that a filter binds apart from those that the filters in it bind. -/
def bound? (f : Filter) : Option Param :=
  if f.isVacuous then some (.bool (some true)) else f.operand?

mutual
/-- The values of a condition are those of its parts. -/
theorem values_eq_filterMap : ∀ f : Filter, f.values = f.parts.filterMap bound?
  | equal .. | like .. | isNull .. | equalColumns .. => rfl
  | and [] => rfl
  -- the conjunction itself, first among its parts, binds nothing
  | and (f :: rest) => valuesAll_eq_filterMap (f :: rest)
theorem valuesAll_eq_filterMap :
    ∀ filters : List Filter, valuesAll filters = (partsAll filters).filterMap bound?
  | [] => rfl
  | f :: rest => by
    rw [valuesAll, partsAll, List.filterMap_append, values_eq_filterMap, valuesAll_eq_filterMap]
end

/-- Among what is bound, the value true stands once for each comparison with it, and once for each
conjunction of nothing. -/
theorem count_true_filterMap (fs : List Filter) :
    (fs.filterMap bound?).count (.bool (some true))
      = (fs.filterMap operand?).count (.bool (some true)) + fs.countP isVacuous := by
  induction fs with
  | nil => rfl
  | cons f rest ih =>
    by_cases hvacuous : f.isVacuous = true
    · -- such a filter has no operand of its own
      have hbound : f.bound? = some (.bool (some true)) := if_pos hvacuous
      have hoperand : f.operand? = none := by
        unfold isVacuous at hvacuous
        split at hvacuous
        · rfl
        · cases hvacuous
      rw [List.filterMap_cons_some hbound, List.filterMap_cons_none hoperand,
        List.count_cons_self, List.countP_cons_of_pos hvacuous, ih, Nat.add_assoc]
    · have hbound : f.bound? = f.operand? := if_neg hvacuous
      rw [List.countP_cons_of_neg hvacuous]
      cases hoperand : f.operand? with
      | none =>
        rw [List.filterMap_cons_none (hbound.trans hoperand), List.filterMap_cons_none hoperand, ih]
      | some value =>
        rw [List.filterMap_cons_some (hbound.trans hoperand), List.filterMap_cons_some hoperand,
          List.count_cons, List.count_cons, ih, Nat.add_right_comm]

/-- A filter with a table written in makes the expression that the filter makes for that table,
whatever it is used for, and keeps that table. Its expression binds the operands of the comparisons
in it, from left to right, and among them the value true where a conjunction of nothing stands, once
for each of these and not more often. -/
theorem rendering_on (f : Filter) (table other source : String) :
    (f.on table).expr source = f.expr table ∧ (f.on table).on other = f.on table ∧
      (f.expr source).pieces.params = f.parts.filterMap bound? ∧
      (f.expr source).pieces.params.count (.bool (some true))
        = (f.parts.filterMap operand?).count (.bool (some true)) + f.parts.countP isVacuous := by
  have hparams : (f.expr source).pieces.params = f.parts.filterMap bound? := by
    rw [params_expr, values_eq_filterMap]
  refine ⟨expr_on table source f, on_on table other f, hparams, ?_⟩
  rw [hparams, count_true_filterMap]

/-- A conjunction of nothing binds its value where it stands, and so do comparisons with true. -/
example : ((Filter.and [.and [], .equal (some "t1") "done" (.bool (some true)),
    .and [.like none "name" "A%", .equalColumns ⟨"t1", "id"⟩ ⟨"t0", "one"⟩, .and []]]).expr
      "t0").pieces.params
    = [.bool (some true), .bool (some true), .string (some "A%"), .bool (some true)] := by
  decide

end Filter

end RecordMapping

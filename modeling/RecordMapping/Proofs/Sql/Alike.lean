import RecordMapping.Proofs.Sql.Statement

/-!
# Statements that are alike

Two parts of statements are alike if they differ only in the values that they bind, and all of these
have physical values. Filters that are alike make selections that are (`Select.Alike.pieces`). What is
alike has the same text and binds equally many values (`Pieces.Alike.exists_query`), so the text of
such a statement does not depend on the values.
-/

namespace RecordMapping

/-- Whether a value has a physical one. -/
def Param.IsStored (p : Param) : Prop := ∃ d, p.datum = .ok d

/-- The same text, or two values. -/
inductive Piece.Alike : Piece → Piece → Prop where
  | text (s : String) : Alike (.text s) (.text s)
  | bind {p q : Param} (hp : p.IsStored) (hq : q.IsStored) : Alike (.bind p) (.bind q)

/-- Pieces that are alike one by one. -/
def Pieces.Alike (a b : Pieces) : Prop := List.Forall₂ Piece.Alike a b

mutual
/-- The same conditions on the same columns, up to the values. -/
inductive Filter.Alike : Filter → Filter → Prop where
  | equal (table : Option String) (column : String) {p q : Param} (hp : p.IsStored)
    (hq : q.IsStored) : Alike (.equal table column p) (.equal table column q)
  | like (table : Option String) (column : String) (p q : String) :
    Alike (.like table column p) (.like table column q)
  | isNull (table : Option String) (column : String) :
    Alike (.isNull table column) (.isNull table column)
  | equalColumns (left right : ColumnRef) : Alike (.equalColumns left right) (.equalColumns left right)
  | and {filters filters' : List Filter} (h : AlikeAll filters filters') :
    Alike (.and filters) (.and filters')
/-- Lists of filters that are alike one by one. -/
inductive Filter.AlikeAll : List Filter → List Filter → Prop where
  | nil : AlikeAll [] []
  | cons {f f' : Filter} {rest rest' : List Filter} (h : Alike f f') (hrest : AlikeAll rest rest') :
    AlikeAll (f :: rest) (f' :: rest')
end

/-- Expressions with pieces that are alike, in the same need of parentheses. -/
def Expr.Alike (e e' : Expr) : Prop := e.isAnd = e'.isAnd ∧ Pieces.Alike e.pieces e'.pieces

/-! ## Pieces -/

namespace Pieces

variable {a a' b b' : Pieces}

theorem Alike.nil : Alike [] [] := List.Forall₂.nil

theorem Alike.text (s : String) (h : Alike a b) : Alike (.text s :: a) (.text s :: b) :=
  .cons (.text s) h

theorem Alike.bind {p q : Param} (hp : p.IsStored) (hq : q.IsStored) (h : Alike a b) :
    Alike (.bind p :: a) (.bind q :: b) :=
  .cons (.bind hp hq) h

theorem Alike.append (h : Alike a b) (h' : Alike a' b') : Alike (a ++ a') (b ++ b') :=
  List.rel_append h h'

/-- What is alike has the same text. -/
theorem Alike.text_eq (h : Alike a b) : Pieces.text a = Pieces.text b := by
  induction h with
  | nil => rfl
  | cons hpiece _ ih =>
    rw [text_cons, text_cons, ih]
    cases hpiece <;> rfl

theorem Alike.separated {separator : String} {parts parts' : List Pieces}
    (h : List.Forall₂ Alike parts parts') :
    Alike (separated separator parts) (separated separator parts') := by
  unfold Pieces.separated
  induction h with
  | nil => exact .nil
  | @cons part part' rest rest' hpart hrest ih =>
    cases hrest with
    | nil => simpa using hpart
    | cons hnext hrest' =>
      rw [List.intercalate_cons_cons, List.intercalate_cons_cons]
      exact (hpart.append (.text separator .nil)).append ih

theorem Alike.flatMap {α : Type} {f : α → Pieces} {l : List α}
    (h : ∀ x ∈ l, Alike (f x) (f x)) : Alike (l.flatMap f) (l.flatMap f) := by
  induction l with
  | nil => exact .nil
  | cons x rest ih =>
    rw [List.flatMap_cons]
    exact (h x List.mem_cons_self).append (ih fun y hy => h y (List.mem_cons_of_mem x hy))

/-- What is alike can be sent, with as many values. -/
theorem Alike.exists_data (h : Alike a b) : ∃ data data', Param.data (Pieces.params a) = .ok data ∧
    Param.data (Pieces.params b) = .ok data' ∧ data.length = data'.length := by
  induction h with
  | nil => exact ⟨[], [], rfl, rfl, rfl⟩
  | cons hpiece _ ih =>
    cases hpiece with
    | text s => exact ih
    | bind hp hq =>
      obtain ⟨data, data', hdata, hdata', hlength⟩ := ih
      obtain ⟨d, hd⟩ := hp
      obtain ⟨d', hd'⟩ := hq
      exact ⟨d :: data, d' :: data', data_eq_ok_iff.2 (.cons hd (data_eq_ok_iff.1 hdata)),
        data_eq_ok_iff.2 (.cons hd' (data_eq_ok_iff.1 hdata')), congrArg (· + 1) hlength⟩

/-- What is alike makes queries of the same text, with as many values. -/
theorem Alike.exists_query (h : Alike a b) : ∃ q q', Pieces.query a = .ok q ∧
    Pieces.query b = .ok q' ∧ q.sql = q'.sql ∧ q.params.length = q'.params.length := by
  obtain ⟨data, data', hdata, hdata', hlength⟩ := h.exists_data
  exact ⟨_, _, query_of_data hdata, query_of_data hdata', h.text_eq, hlength⟩

end Pieces

/-! ## Expressions -/

namespace Expr

theorem Alike.equalsValue (column : ColumnRef) {p q : Param} (hp : p.IsStored) (hq : q.IsStored) :
    Alike (.equalsValue column p) (.equalsValue column q) :=
  ⟨rfl, .text _ (.bind hp hq .nil)⟩

theorem Alike.like (column : ColumnRef) (p q : String) :
    Alike (.like column p) (.like column q) :=
  ⟨rfl, .text _ (.bind ⟨_, rfl⟩ ⟨_, rfl⟩ .nil)⟩

theorem Alike.isNull (column : ColumnRef) : Alike (.isNull column) (.isNull column) :=
  ⟨rfl, .text _ .nil⟩

theorem Alike.column (column : ColumnRef) : Alike (.column column) (.column column) :=
  ⟨rfl, .text _ .nil⟩

theorem Alike.equalsColumn (left right : ColumnRef) :
    Alike (.equalsColumn left right) (.equalsColumn left right) :=
  ⟨rfl, .text _ .nil⟩

/-- Whether the right part stands in parentheses is the same in both. -/
theorem Alike.and {l l' r r' : Expr} (hl : Alike l l') (hr : Alike r r') :
    Alike (.and l r) (.and l' r') := by
  refine ⟨rfl, ?_⟩
  unfold Expr.pieces
  rw [← hr.1]
  split
  · exact (hl.2.append (.text _ hr.2)).append (.text _ .nil)
  · exact hl.2.append (.text _ hr.2)

theorem Alike.unlessNull (column : ColumnRef) {e e' : Expr} (h : Alike e e') :
    Alike (.unlessNull column e) (.unlessNull column e') := by
  refine ⟨rfl, ?_⟩
  unfold Expr.pieces
  exact (Pieces.Alike.text _ h.2).append (.text _ .nil)

/-- The keys of a JSON object are bound too. -/
theorem Alike.jsonObject {members : List (String × Expr)}
    (hvalue : ∀ m ∈ members, Alike m.2 m.2) :
    Alike (.jsonObject members) (.jsonObject members) := by
  have hmembers : List.Forall₂ Pieces.Alike (memberPieces members) (memberPieces members) := by
    induction members with
    | nil => exact .nil
    | cons m rest ih =>
      rw [List.forall_mem_cons] at hvalue
      exact .cons (.bind ⟨_, rfl⟩ ⟨_, rfl⟩ (.text _ hvalue.1.2)) (ih hvalue.2)
  refine ⟨rfl, ?_⟩
  unfold Expr.pieces
  exact (Pieces.Alike.text _ (.separated hmembers)).append (.text _ .nil)

end Expr

/-! ## Filters -/

namespace Filter

theorem alikeAll_iff {fs gs : List Filter} : AlikeAll fs gs ↔ List.Forall₂ Alike fs gs := by
  constructor
  · intro h
    induction fs generalizing gs with
    | nil =>
      cases h
      exact .nil
    | cons f rest ih =>
      cases h with
      | cons hf hrest => exact .cons hf (ih hrest)
  · intro h
    induction h with
    | nil => exact .nil
    | cons hf _ ih => exact .cons hf ih

/-- Joining expressions that are alike gives such. Without any, the value true is bound. -/
theorem alike_conjunction {es es' : List Expr}
    (h : List.Forall₂ Expr.Alike es es') : (conjunction es).Alike (conjunction es') := by
  cases h with
  | nil => exact ⟨rfl, .bind ⟨_, rfl⟩ ⟨_, rfl⟩ .nil⟩
  | @cons first first' rest rest' hfirst hrest =>
    unfold conjunction
    induction hrest generalizing first first' with
    | nil => exact hfirst
    | cons hnext _ ih => exact ih (hfirst.and hnext)

mutual
/-- Filters that are alike stay so where a table is written in. -/
theorem Alike.on (table : String) : ∀ {f g : Filter}, f.Alike g → (f.on table).Alike (g.on table)
  | .equal .., _, h => by
    cases h with
    | equal _ _ hp hq => exact .equal _ _ hp hq
  | .like .., _, h => by
    cases h
    exact .like _ _ _ _
  | .isNull .., _, h => by
    cases h
    exact .isNull _ _
  | .equalColumns .., _, h => by
    cases h
    exact .equalColumns _ _
  | .and _, _, h => by
    cases h with
    | and hall =>
      rw [Filter.on, Filter.on]
      exact .and (hall.onAll table)
/-- The same for lists of filters. -/
theorem AlikeAll.onAll (table : String) :
    ∀ {fs gs : List Filter}, AlikeAll fs gs → AlikeAll (onAll table fs) (onAll table gs)
  | [], _, h => by
    cases h
    exact .nil
  | _ :: _, _, h => by
    cases h with
    | cons hf hrest => exact .cons (hf.on table) (hrest.onAll table)
end

mutual
/-- Filters that are alike make expressions that are. -/
theorem Alike.expr (table : String) :
    ∀ {f g : Filter}, f.Alike g → (f.expr table).Alike (g.expr table)
  | .equal .., _, h => by
    cases h with
    | equal _ _ hp hq => exact .equalsValue _ hp hq
  | .like .., _, h => by
    cases h
    exact .like _ _ _
  | .isNull .., _, h => by
    cases h
    exact .isNull _
  | .equalColumns .., _, h => by
    cases h
    exact .equalsColumn _ _
  | .and _, _, h => by
    cases h with
    | and hall =>
      rw [Filter.expr, Filter.expr]
      exact alike_conjunction (hall.exprs table)
/-- The same for lists of filters. -/
theorem AlikeAll.exprs (table : String) :
    ∀ {fs gs : List Filter}, AlikeAll fs gs →
      List.Forall₂ Expr.Alike (exprs table fs) (exprs table gs)
  | [], _, h => by
    cases h
    exact .nil
  | _ :: _, _, h => by
    cases h with
    | cons hf hrest => exact .cons (hf.expr table) (hrest.exprs table)
end

end Filter

/-! ## Selections -/

/-- The condition of a statement. -/
theorem alike_wherePieces (table : String)
    {filters filters' : List Filter} (h : Filter.AlikeAll filters filters') :
    Pieces.Alike (wherePieces table filters) (wherePieces table filters') := by
  cases h with
  | nil => exact .nil
  | cons hf hrest => exact .text _ ((Filter.Alike.and (.cons hf hrest)).expr table).2

namespace Select

/-- The same up to the values in the conditions. -/
structure Alike (s s' : Select) : Prop where
  table : s.table = s'.table
  aliasName : s.aliasName = s'.aliasName
  projections : s.projections = s'.projections
  projected : ∀ p ∈ s.projections, p.1.Alike p.1
  joins : s.joins = s'.joins
  joined : ∀ j ∈ s.joins, j.on.Alike j.on
  filters : Filter.AlikeAll s.filters s'.filters
  order : s.order = s'.order
  limit : s.limit = s'.limit

/-- A selection of rows of one table is as its conditions are. -/
theorem Alike.of_filters {table : String} {filters filters' : List Filter}
    {order : List (Option String × String)} {limit : Option UInt64}
    (h : Filter.AlikeAll filters filters') :
    Alike { table := table, filters := filters, order := order, limit := limit }
      { table := table, filters := filters', order := order, limit := limit } :=
  ⟨rfl, rfl, rfl, List.forall_mem_nil _, rfl, List.forall_mem_nil _, h, rfl, rfl⟩

theorem Alike.pieces {s s' : Select} (h : s.Alike s') :
    Pieces.Alike s.pieces s'.pieces := by
  obtain ⟨table, aliasName, projections, joins, filters, order, limit⟩ := s
  obtain ⟨table', aliasName', projections', joins', filters', order', limit'⟩ := s'
  obtain ⟨rfl, rfl, rfl, hprojected, rfl, hjoined, hfilters, rfl, rfl⟩ := h
  have hlimit : Pieces.Alike (limitPieces limit) (limitPieces limit) := by
    cases limit with
    | none => exact .nil
    | some n => exact .text _ (.bind ⟨_, rfl⟩ ⟨_, rfl⟩ .nil)
  have hprojections := Pieces.Alike.flatMap (f := projectionPieces) fun p hp =>
    .text _ ((hprojected p hp).2.append (.text _ .nil))
  have hjoins := Pieces.Alike.flatMap (f := joinPieces (aliasName.getD table)) fun j hj =>
    .text _ ((hjoined j hj).expr _).2
  refine Pieces.Alike.append ?_ (.text _ hlimit)
  refine Pieces.Alike.append ?_ (alike_wherePieces _ hfilters)
  exact (Pieces.Alike.text _ hprojections).append (.text _ hjoins)

end Select

/-! ## Statements -/

/-- Both statements can be sent, with the same text and as many values. -/
def Statement.Alike (statement statement' : Statement) : Prop :=
  ∃ query query', statement.query = .ok query ∧ statement'.query = .ok query' ∧
    query.sql = query'.sql ∧ query.params.length = query'.params.length

/-- Statements that select are alike if what they select is. -/
theorem Select.Alike.statement {s s' : Select} (h : s.Alike s') :
    (Statement.select s).Alike (.select s') :=
  h.pieces.exists_query

end RecordMapping

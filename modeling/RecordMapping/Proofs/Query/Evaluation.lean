import RecordMapping.Proofs.Json.Parser
import RecordMapping.Proofs.Sql.Filter
import RecordMapping.Query.Relation

/-!
# What statements mean to an engine

The text of a SELECT is read by an engine. This file says what the engine is taken to do with it:

* `Operators`, the comparisons and the writing of objects, which belong to the engine, with the few
  laws that the library relies on;
* `Expr.eval`, the value of an expression where aliases are bound to rows;
* `Database` and `Select.bindings`, the rows that the joins and conditions of a SELECT put
  together, in the order in which the joins stand.
-/

namespace RecordMapping

/-! ## Rows bound to aliases -/

namespace Row

/-- What a row has in a column. A column that it lacks counts as null. -/
def value (row : Row) (column : String) : Datum := (row.get? column).getD (.text none)

/-- The row that stands in where a join finds none: all its columns are null. -/
def nulls : Row := ⟨"", []⟩

/-- The row with an identifier and further columns. -/
def identified (id : Int64) (columns : Named Datum) : Row :=
  ⟨"", (idName, .int64 (some id)) :: columns⟩

end Row

/-- The rows that aliases stand for. -/
abbrev Bindings := String → Row

namespace Bindings

/-- Binds one more alias, in place of what it stood for. -/
def set (b : Bindings) (aliasName : String) (row : Row) : Bindings :=
  fun a => if a = aliasName then row else b a

@[simp] theorem set_self (b : Bindings) (a : String) (row : Row) : b.set a row a = row :=
  if_pos rfl

theorem set_of_ne (b : Bindings) {a aliasName : String} (row : Row) (h : a ≠ aliasName) :
    b.set aliasName row a = b a :=
  if_neg h

/-- What the column of an alias holds. -/
def value (b : Bindings) (c : ColumnRef) : Datum := (b c.table).value c.column

end Bindings

/-! ## The engine's part -/

/-- What an engine brings along to evaluate expressions. A comparison with null is unknown, and an
identifier equals nothing that another identifier equals. In an object nulls, integers and texts
are written as they are everywhere. Of the texts of numbers nothing is assumed but that they are
numbers: an engine may write fewer digits than a number has, or one that is too great to be
read. -/
structure Operators where
  /-- Whether two values are equal; `none` is unknown. -/
  equal : Datum → Datum → Option Bool
  /-- Whether a value fits a pattern; `none` is unknown. -/
  like : Datum → String → Option Bool
  /-- The text of a value as a member of an object. -/
  write : Datum → String
  /-- What the library reads for an object that is a member of another one, from what it reads for
  the object; `none` is a document that cannot be read. -/
  nest : Option Json → Option Json
  equal_null : ∀ a b, a.isNull ∨ b.isNull → equal a b = none
  equal_unique : ∀ i j b, equal (.int64 (some i)) b = some true →
    equal (.int64 (some j)) b = some true → i = j
  write_null : ∀ d, d.isNull = true → write d = "null"
  write_integer : ∀ i, write (.int64 (some i)) = (Json.ofInt64 i).text
  write_text : ∀ s, write (.text (some s)) = (Json.string s).text
  write_number : ∀ x json, x.isFinite = true →
    Json.parse (write (.double (some x))) = some json → ∃ n, json = .number n
  /-- A nested object is the object itself, or a string with the text of it. -/
  nest_document : ∀ document, nest document = document ∨
    ∃ text, nest document = some (.string text) ∧ Json.parse text = document

namespace Operators

variable (ops : Operators)

/-- A null is read back from an object. -/
theorem parse_write_of_isNull {d : Datum} (h : d.isNull = true) :
    Json.parse (ops.write d) = some .null := by
  have htext : Json.text .null = "null" := by decide
  have hordered : Json.null.Ordered := trivial
  rw [ops.write_null d h, ← htext]
  exact Json.parse_text hordered (Nat.zero_le _)

/-- An integer is read back from an object. -/
theorem parse_write_integer (i : Int64) :
    Json.parse (ops.write (.int64 (some i))) = some (.ofInt64 i) := by
  have hordered : (Json.ofInt64 i).Ordered := trivial
  rw [ops.write_integer, Json.parse_text_eq_self_iff hordered (Nat.zero_le _)]
  intro x finite hmem
  cases List.mem_singleton.1 hmem

/-- A text is read back from an object. -/
theorem parse_write_text (s : String) :
    Json.parse (ops.write (.text (some s))) = some (.string s) := by
  have hordered : (Json.string s).Ordered := trivial
  rw [ops.write_text]
  exact Json.parse_text hordered (Nat.zero_le _)

end Operators

/-- Whether a condition holds of a text or of one of its ends. -/
def someSuffix (p : List Char → Bool) : List Char → Bool
  | [] => p []
  | c :: s => p (c :: s) || someSuffix p s

/-- Whether a text fits a pattern: a per cent sign stands for any text, and an underscore for any
character. -/
def fitsPattern : List Char → List Char → Bool
  | [], s => s.isEmpty
  | '%' :: pattern, s => someSuffix (fitsPattern pattern) s
  | '_' :: pattern, s => !s.isEmpty && fitsPattern pattern s.tail
  | c :: pattern, s => s.head? = some c && fitsPattern pattern s.tail

/-- Operators that compare values as they stand, write a number with the digits that tell it from
others, and nest an object as it is. -/
def Operators.plain : Operators where
  equal a b := if a.isNull ∨ b.isNull then none else some (a = b)
  like
    | .text (some s), pattern => some (fitsPattern pattern.toList s.toList)
    | _, _ => none
  write
    | .int64 (some i) => (Json.ofInt64 i).text
    | .double (some x) => (Json.ofBinary64 x).text
    | .text (some s) => (Json.string s).text
    | _ => "null"
  nest := id
  equal_null _ _ h := if_pos h
  equal_unique i j b hi hj := by
    split at hi
    · cases hi
    · next hnull =>
      rw [if_neg (fun h => hnull (h.imp_left fun h => by cases h))] at hj
      have hi : Datum.int64 (some i) = b := by simpa using hi
      have hj : Datum.int64 (some j) = b := by simpa using hj
      cases hi.trans hj.symm
      rfl
  write_null d h := by
    split
    · cases h
    · cases h
    · cases h
    · rfl
  write_integer _ := rfl
  write_text _ := rfl
  write_number x json hfinite h := by
    have hnumber : Json.ofBinary64 x = .number (.real x hfinite) := by
      unfold Json.ofBinary64 JsonNumber.ofReal?
      rw [dif_pos hfinite]
    refine Json.number_of_parse_text (n := .real x hfinite) ?_
    rw [← hnumber]
    exact h
  nest_document _ := .inl rfl

/-- What an expression evaluates to: a physical value, or a document that a function built. The
document is what the library reads from its text, `none` if the text cannot be read. -/
inductive SqlValue where
  | datum (value : Datum)
  | json (document : Option Json)

namespace SqlValue

/-- The truth of a value; `none` is unknown. -/
def truth : SqlValue → Option Bool
  | .datum (.boolean b) => b
  | _ => none

/-- Whether a value is true. A condition that is unknown is not. -/
def isTrue (v : SqlValue) : Bool := v.truth = some true

end SqlValue

/-- What the library reads for the value of an expression that is a member of an object. -/
def SqlValue.member? (ops : Operators) : SqlValue → Option Json
  | .datum d => Json.parse (ops.write d)
  | .json document => ops.nest document

/-- The conjunction of two truths: false if one of them is, and true if both are. -/
def andTruth : Option Bool → Option Bool → Option Bool
  | some false, _ | _, some false => some false
  | some true, some true => some true
  | _, _ => none

/-- The physical value of a bound parameter. One without a physical value is never sent. -/
def Param.bound (p : Param) : Datum :=
  match p.datum with
  | .ok d => d
  | .error _ => .text none

namespace Expr

mutual
/-- The value of an expression. An object can be read if all its members can be. -/
def eval (ops : Operators) (b : Bindings) : Expr → SqlValue
  | .value p => .datum p.bound
  | .column c => .datum (b.value c)
  | .equalsValue c p => .datum (.boolean (ops.equal (b.value c) p.bound))
  | .equalsColumn c d => .datum (.boolean (ops.equal (b.value c) (b.value d)))
  | .like c pattern => .datum (.boolean (ops.like (b.value c) pattern))
  | .isNull c => .datum (.boolean (some (b.value c).isNull))
  | .and l r => .datum (.boolean (andTruth (eval ops b l).truth (eval ops b r).truth))
  | .jsonObject members =>
    .json ((evalMembers ops b members).map fun values => .object (Members.ofList values))
  | .unlessNull c e => if (b.value c).isNull then .datum (.text none) else eval ops b e
/-- The members of an object with what is read for their values. -/
def evalMembers (ops : Operators) (b : Bindings) :
    List (String × Expr) → Option (List (String × Json))
  | [] => some []
  | (key, e) :: rest =>
    ((eval ops b e).member? ops).bind fun json =>
      (evalMembers ops b rest).map fun values => (key, json) :: values
end

theorem isTrue_andTruth (s t : Option Bool) :
    (SqlValue.datum (.boolean (andTruth s t))).isTrue
      = (decide (s = some true) && t = some true) := by
  rcases s with _ | _ | _ <;> rcases t with _ | _ | _ <;> rfl

/-- A conjunction is true if both its parts are. -/
theorem isTrue_eval_and (ops : Operators) (b : Bindings) (l r : Expr) :
    ((Expr.and l r).eval ops b).isTrue = ((l.eval ops b).isTrue && (r.eval ops b).isTrue) := by
  rw [eval, isTrue_andTruth]
  rfl

section Members

variable {ops : Operators} {b : Bindings} {members : List (String × Expr)}
  {pairs : List (String × Json)}

theorem evalMembers_cons {key : String} {e : Expr} :
    evalMembers ops b ((key, e) :: members) = some pairs ↔
      ∃ json rest, (e.eval ops b).member? ops = some json ∧ evalMembers ops b members = some rest ∧
        (key, json) :: rest = pairs := by
  simp [evalMembers, Option.bind_eq_some_iff]

/-- An object that can be read has the keys of its members. -/
theorem names_evalMembers (h : evalMembers ops b members = some pairs) :
    Named.names pairs = Named.names members := by
  induction members generalizing pairs with
  | nil =>
    cases h
    rfl
  | cons m members ih =>
    obtain ⟨key, e⟩ := m
    obtain ⟨json, rest, _, hrest, rfl⟩ := evalMembers_cons.1 h
    rw [Named.names_cons, Named.names_cons, ih hrest]

/-- In an object that can be read, so can each member be. -/
theorem mem_evalMembers (h : evalMembers ops b members = some pairs) {key : String} {e : Expr}
    (hmem : (key, e) ∈ members) :
    ∃ json, (e.eval ops b).member? ops = some json ∧ (key, json) ∈ pairs := by
  induction members generalizing pairs with
  | nil => cases hmem
  | cons m members ih =>
    obtain ⟨key', e'⟩ := m
    obtain ⟨json, rest, hjson, hrest, rfl⟩ := evalMembers_cons.1 h
    rcases List.mem_cons.1 hmem with hm | hmem
    · cases hm
      exact ⟨json, hjson, List.mem_cons_self⟩
    · obtain ⟨json', hjson', hmem'⟩ := ih hrest hmem
      exact ⟨json', hjson', List.mem_cons_of_mem _ hmem'⟩

/-- An object can be read if all its members can be. -/
theorem exists_evalMembers
    (h : ∀ m ∈ members, ((m.2.eval ops b).member? ops).isSome = true) :
    ∃ pairs, evalMembers ops b members = some pairs := by
  induction members with
  | nil => exact ⟨[], rfl⟩
  | cons m members ih =>
    obtain ⟨key, e⟩ := m
    rw [List.forall_mem_cons] at h
    obtain ⟨json, hjson⟩ := Option.isSome_iff_exists.1 h.1
    obtain ⟨rest, hrest⟩ := ih h.2
    exact ⟨(key, json) :: rest, evalMembers_cons.2 ⟨json, rest, hjson, hrest, rfl⟩⟩

end Members

end Expr

namespace Filter

/-- Whether a filter is true where aliases are bound; `table` is the alias for the columns that
name none. -/
def isTrue (ops : Operators) (b : Bindings) (table : String) (f : Filter) : Bool :=
  ((f.expr table).eval ops b).isTrue

/-- A conjunction of expressions is true if all of them are. -/
theorem isTrue_eval_conjunction (ops : Operators) (b : Bindings) (es : List Expr) :
    ((conjunction es).eval ops b).isTrue = es.all fun e => (e.eval ops b).isTrue := by
  have foldl_and : ∀ (rest : List Expr) (first : Expr),
      ((rest.foldl Expr.and first).eval ops b).isTrue
        = ((first.eval ops b).isTrue && rest.all fun e => (e.eval ops b).isTrue) := by
    intro rest
    induction rest with
    | nil =>
      intro first
      simp
    | cons e rest ih =>
      intro first
      rw [List.foldl_cons, ih, Expr.isTrue_eval_and, List.all_cons, Bool.and_assoc]
  cases es with
  | nil => rfl
  | cons first rest => rw [conjunction, foldl_and, List.all_cons]

/-- A conjunction of filters is true if all of them are. -/
theorem isTrue_and (ops : Operators) (b : Bindings) (table : String) (fs : List Filter) :
    (Filter.and fs).isTrue ops b table = fs.all (isTrue ops b table) := by
  rw [isTrue, expr, isTrue_eval_conjunction, exprs_eq_map, List.all_map]
  rfl

end Filter

/-! ## Databases -/

/-- Tables by name, with their rows. The identifiers in a table are distinct integers. -/
structure Database where
  rows : String → List Row
  identified : ∀ table, ∃ ids : List Int64, ids.Nodup ∧
    (rows table).map (·.value idName) = ids.map fun i => .int64 (some i)

/-- The row of a table with a given identifier. Null identifies no row. -/
def Database.target? (ops : Operators) (db : Database) (table : String) (key : Datum) :
    Option Row :=
  if key.isNull then none
  else (db.rows table).find? fun row => ops.equal (row.value idName) key = some true

namespace Database

variable (ops : Operators) (db : Database) (table : String)

theorem nodup_rows : (db.rows table).Nodup := by
  obtain ⟨ids, hnodup, hids⟩ := db.identified table
  have hmap : (ids.map fun i => Datum.int64 (some i)).Nodup := by
    refine List.Pairwise.map _ ?_ hnodup
    intro i j hij h
    cases h
    exact hij rfl
  rw [← hids] at hmap
  refine List.Pairwise.of_map _ ?_ hmap
  intro r s h hrs
  exact h (by rw [hrs])

/-- In a list whose members satisfy a condition one at most, filtering finds what searching
finds. -/
theorem filter_eq_toList_find? {α : Type} (p : α → Bool) {l : List α}
    (h : l.Pairwise fun a b => ¬(p a = true ∧ p b = true)) : l.filter p = (l.find? p).toList := by
  induction l with
  | nil => rfl
  | cons a l ih =>
    rw [List.pairwise_cons] at h
    by_cases ha : p a = true
    · rw [List.filter_cons_of_pos ha, List.find?_cons_of_pos ha]
      have hl : l.filter p = [] := by
        rw [List.filter_eq_nil_iff]
        intro b hb hp
        exact h.1 b hb ⟨ha, hp⟩
      rw [hl]
      rfl
    · rw [List.filter_cons_of_neg ha, List.find?_cons_of_neg ha, ih h.2]

/-- The rows whose identifier equals a key are the one that it identifies, if there is one. -/
theorem filter_equal (key : Datum) :
    ((db.rows table).filter fun row => ops.equal (row.value idName) key = some true)
      = (db.target? ops table key).toList := by
  rw [target?]
  by_cases hkey : key.isNull = true
  · rw [if_pos hkey, List.filter_eq_nil_iff.2]
    · rfl
    · intro row _
      simp [ops.equal_null _ _ (.inr hkey)]
  · rw [if_neg hkey]
    apply filter_eq_toList_find?
    obtain ⟨ids, hnodup, hids⟩ := db.identified table
    -- no two identifiers equal the key, so neither do those of two rows
    have hmap : ((db.rows table).map (·.value idName)).Pairwise fun a b =>
        ¬(ops.equal a key = some true ∧ ops.equal b key = some true) := by
      rw [hids]
      refine List.Pairwise.map _ ?_ hnodup
      intro i j hij h
      exact hij (ops.equal_unique i j key h.1 h.2)
    refine List.Pairwise.of_map _ ?_ hmap
    intro a b h
    simpa using h

end Database

/-! ## The rows of a SELECT -/

/-- The ways to extend bindings by a join: one for each row that satisfies its condition, and one
with nulls where a join keeps rows without a match. -/
def Join.extend (ops : Operators) (db : Database) (source : String) (join : Join) (b : Bindings) :
    List Bindings :=
  let matching := (db.rows join.table).filter fun row =>
    join.on.isTrue ops (b.set join.aliasName row) source
  if matching.isEmpty ∧ join.kind = .left then [b.set join.aliasName Row.nulls]
  else matching.map (b.set join.aliasName)

/-- The ways to extend bindings by joins, one after the other. -/
def Join.extendAll (ops : Operators) (db : Database) (source : String) :
    List Join → Bindings → List Bindings
  | [], b => [b]
  | join :: rest, b => (join.extend ops db source b).flatMap (extendAll ops db source rest)

namespace Select

/-- The bindings that a SELECT starts from, one for each row of its table. -/
def start (s : Select) (row : Row) : Bindings := Bindings.set (fun _ => Row.nulls) s.source row

/-- The bindings that a SELECT selects, before they are ordered. -/
def bindings (ops : Operators) (db : Database) (s : Select) : List Bindings :=
  ((db.rows s.table).flatMap fun row => Join.extendAll ops db s.source s.joins (s.start row)).filter
    ((Filter.and s.filters).isTrue ops · s.source)

/-- The rows of its own table that a SELECT selects. -/
def selected (ops : Operators) (db : Database) (s : Select) : List Row :=
  (s.bindings ops db).map (· s.source)

end Select

end RecordMapping

import RecordMapping.Proofs.Query.Compiling
import RecordMapping.Proofs.Query.Evaluation
import RecordMapping.Proofs.Results

/-!
# A plan as a nested condition, and as one flat statement

A plan is a tree: a row is in its result if the conditions on it hold and if, for each reference to
follow, the row that it refers to is there and is accepted in turn (`Plan.accepts`). The statement
of the plan is flat: one list of joins, one conjunction of conditions, and an alias for each table.
The main result, `selected_select`, is that the statement selects the rows that the tree accepts.

The proof goes down the tree. A joined table and those below it have the aliases of one interval
(`map_aliasName_toJoins`), so joins that come later do not touch the rows that its conditions speak
of, and because an identifier belongs to one row at most, each part of the tree extends bindings in
one way at most (`filter_extendAll_place`).
-/

namespace RecordMapping

/-! ## The nested reading -/

/-- Whether a condition holds of a row, which all its columns are taken from. -/
def Filter.holds (ops : Operators) (row : Row) (f : Filter) : Bool :=
  f.isTrue ops (fun _ => row) ""

mutual
/-- Whether a row of the table above is accepted by a planned join. The reference has to have a
target that is accepted in turn; if it is optional, or one above it is, a row of nulls stands in
for a missing target. -/
def PlannedJoin.accepts (ops : Operators) (db : Database) (optional : Bool) (row : Row) :
    PlannedJoin → Bool
  | .mk field table _ predicates joins =>
    match db.target? ops table (row.value field.column) with
    | some target =>
      predicates.all (Filter.holds ops target) &&
        acceptsAll ops db (optional || !field.required) target joins
    | none =>
      (optional || !field.required) && (predicates.all (Filter.holds ops Row.nulls) &&
        acceptsAll ops db (optional || !field.required) Row.nulls joins)
/-- Whether a row is accepted by each of a list of planned joins. -/
def PlannedJoin.acceptsAll (ops : Operators) (db : Database) (optional : Bool) (row : Row) :
    List PlannedJoin → Bool
  | [] => true
  | j :: rest => accepts ops db optional row j && acceptsAll ops db optional row rest
end

/-- Whether a row of the table of a plan is in its result. -/
def Plan.accepts (ops : Operators) (db : Database) (plan : Plan) (row : Row) : Bool :=
  plan.predicates.all (Filter.holds ops row) &&
    PlannedJoin.acceptsAll ops db false row plan.joins

/-! ## Conditions that name no table -/

/-- Whether a condition is on one column and leaves its table open. -/
def Filter.isLocal : Filter → Bool
  | .equal none _ _ | .like none _ _ | .isNull none _ => true
  | _ => false

mutual
/-- Whether all conditions of a planned join, and of those below it, leave their table open. -/
def PlannedJoin.isLocal : PlannedJoin → Bool
  | .mk _ _ _ predicates joins => predicates.all Filter.isLocal && isLocalAll joins
/-- Whether all conditions of a list of planned joins leave their table open. -/
def PlannedJoin.isLocalAll : List PlannedJoin → Bool
  | [] => true
  | j :: rest => isLocal j && isLocalAll rest
end

/-- Whether all conditions of a plan leave their table open. -/
def Plan.isLocal (plan : Plan) : Bool :=
  plan.predicates.all Filter.isLocal && PlannedJoin.isLocalAll plan.joins

/-- A condition with an alias written in speaks of the row of that alias and of no other. -/
theorem Filter.isTrue_on {f : Filter} (h : f.isLocal = true) (ops : Operators) (b : Bindings)
    (a source : String) : (f.on a).isTrue ops b source = f.holds ops (b a) := by
  unfold isLocal at h
  split at h
  · rfl
  · rfl
  · rfl
  · cases h

/-- The same for a list of conditions. -/
theorem Filter.all_isTrue_on {fs : List Filter} (h : fs.all isLocal = true) (ops : Operators)
    (b : Bindings) (a source : String) :
    (fs.map (on a)).all (isTrue ops b source) = fs.all (holds ops (b a)) := by
  induction fs with
  | nil => rfl
  | cons f rest ih =>
    rw [List.all_cons, Bool.and_eq_true] at h
    rw [List.map_cons, List.all_cons, List.all_cons, isTrue_on h.1, ih h.2]

/-- The condition that a key of a filter becomes leaves its table open. -/
theorem Clause.isLocal_of_item {fields : FieldSet} {name : String} {value : Value} {f : Filter}
    (h : item fields name value = .ok (some (.predicate f))) : f.isLocal = true := by
  cases item_eq_ok_iff.1 h with
  | noIdentifier | identifier | isNull | like | equal => rfl

/-- The conditions and joins of a compiled filter come from its keys. -/
theorem Clause.exists_item_of_mem {fields : FieldSet} {filter : Record} {clause : Clause}
    (h : compile fields filter = .ok clause) :
    (∀ f ∈ clause.predicates, ∃ name value, item fields name value = .ok (some (.predicate f))) ∧
      ∀ j ∈ clause.joins, ∃ name value, item fields name value = .ok (some (.join j)) := by
  unfold compile at h
  obtain ⟨items, hitems, hclause⟩ := bind_eq_ok.1 h
  cases hclause
  have hitem : ∀ i ∈ items.filterMap id, ∃ name value, item fields name value = .ok (some i) := by
    intro i hi
    obtain ⟨some?, hsome, rfl⟩ := List.mem_filterMap.1 hi
    obtain ⟨⟨name, value⟩, _, hitem⟩ := exists_of_mem_mapM hitems hsome
    exact ⟨name, value, hitem⟩
  constructor
  · intro f hf
    obtain ⟨i, hi, hpredicate⟩ := List.mem_filterMap.1 hf
    cases i <;> cases hpredicate
    exact hitem _ hi
  · intro j hj
    obtain ⟨i, hi, hjoin⟩ := List.mem_filterMap.1 hj
    cases i <;> cases hjoin
    exact hitem _ hi

/-- Compiling a filter gives conditions that leave their table open. -/
theorem Clause.all_isLocal_compile {fields : FieldSet} {filter : Record} {clause : Clause}
    (h : compile fields filter = .ok clause) : clause.predicates.all Filter.isLocal = true := by
  rw [List.all_eq_true]
  intro f hf
  obtain ⟨name, value, hitem⟩ := (exists_item_of_mem h).1 f hf
  exact isLocal_of_item hitem

/-! ## Aliases -/

/-- Different numbers give different aliases. -/
theorem tableAlias_injective {m n : Nat} (h : tableAlias m = tableAlias n) : m = n := by
  unfold tableAlias at h
  have hrepr : (toString m).toList = (toString n).toList :=
    congrArg String.toList ((String.append_right_inj "t").1 h)
  rw [Nat.toString_eq_repr, Nat.toString_eq_repr, Nat.toList_repr, Nat.toList_repr] at hrepr
  rw [← Nat.ofDigitChars_ten_toDigits (n := m), hrepr, Nat.ofDigitChars_ten_toDigits]

/-- The aliases that a list of joins binds. -/
def Join.aliases (joins : List Join) : List String := joins.map Join.aliasName

@[simp] theorem Join.aliases_append (joins rest : List Join) :
    aliases (joins ++ rest) = aliases joins ++ aliases rest := List.map_append

/-- Extending bindings leaves alone what the joins do not bind. -/
theorem Join.extend_apply {ops : Operators} {db : Database} {source : String} {join : Join}
    {b b' : Bindings} (h : b' ∈ join.extend ops db source b) {a : String}
    (ha : a ≠ join.aliasName) : b' a = b a := by
  unfold extend at h
  simp only at h
  split at h
  · rw [List.mem_singleton.1 h, Bindings.set_of_ne _ _ ha]
  · obtain ⟨row, -, rfl⟩ := List.mem_map.1 h
    exact Bindings.set_of_ne _ _ ha

/-- The same for joins one after the other. -/
theorem Join.extendAll_apply {ops : Operators} {db : Database} {source : String}
    {joins : List Join} {b b' : Bindings} (h : b' ∈ extendAll ops db source joins b) {a : String}
    (ha : a ∉ aliases joins) : b' a = b a := by
  induction joins generalizing b with
  | nil => rw [List.mem_singleton.1 h]
  | cons join rest ih =>
    rw [aliases, List.map_cons, List.mem_cons, not_or] at ha
    obtain ⟨c, hc, hb'⟩ := List.mem_flatMap.1 h
    rw [ih hb' ha.2, extend_apply hc ha.1]

/-- Two lists of joins, one after the other. -/
theorem Join.extendAll_append (ops : Operators) (db : Database) (source : String)
    (joins rest : List Join) (b : Bindings) :
    extendAll ops db source (joins ++ rest) b
      = (extendAll ops db source joins b).flatMap (extendAll ops db source rest) := by
  induction joins generalizing b with
  | nil => simp [extendAll]
  | cons join joins ih =>
    simp only [List.cons_append, extendAll, List.flatMap_assoc]
    congr 1
    funext c
    exact ih c

mutual
/-- A planned join binds as many aliases as it has tables, in the order of the tables. -/
theorem PlannedJoin.aliases_place (parent : String) (above : JoinKind) (next : Nat)
    (j : PlannedJoin) :
    Join.aliases (place parent above next j).toJoins
      = (List.range' next j.size).map tableAlias := by
  obtain ⟨field, table, fields, predicates, joins⟩ := j
  rw [place, JoinedTable.toJoins, size, List.range'_succ, List.map_cons,
    ← aliases_placeAll (tableAlias next) (joinKind above field) (next + 1) joins]
  rfl
/-- The same for a list of planned joins. -/
theorem PlannedJoin.aliases_placeAll (parent : String) (above : JoinKind) (next : Nat)
    (joins : List PlannedJoin) :
    Join.aliases (JoinedTable.toJoinsAll (placeAll parent above next joins))
      = (List.range' next (sizeAll joins)).map tableAlias := by
  cases joins with
  | nil => rfl
  | cons j rest =>
    rw [placeAll, JoinedTable.toJoinsAll, Join.aliases_append, aliases_place, aliases_placeAll,
      ← List.map_append, List.range'_append_1, sizeAll]
end

/-- An alias is one of an interval exactly if its number is in it. -/
theorem tableAlias_mem_map_range' {k next n : Nat} :
    tableAlias k ∈ (List.range' next n).map tableAlias ↔ next ≤ k ∧ k < next + n := by
  rw [List.mem_map]
  constructor
  · rintro ⟨i, hi, hik⟩
    rw [← tableAlias_injective hik]
    exact List.mem_range'_1.1 hi
  · intro hk
    exact ⟨k, List.mem_range'_1.2 hk, rfl⟩

/-! ## Joins and conditions together -/

/-- What an optional reference leaves optional below it is what joins keep without a match. -/
theorem decide_joinKind_eq_left (above : JoinKind) (field : FieldSpec) :
    decide (joinKind above field = .left) = (decide (above = .left) || !field.required) := by
  unfold joinKind
  cases above <;> cases field.required <;> rfl

/-- A condition that later joins do not touch can be checked before them. -/
theorem Join.filter_extendAll_append {ops : Operators} {db : Database} {source : String}
    (joins : List Join) {rest : List Join} {p : Bindings → Bool} (q : Bindings → Bool)
    (hp : ∀ b, ∀ b' ∈ extendAll ops db source rest b, p b' = p b) (b : Bindings) :
    (extendAll ops db source (joins ++ rest) b).filter (fun b' => p b' && q b')
      = ((extendAll ops db source joins b).filter p).flatMap fun c =>
          (extendAll ops db source rest c).filter q := by
  rw [extendAll_append]
  generalize extendAll ops db source joins b = l
  induction l with
  | nil => rfl
  | cons c l ih =>
    rw [List.flatMap_cons, List.filter_append, ih]
    by_cases hc : p c = true
    · rw [List.filter_cons_of_pos hc, List.flatMap_cons]
      congr 1
      refine List.filter_congr ?_
      intro b' hb'
      rw [hp c b' hb', hc, Bool.true_and]
    · rw [List.filter_cons_of_neg hc, List.filter_eq_nil_iff.2, List.nil_append]
      intro b' hb'
      rw [hp c b' hb', Bool.and_eq_true]
      exact fun h => hc h.1

mutual
/-- The conditions of a placed join speak of the rows of its own interval of aliases only. -/
theorem PlannedJoin.all_conditions_congr {ops : Operators} {source parent : String}
    {above : JoinKind} {next : Nat} {b b' : Bindings} {j : PlannedJoin} (hlocal : j.isLocal = true)
    (h : ∀ k, next ≤ k → k < next + j.size → b (tableAlias k) = b' (tableAlias k)) :
    (place parent above next j).conditions.all (Filter.isTrue ops b source)
      = (place parent above next j).conditions.all (Filter.isTrue ops b' source) := by
  obtain ⟨field, table, fields, predicates, joins⟩ := j
  rw [isLocal, Bool.and_eq_true] at hlocal
  rw [size] at h
  have hown : b (tableAlias next) = b' (tableAlias next) := h next (by omega) (by omega)
  rw [place, JoinedTable.conditions, List.all_append, List.all_append,
    Filter.all_isTrue_on hlocal.1, Filter.all_isTrue_on hlocal.1, hown]
  congr 1
  refine all_conditionsAll_congr hlocal.2 ?_
  intro k hk hlt
  exact h k (by omega) (by omega)
/-- The same for a list of placed joins. -/
theorem PlannedJoin.all_conditionsAll_congr {ops : Operators} {source parent : String}
    {above : JoinKind} {next : Nat} {b b' : Bindings} {joins : List PlannedJoin}
    (hlocal : isLocalAll joins = true)
    (h : ∀ k, next ≤ k → k < next + sizeAll joins → b (tableAlias k) = b' (tableAlias k)) :
    (JoinedTable.conditionsAll (placeAll parent above next joins)).all (Filter.isTrue ops b source)
      = (JoinedTable.conditionsAll (placeAll parent above next joins)).all
          (Filter.isTrue ops b' source) := by
  cases joins with
  | nil => rfl
  | cons j rest =>
    rw [isLocalAll, Bool.and_eq_true] at hlocal
    rw [sizeAll] at h
    rw [placeAll, JoinedTable.conditionsAll, List.all_append, List.all_append]
    congr 1
    · refine all_conditions_congr hlocal.1 ?_
      intro k hk hlt
      exact h k hk (by omega)
    · refine all_conditionsAll_congr hlocal.2 ?_
      intro k hk hlt
      exact h k (by omega) (by omega)
end

/-- The join of a placed reference binds the row that it refers to, or nulls where it may. -/
theorem Join.extend_place (ops : Operators) (db : Database) (source table column : String)
    (kind : JoinKind) {i next : Nat} (hi : i < next) (b : Bindings) :
    extend ops db source
        ⟨kind, table, tableAlias next,
          .equalColumns ⟨tableAlias next, idName⟩ ⟨tableAlias i, column⟩⟩ b
      = match db.target? ops table ((b (tableAlias i)).value column) with
        | some target => [b.set (tableAlias next) target]
        | none => if kind = .left then [b.set (tableAlias next) Row.nulls] else [] := by
  -- the row above stays bound where it was
  have hne : tableAlias i ≠ tableAlias next := by
    intro h
    have := tableAlias_injective h
    omega
  have hon : ∀ row,
      (Filter.equalColumns ⟨tableAlias next, idName⟩ ⟨tableAlias i, column⟩).isTrue ops
          (b.set (tableAlias next) row) source
        = decide (ops.equal (row.value idName) ((b (tableAlias i)).value column) = some true) := by
    intro row
    show decide (ops.equal ((b.set (tableAlias next) row).value ⟨tableAlias next, idName⟩)
      ((b.set (tableAlias next) row).value ⟨tableAlias i, column⟩) = some true) = _
    rw [Bindings.value, Bindings.value, Bindings.set_self, Bindings.set_of_ne _ _ hne]
  unfold extend
  simp only [hon, Database.filter_equal]
  cases db.target? ops table ((b (tableAlias i)).value column) with
  | none => simp
  | some target => simp

/-- The list has one member if the condition holds, and none otherwise. -/
def IsOneIf {α : Type} (condition : Bool) (l : List α) : Prop := l.length = condition.toNat

theorem isOneIf_filter_singleton {α : Type} (p : α → Bool) (a : α) :
    IsOneIf (p a) ([a].filter p) := by
  unfold IsOneIf
  cases h : p a <;> simp [h]

/-- Going on from the one member of a list. -/
theorem IsOneIf.flatMap {α β : Type} {p q : Bool} {l : List α} {f : α → List β} (hl : IsOneIf p l)
    (hf : ∀ a ∈ l, IsOneIf q (f a)) : IsOneIf (p && q) (l.flatMap f) := by
  unfold IsOneIf at *
  cases p with
  | false =>
    rw [List.length_eq_zero_iff.1 hl]
    rfl
  | true =>
    obtain ⟨a, rfl⟩ := List.length_eq_one_iff.1 hl
    rw [List.flatMap_singleton, hf a (List.mem_singleton_self a), Bool.true_and]

/-- One join, with the conditions on its row, on top of joins that extend bindings in one way at
most. -/
theorem Join.isOneIf_extendAll_cons (ops : Operators) (db : Database) (source : String)
    (kind : JoinKind) (table column : String) {i next : Nat} (hi : i < next)
    {predicates : List Filter} (hlocal : predicates.all Filter.isLocal = true) {rest : List Join}
    (hrest : tableAlias next ∉ aliases rest) {below : Bindings → Bool} {accepted : Row → Bool}
    (hbelow : ∀ c, IsOneIf (accepted (c (tableAlias next)))
      ((extendAll ops db source rest c).filter below)) (b : Bindings) :
    IsOneIf
      (match db.target? ops table ((b (tableAlias i)).value column) with
        | some target => predicates.all (Filter.holds ops target) && accepted target
        | none => decide (kind = .left) &&
          (predicates.all (Filter.holds ops Row.nulls) && accepted Row.nulls))
      ((extendAll ops db source
          (⟨kind, table, tableAlias next,
            .equalColumns ⟨tableAlias next, idName⟩ ⟨tableAlias i, column⟩⟩ :: rest) b).filter
        fun b' =>
          (predicates.map (Filter.on (tableAlias next))).all (Filter.isTrue ops b' source) &&
            below b') := by
  have hcheck : ∀ b, ∀ b' ∈ extendAll ops db source rest b,
      predicates.all (Filter.holds ops (b' (tableAlias next)))
        = predicates.all (Filter.holds ops (b (tableAlias next))) := by
    intro b b' hb'
    rw [extendAll_apply hb' hrest]
  -- whichever row the join binds, the conditions on it are checked, and then the rest
  have hbound : ∀ row, IsOneIf (predicates.all (Filter.holds ops row) && accepted row)
      (([b.set (tableAlias next) row].filter fun b' =>
          predicates.all (Filter.holds ops (b' (tableAlias next)))).flatMap fun c =>
        (extendAll ops db source rest c).filter below) := by
    intro row
    refine IsOneIf.flatMap ?_ ?_
    · have := isOneIf_filter_singleton (fun b' : Bindings =>
        predicates.all (Filter.holds ops (b' (tableAlias next)))) (b.set (tableAlias next) row)
      rwa [Bindings.set_self] at this
    · intro c hc
      have hrow : c (tableAlias next) = row := by
        rw [List.mem_singleton.1 (List.mem_filter.1 hc).1, Bindings.set_self]
      rw [← hrow]
      exact hbelow c
  simp only [Filter.all_isTrue_on hlocal]
  rw [← List.singleton_append, filter_extendAll_append _ _ hcheck, extendAll,
    extend_place _ _ _ _ _ _ hi]
  cases db.target? ops table ((b (tableAlias i)).value column) with
  | some target => exact hbound target
  | none =>
    cases kind with
    | inner => rfl
    | left => exact hbound Row.nulls

mutual
/-- The joins and conditions of a placed join extend bindings in one way if the row above is
accepted, and in no way otherwise. -/
theorem PlannedJoin.filter_extendAll_place (ops : Operators) (db : Database) (source : String)
    {j : PlannedJoin} (hlocal : j.isLocal = true) (above : JoinKind) {i next : Nat} (hi : i < next)
    (b : Bindings) :
    IsOneIf (j.accepts ops db (above = .left) (b (tableAlias i)))
      ((Join.extendAll ops db source (place (tableAlias i) above next j).toJoins b).filter
        fun b' => (place (tableAlias i) above next j).conditions.all
          (Filter.isTrue ops b' source)) := by
  obtain ⟨field, table, fields, predicates, joins⟩ := j
  rw [isLocal, Bool.and_eq_true] at hlocal
  rw [accepts, place, JoinedTable.toJoins, JoinedTable.conditions, ← decide_joinKind_eq_left]
  simp only [List.all_append]
  refine Join.isOneIf_extendAll_cons ops db source _ _ _ hi hlocal.1 ?_ ?_ b
  · rw [aliases_placeAll, tableAlias_mem_map_range']
    omega
  · exact filter_extendAll_placeAll ops db source hlocal.2 _ (Nat.lt_succ_self next)
/-- The same for a list of placed joins. -/
theorem PlannedJoin.filter_extendAll_placeAll (ops : Operators) (db : Database) (source : String)
    {joins : List PlannedJoin} (hlocal : isLocalAll joins = true) (above : JoinKind)
    {i next : Nat} (hi : i < next) (b : Bindings) :
    IsOneIf (acceptsAll ops db (above = .left) (b (tableAlias i)) joins)
      ((Join.extendAll ops db source
          (JoinedTable.toJoinsAll (placeAll (tableAlias i) above next joins)) b).filter
        fun b' => (JoinedTable.conditionsAll (placeAll (tableAlias i) above next joins)).all
          (Filter.isTrue ops b' source)) := by
  cases joins with
  | nil => rfl
  | cons j rest =>
    rw [isLocalAll, Bool.and_eq_true] at hlocal
    rw [placeAll, JoinedTable.toJoinsAll, JoinedTable.conditionsAll, acceptsAll]
    simp only [List.all_append]
    rw [Join.filter_extendAll_append]
    · refine IsOneIf.flatMap (filter_extendAll_place ops db source hlocal.1 above hi b) ?_
      intro c hc
      -- the first join binds aliases from `next` on, and not that of the row above
      have hrow : c (tableAlias i) = b (tableAlias i) := by
        refine Join.extendAll_apply (List.mem_filter.1 hc).1 ?_
        rw [aliases_place, tableAlias_mem_map_range']
        omega
      rw [← hrow]
      exact filter_extendAll_placeAll ops db source hlocal.2 above (by omega) c
    · -- nor do the others bind the aliases that the conditions of the first one speak of
      intro b b' hb'
      refine all_conditions_congr hlocal.1 ?_
      intro k hk hlt
      refine Join.extendAll_apply hb' ?_
      rw [aliases_placeAll, tableAlias_mem_map_range']
      omega
end

/-! ## The statement of a plan -/

/-- Rows that go on in one way at most, and do so exactly if they satisfy a condition. -/
theorem map_flatMap_eq_filter {α β : Type} {p : α → Bool} {f : α → List β} {g : β → α}
    (hf : ∀ a, IsOneIf (p a) (f a)) (hg : ∀ a, ∀ b ∈ f a, g b = a) (l : List α) :
    (l.flatMap f).map g = l.filter p := by
  induction l with
  | nil => rfl
  | cons a l ih =>
    have ha := hf a
    unfold IsOneIf at ha
    rw [List.flatMap_cons, List.map_append, ih]
    cases hp : p a with
    | false =>
      rw [hp] at ha
      rw [List.length_eq_zero_iff.1 ha, List.filter_cons_of_neg (by simp [hp])]
      rfl
    | true =>
      rw [hp] at ha
      obtain ⟨b, hb⟩ := List.length_eq_one_iff.1 ha
      rw [hb, List.filter_cons_of_pos hp, ← hg a b (by simp [hb])]
      rfl

namespace Plan

variable (ops : Operators) (db : Database)

/-- The conditions of the statement are those of the plan, all of them true. -/
theorem isTrue_filters_select (plan : Plan) (b : Bindings) :
    (Filter.and plan.select.filters).isTrue ops b rootAlias
      = plan.conditions.all (Filter.isTrue ops b rootAlias) := by
  rw [Filter.isTrue_and]
  unfold select
  cases h : plan.conditions with
  | nil => rfl
  | cons f rest => simp [Filter.isTrue_and]

/-- From one row of its table the statement goes on in one way at most. -/
theorem isOneIf_extendAll_select {plan : Plan} (hlocal : plan.isLocal = true) (row : Row) :
    IsOneIf (plan.accepts ops db row)
      ((Join.extendAll ops db rootAlias plan.select.joins (plan.select.start row)).filter
        fun b => plan.conditions.all (Filter.isTrue ops b rootAlias)) := by
  rw [isLocal, Bool.and_eq_true] at hlocal
  have hstart : plan.select.start row rootAlias = row := Bindings.set_self _ _ _
  -- the conditions on the root can be checked before any join
  have hroot : ∀ b, ∀ b' ∈ Join.extendAll ops db rootAlias plan.select.joins b,
      plan.predicates.all (Filter.holds ops (b' rootAlias))
        = plan.predicates.all (Filter.holds ops (b rootAlias)) := by
    intro b b' hb'
    rw [Join.extendAll_apply hb']
    show tableAlias 0 ∉ _
    rw [select, joinedTables, PlannedJoin.aliases_placeAll, tableAlias_mem_map_range']
    omega
  simp only [conditions, List.all_append, Filter.all_isTrue_on hlocal.1]
  rw [← List.nil_append plan.select.joins, Join.filter_extendAll_append _ _ hroot]
  refine IsOneIf.flatMap ?_ ?_
  · rw [← hstart]
    exact isOneIf_filter_singleton (fun b : Bindings =>
      plan.predicates.all (Filter.holds ops (b rootAlias))) (plan.select.start row)
  · intro c hc
    have hrow : c (tableAlias 0) = row := by
      rw [List.mem_singleton.1 (List.mem_filter.1 hc).1]
      exact hstart
    rw [← hrow]
    exact PlannedJoin.filter_extendAll_placeAll ops db rootAlias hlocal.2 .inner
      (Nat.lt_succ_self 0) c

/-- The flat statement of a plan selects exactly the rows that the tree accepts, each of them
once. -/
theorem selected_select (plan : Plan) (hlocal : plan.isLocal = true) :
    plan.select.selected ops db = (db.rows plan.table).filter (plan.accepts ops db) ∧
      (plan.select.selected ops db).Nodup := by
  have hselected : plan.select.selected ops db
      = (db.rows plan.table).filter (plan.accepts ops db) := by
    have hsource : plan.select.source = rootAlias := rfl
    unfold Select.selected Select.bindings
    simp only [hsource, isTrue_filters_select, List.filter_flatMap]
    refine map_flatMap_eq_filter (isOneIf_extendAll_select ops db hlocal) ?_ _
    intro row b hb
    have hrow : b rootAlias = plan.select.start row rootAlias := by
      refine Join.extendAll_apply (List.mem_filter.1 hb).1 ?_
      show tableAlias 0 ∉ _
      rw [select, joinedTables, PlannedJoin.aliases_placeAll, tableAlias_mem_map_range']
      omega
    rw [hrow]
    exact Bindings.set_self _ _ _
  refine ⟨hselected, ?_⟩
  rw [hselected]
  exact (db.nodup_rows plan.table).filter _

/-- People, some of whom live in a town that there is no row of, and edges between them. -/
def peopleAndEdges : Database where
  rows table :=
    if table = "people" then
      [Row.identified 1 [("name", .text (some "ann"))],
        Row.identified 2 [("name", .text (some "bob")), ("home", .int64 (some 7))]]
    else if table = "edges" then
      [Row.identified 1 [("from", .int64 (some 1))],
        Row.identified 2 [("from", .int64 (some 2)), ("to", .int64 (some 1))],
        Row.identified 3 [("to", .int64 (some 1))],
        Row.identified 4 [("from", .int64 (some 1)), ("to", .int64 (some 2))]]
    else []
  identified table := by
    split
    · exact ⟨[1, 2], by decide, by decide +kernel⟩
    · split
      · exact ⟨[1, 2, 3, 4], by decide, by decide +kernel⟩
      · exact ⟨[], by decide, rfl⟩

/-- The edges from somebody whose name starts with an a, with those that they lead to, and where
these live. -/
def edgesFromA : Plan where
  table := "edges"
  fields := .empty
  predicates := []
  joins :=
    [.mk { name := "from", type := .reference, physical := some "from" } "people" .empty
        [.like none "name" "a%"] [],
      .mk { name := "to", type := .reference, required := false, physical := some "to" } "people"
        .empty []
        [.mk { name := "home", type := .reference, physical := some "home" } "towns" .empty [] []]]

theorem selected_select_edgesFromA :
    edgesFromA.select.selected .plain peopleAndEdges
        = [Row.identified 1 [("from", .int64 (some 1))],
          Row.identified 4 [("from", .int64 (some 1)), ("to", .int64 (some 2))]] ∧
      (edgesFromA.select.selected .plain peopleAndEdges).Nodup := by
  obtain ⟨hselected, hnodup⟩ := selected_select .plain peopleAndEdges edgesFromA (by decide)
  refine ⟨?_, hnodup⟩
  rw [hselected]
  decide +kernel

end Plan

end RecordMapping

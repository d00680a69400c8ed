import RecordMapping.Proofs.Sql.Alike
import RecordMapping.Query.Relation

/-!
# Plans that are alike

Two plans are alike if they differ in the values of their conditions alone. Their statements are
alike then (`Plan.Alike.select`): they join the same tables under the same aliases and read the same
objects, and the conditions stand in the same order.
-/

namespace RecordMapping

mutual
/-- The same join, and the same joins below it, with conditions that are alike. -/
inductive PlannedJoin.Alike : PlannedJoin → PlannedJoin → Prop where
  | mk (field : FieldSpec) (table : String) (fields : FieldSet) {predicates predicates' : List Filter}
    {joins joins' : List PlannedJoin} (hpredicates : Filter.AlikeAll predicates predicates')
    (hjoins : AlikeAll joins joins') :
    Alike (.mk field table fields predicates joins) (.mk field table fields predicates' joins')
/-- Lists of joins that are alike one by one. -/
inductive PlannedJoin.AlikeAll : List PlannedJoin → List PlannedJoin → Prop where
  | nil : AlikeAll [] []
  | cons {j j' : PlannedJoin} {rest rest' : List PlannedJoin} (h : Alike j j')
    (hrest : AlikeAll rest rest') : AlikeAll (j :: rest) (j' :: rest')
end

mutual
/-- The same joined table under the same alias, and the same tables below it, with conditions that
are alike. -/
inductive JoinedTable.Alike : JoinedTable → JoinedTable → Prop where
  | mk (aliasName parent : String) (kind : JoinKind) (field : FieldSpec) (table : String)
    (fields : FieldSet) {predicates predicates' : List Filter} {joins joins' : List JoinedTable}
    (hpredicates : Filter.AlikeAll predicates predicates') (hjoins : AlikeAll joins joins') :
    Alike (.mk aliasName parent kind field table fields predicates joins)
      (.mk aliasName parent kind field table fields predicates' joins')
/-- Lists of joined tables that are alike one by one. -/
inductive JoinedTable.AlikeAll : List JoinedTable → List JoinedTable → Prop where
  | nil : AlikeAll [] []
  | cons {j j' : JoinedTable} {rest rest' : List JoinedTable} (h : Alike j j')
    (hrest : AlikeAll rest rest') : AlikeAll (j :: rest) (j' :: rest')
end

/-- The same query, with joins and conditions that are alike. -/
structure Plan.Alike (p p' : Plan) : Prop where
  table : p.table = p'.table
  fields : p.fields = p'.fields
  predicates : Filter.AlikeAll p.predicates p'.predicates
  joins : PlannedJoin.AlikeAll p.joins p'.joins

theorem Filter.AlikeAll.append {fs fs' gs gs' : List Filter} (hf : AlikeAll fs fs')
    (hg : AlikeAll gs gs') : AlikeAll (fs ++ gs) (fs' ++ gs') :=
  alikeAll_iff.2 (List.rel_append (alikeAll_iff.1 hf) (alikeAll_iff.1 hg))

theorem Filter.AlikeAll.map_on {fs fs' : List Filter} (h : AlikeAll fs fs') (table : String) :
    AlikeAll (fs.map (Filter.on table)) (fs'.map (Filter.on table)) := by
  refine alikeAll_iff.2 (List.forall₂_map_left_iff.2 (List.forall₂_map_right_iff.2 ?_))
  exact (alikeAll_iff.1 h).imp fun _ _ hf => hf.on table

/-! ## Aliases -/

namespace PlannedJoin

theorem alikeAll_iff {js js' : List PlannedJoin} :
    AlikeAll js js' ↔ List.Forall₂ Alike js js' := by
  constructor
  · intro h
    induction js generalizing js' with
    | nil =>
      cases h
      exact .nil
    | cons j rest ih =>
      cases h with
      | cons hj hrest => exact .cons hj (ih hrest)
  · intro h
    induction h with
    | nil => exact .nil
    | cons hj _ ih => exact .cons hj ih

mutual
/-- Joins that are alike bring in equally many tables. -/
theorem Alike.size_eq : ∀ {j j' : PlannedJoin}, j.Alike j' → j.size = j'.size
  | .mk .., _, h => by
    cases h with
    | mk _ _ _ _ hjoins => rw [size, size, hjoins.sizeAll_eq]
/-- The same for lists of joins. -/
theorem AlikeAll.sizeAll_eq : ∀ {js js' : List PlannedJoin}, AlikeAll js js' →
    sizeAll js = sizeAll js'
  | [], _, h => by
    cases h
    rfl
  | _ :: _, _, h => by
    cases h with
    | cons hj hrest => rw [sizeAll, sizeAll, hj.size_eq, hrest.sizeAll_eq]
end

mutual
/-- Joins that are alike have the same aliases. -/
theorem Alike.place (parent : String) (above : JoinKind) (next : Nat) :
    ∀ {j j' : PlannedJoin}, j.Alike j' →
      (j.place parent above next).Alike (j'.place parent above next)
  | .mk .., _, h => by
    cases h with
    | mk _ _ _ hpredicates hjoins =>
      rw [PlannedJoin.place, PlannedJoin.place]
      exact .mk _ _ _ _ _ _ hpredicates (hjoins.placeAll _ _ _)
/-- The same for lists of joins. -/
theorem AlikeAll.placeAll (parent : String) (above : JoinKind) (next : Nat) :
    ∀ {js js' : List PlannedJoin}, AlikeAll js js' →
      JoinedTable.AlikeAll (placeAll parent above next js) (placeAll parent above next js')
  | [], _, h => by
    cases h
    exact .nil
  | _ :: _, _, h => by
    cases h with
    | cons hj hrest =>
      rw [PlannedJoin.placeAll, PlannedJoin.placeAll, ← hj.size_eq]
      exact .cons (hj.place parent above next) (hrest.placeAll parent above _)
end

end PlannedJoin

/-! ## Joins, conditions and objects -/

namespace JoinedTable

mutual
theorem Alike.toJoins_eq : ∀ {j j' : JoinedTable}, j.Alike j' → j.toJoins = j'.toJoins
  | .mk .., _, h => by
    cases h with
    | mk _ _ _ _ _ _ _ hjoins => rw [toJoins, toJoins, hjoins.toJoinsAll_eq]
theorem AlikeAll.toJoinsAll_eq : ∀ {js js' : List JoinedTable}, AlikeAll js js' →
    toJoinsAll js = toJoinsAll js'
  | [], _, h => by
    cases h
    rfl
  | _ :: _, _, h => by
    cases h with
    | cons hj hrest => rw [toJoinsAll, toJoinsAll, hj.toJoins_eq, hrest.toJoinsAll_eq]
end

mutual
theorem Alike.projection_eq : ∀ {j j' : JoinedTable}, j.Alike j' →
    j.projection = j'.projection
  | .mk .., _, h => by
    cases h with
    | mk _ _ _ _ _ _ _ hjoins => rw [projection, projection, hjoins.projections_eq]
theorem AlikeAll.projections_eq : ∀ {js js' : List JoinedTable}, AlikeAll js js' →
    projections js = projections js'
  | [], _, h => by
    cases h
    rfl
  | j :: _, j' :: _, h => by
    cases h with
    | cons hj hrest =>
      have hname : j.name = j'.name := by
        cases hj
        rfl
      rw [projections, projections, hname, hj.projection_eq, hrest.projections_eq]
end

mutual
theorem Alike.conditions : ∀ {j j' : JoinedTable}, j.Alike j' →
    Filter.AlikeAll j.conditions j'.conditions
  | .mk .., _, h => by
    cases h with
    | mk _ _ _ _ _ _ hpredicates hjoins =>
      rw [JoinedTable.conditions, JoinedTable.conditions]
      exact (hpredicates.map_on _).append hjoins.conditionsAll
theorem AlikeAll.conditionsAll : ∀ {js js' : List JoinedTable}, AlikeAll js js' →
    Filter.AlikeAll (conditionsAll js) (conditionsAll js')
  | [], _, h => by
    cases h
    exact .nil
  | _ :: _, _, h => by
    cases h with
    | cons hj hrest =>
      rw [JoinedTable.conditionsAll, JoinedTable.conditionsAll]
      exact hj.conditions.append hrest.conditionsAll
end

mutual
/-- Tables are joined on columns, and no value is bound for that. -/
theorem exists_on_of_mem_toJoins {join : Join} :
    ∀ {j : JoinedTable}, join ∈ j.toJoins → ∃ left right, join.on = .equalColumns left right
  | mk .., h => by
    rw [toJoins] at h
    rcases List.mem_cons.1 h with rfl | h
    · exact ⟨_, _, rfl⟩
    · exact exists_on_of_mem_toJoinsAll h
/-- The same for a list of joined tables. -/
theorem exists_on_of_mem_toJoinsAll {join : Join} :
    ∀ {joins : List JoinedTable}, join ∈ toJoinsAll joins →
      ∃ left right, join.on = .equalColumns left right
  | _ :: _, h => by
    rw [toJoinsAll] at h
    rcases List.mem_append.1 h with h | h
    · exact exists_on_of_mem_toJoins h
    · exact exists_on_of_mem_toJoinsAll h
end

mutual
/-- An object binds the names of its members only. -/
theorem alike_projection :
    ∀ j : JoinedTable, j.projection.Alike j.projection
  | .mk aliasName parent kind field table fields predicates joins => by
    rw [projection, object]
    refine .unlessNull _ (.jsonObject fun m hm => ?_)
    rcases List.mem_append.1 hm with hm | hm
    · rcases List.mem_cons.1 hm with rfl | hm
      · exact .column _
      · obtain ⟨field, _, rfl⟩ := List.mem_map.1 hm
        exact .column _
    · exact alike_projections joins m hm
theorem alike_projections :
    ∀ joins : List JoinedTable, ∀ m ∈ projections joins, m.2.Alike m.2
  | [], m, hm => by cases hm
  | j :: rest, m, hm => by
    rw [projections] at hm
    rcases List.mem_cons.1 hm with rfl | hm
    · exact alike_projection j
    · exact alike_projections rest m hm
end

end JoinedTable

/-! ## Statements -/

/-- The statements of plans that are alike are alike. -/
theorem Plan.Alike.select {p p' : Plan} (h : p.Alike p') :
    p.select.Alike p'.select := by
  have hjoined : JoinedTable.AlikeAll p.joinedTables p'.joinedTables := h.joins.placeAll _ _ _
  have hconditions : Filter.AlikeAll p.conditions p'.conditions :=
    (h.predicates.map_on rootAlias).append hjoined.conditionsAll
  constructor
  case table => exact h.table
  case aliasName => rfl
  case projections => exact congrArg (List.map Prod.swap) hjoined.projections_eq
  case projected =>
    intro projection hmem
    obtain ⟨m, hm, rfl⟩ := List.mem_map.1 hmem
    exact JoinedTable.alike_projections _ m hm
  case joins => exact hjoined.toJoinsAll_eq
  case joined =>
    intro join hmem
    obtain ⟨left, right, hon⟩ := JoinedTable.exists_on_of_mem_toJoinsAll hmem
    rw [hon]
    exact .equalColumns left right
  case filters =>
    show Filter.AlikeAll (if p.conditions.isEmpty then [] else [.and p.conditions])
      (if p'.conditions.isEmpty then [] else [.and p'.conditions])
    generalize p.conditions = conditions at hconditions
    generalize p'.conditions = conditions' at hconditions
    cases hconditions with
    | nil => exact .nil
    | cons hf hrest => exact .cons (.and (.cons hf hrest)) .nil
  case order => rfl
  case limit => rfl

end RecordMapping

import RecordMapping.Proofs.Query.Flattening
import RecordMapping.Proofs.Query.Projection
import RecordMapping.Proofs.Session.Trace

/-!
# The plans that there are

The theorems on plans and joined tables ask that conditions leave their table open and that tables
are joined along fields of the table above. Planning gives no other plans, whatever the engine
replies (`isLocal_of_gives_make`, `rooted_of_gives_make`).
-/

namespace RecordMapping

/-- The join that a key of a filter becomes is along a field of the table. -/
theorem Clause.field_mem_of_item {fields : FieldSet} {name : String} {value : Value}
    {j : ReferenceJoin} (h : item fields name value = .ok (some (.join j))) :
    j.field ∈ fields.specs := by
  cases item_eq_ok_iff.1 h with
  | join _ hfield => exact List.mem_of_find?_eq_some hfield

/-- Compiling a filter gives joins along the fields of the table only. -/
theorem Clause.field_mem_of_compile {fields : FieldSet} {filter : Record} {clause : Clause}
    (h : compile fields filter = .ok clause) {j : ReferenceJoin} (hj : j ∈ clause.joins) :
    j.field ∈ fields.specs := by
  obtain ⟨name, value, hitem⟩ := (exists_item_of_mem h).2 j hj
  exact field_mem_of_item hitem

namespace PlannedJoin

/-- The reference field along which a table is to be joined. -/
def field : PlannedJoin → FieldSpec
  | mk field .. => field

mutual
/-- On each level tables are to be joined along fields of the table above. -/
def Rooted : PlannedJoin → Prop
  | mk _ _ fields _ joins => (∀ j ∈ joins, j.field ∈ fields.specs) ∧ RootedAll joins
/-- The same for all tables of a list. -/
def RootedAll : List PlannedJoin → Prop
  | [] => True
  | j :: rest => Rooted j ∧ RootedAll rest
end

theorem isLocalAll_iff {joins : List PlannedJoin} :
    isLocalAll joins = true ↔ ∀ j ∈ joins, j.isLocal = true := by
  induction joins with
  | nil => simp [isLocalAll]
  | cons j rest ih => simp [isLocalAll, ih]

theorem rootedAll_iff {joins : List PlannedJoin} :
    RootedAll joins ↔ ∀ j ∈ joins, j.Rooted := by
  induction joins with
  | nil => simp [RootedAll]
  | cons j rest ih => simp [RootedAll, ih]

theorem field_place (parent : String) (above : JoinKind) (next : Nat) (j : PlannedJoin) :
    (place parent above next j).field = j.field := by
  cases j
  rfl

theorem field_mem_placeAll {parent : String} {above : JoinKind} {next : Nat}
    {joins : List PlannedJoin} {fields : FieldSet} (h : ∀ j ∈ joins, j.field ∈ fields.specs) :
    ∀ t ∈ placeAll parent above next joins, t.field ∈ fields.specs := by
  induction joins generalizing next with
  | nil =>
    intro t ht
    cases ht
  | cons j rest ih =>
    intro t ht
    rcases List.mem_cons.1 ht with rfl | ht
    · rw [field_place]
      exact h j List.mem_cons_self
    · exact ih (fun j hj => h j (List.mem_cons_of_mem _ hj)) t ht

mutual
/-- Placing a join keeps it along the fields of the table above, on all levels. -/
theorem rooted_place {parent : String} {above : JoinKind} {next : Nat} (j : PlannedJoin)
    (h : j.Rooted) : (place parent above next j).Rooted := by
  obtain ⟨field, table, fields, predicates, joins⟩ := j
  rw [Rooted] at h
  rw [place, JoinedTable.Rooted]
  exact ⟨field_mem_placeAll h.1, rooted_placeAll joins h.2⟩
/-- The same for all joins of a list. -/
theorem rooted_placeAll {parent : String} {above : JoinKind} {next : Nat}
    (joins : List PlannedJoin) (h : RootedAll joins) :
    JoinedTable.RootedAll (placeAll parent above next joins) := by
  cases joins with
  | nil => trivial
  | cons j rest =>
    rw [RootedAll] at h
    rw [placeAll, JoinedTable.RootedAll]
    exact ⟨rooted_place j h.1, rooted_placeAll rest h.2⟩
end

end PlannedJoin

namespace Plan

variable {registry : Registry}

/-- A planned join is along the reference that was asked for; its conditions leave their table
open, and what is below it is along fields of its table. -/
theorem of_gives_join {depth : Nat} {owner : String} {reference : ReferenceJoin} {j : PlannedJoin}
    (h : (join registry depth owner reference).Gives j) :
    j.field = reference.field ∧ j.isLocal = true ∧ j.Rooted := by
  induction depth generalizing owner reference j with
  | zero =>
    obtain ⟨_, _, _, h⟩ := h
    obtain ⟨_, he, _⟩ := Session.runs_throw.1 h
    cases he
  | succ depth ih =>
    obtain ⟨target, _, h⟩ := h.of_bind
    obtain ⟨fields, _, h⟩ := h.of_bind
    obtain ⟨clause, hclause, h⟩ := h.of_bind
    obtain ⟨joins, hjoins, h⟩ := h.of_bind
    cases Session.gives_pure.1 h
    have hcompile := hclause.of_ofExcept
    have hbelow : ∀ j ∈ joins, ∃ reference ∈ clause.joins,
        j.field = reference.field ∧ j.isLocal = true ∧ j.Rooted := by
      intro j hj
      obtain ⟨reference, hreference, hgives⟩ := hjoins.of_mapM hj
      exact ⟨reference, hreference, ih hgives⟩
    refine ⟨rfl, ?_, ?_⟩
    · rw [PlannedJoin.isLocal, Bool.and_eq_true, PlannedJoin.isLocalAll_iff]
      refine ⟨Clause.all_isLocal_compile hcompile, ?_⟩
      intro j hj
      obtain ⟨_, _, _, hlocal, _⟩ := hbelow j hj
      exact hlocal
    · rw [PlannedJoin.Rooted, PlannedJoin.rootedAll_iff]
      constructor
      · intro j hj
        obtain ⟨reference, hreference, hfield, _⟩ := hbelow j hj
        rw [hfield]
        exact Clause.field_mem_of_compile hcompile hreference
      · intro j hj
        obtain ⟨_, _, _, _, hrooted⟩ := hbelow j hj
        exact hrooted

/-- The conditions of every plan that there is leave their table open. -/
theorem isLocal_of_gives_make {table : String} {fields : FieldSet} {filter : Record} {plan : Plan}
    (h : (make registry table fields filter).Gives plan) : plan.isLocal = true := by
  obtain ⟨clause, hclause, h⟩ := h.of_bind
  obtain ⟨joins, hjoins, h⟩ := h.of_bind
  cases Session.gives_pure.1 h
  rw [isLocal, Bool.and_eq_true, PlannedJoin.isLocalAll_iff]
  refine ⟨Clause.all_isLocal_compile hclause.of_ofExcept, ?_⟩
  intro j hj
  obtain ⟨reference, _, hgives⟩ := hjoins.of_mapM hj
  exact (of_gives_join hgives).2.1

/-- The tables of every plan that there is are joined along fields of the table above, on all
levels. -/
theorem rooted_of_gives_make {table : String} {fields : FieldSet} {filter : Record} {plan : Plan}
    (h : (make registry table fields filter).Gives plan) :
    (∀ t ∈ plan.joinedTables, t.field ∈ plan.fields.specs) ∧
      JoinedTable.RootedAll plan.joinedTables := by
  obtain ⟨clause, hclause, h⟩ := h.of_bind
  obtain ⟨joins, hjoins, h⟩ := h.of_bind
  cases Session.gives_pure.1 h
  constructor
  · refine PlannedJoin.field_mem_placeAll ?_
    intro j hj
    obtain ⟨reference, hreference, hgives⟩ := hjoins.of_mapM hj
    rw [(of_gives_join hgives).1]
    exact Clause.field_mem_of_compile hclause.of_ofExcept hreference
  · refine PlannedJoin.rooted_placeAll _ (PlannedJoin.rootedAll_iff.2 ?_)
    intro j hj
    obtain ⟨reference, _, hgives⟩ := hjoins.of_mapM hj
    exact (of_gives_join hgives).2.2

end Plan

end RecordMapping

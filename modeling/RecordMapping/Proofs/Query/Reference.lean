import RecordMapping.Proofs.Field.Set
import RecordMapping.Proofs.Query.Planning

/-!
# The references that a filter follows

A key of a filter that names a reference field is followed, with its value as what is asked of the
record referred to (`Clause.references`). Compiling a filter gives one join for each such key
(`Clause.forall₂_joins`), and a plan that follows the keys has one join for each of them on all
levels (`PlannedJoin.Follows`), so that it is as deep as the references nest in the filter
(`PlannedJoin.le_depthAll_of_nests`).
-/

namespace RecordMapping

/-- The record that a value is. Other values have none, which counts as the empty one. -/
def Value.nested (value : Value) : Record := value.record?.getD []

namespace Clause

/-! ## Keys that name references -/

/-- The reference field that a key of a filter names, with the value of the key. The identifier is
never one, even where a field has its name. -/
def reference? (fields : FieldSet) (name : String) (value : Value) : Option (FieldSpec × Value) :=
  if name = idName then none
  else (fields.get? name).bind fun field =>
    if field.type = .reference then some (field, value) else none

/-- The reference fields that the keys of a filter name, with the values of the keys, in order. -/
def references (fields : FieldSet) (filter : Record) : List (FieldSpec × Value) :=
  filter.filterMap fun p => reference? fields p.1 p.2

variable {fields : FieldSet} {filter : Record} {field : FieldSpec} {value : Value}

theorem reference?_eq_some_iff {name : String} {reference : FieldSpec × Value} :
    reference? fields name value = some reference ↔
      name ≠ idName ∧ fields.get? name = some reference.1 ∧ reference.1.type = .reference ∧
        reference.2 = value := by
  unfold reference?
  by_cases hid : name = idName
  · simp [hid]
  · rw [if_neg hid, Option.bind_eq_some_iff]
    constructor
    · rintro ⟨found, hfound, hreference⟩
      split at hreference
      · next htype =>
        cases hreference
        exact ⟨hid, hfound, htype, rfl⟩
      · cases hreference
    · rintro ⟨-, hfound, htype, rfl⟩
      exact ⟨_, hfound, if_pos htype⟩

theorem mem_references :
    (field, value) ∈ references fields filter ↔
      (field.name, value) ∈ filter ∧ field.name ≠ idName ∧ field ∈ fields.specs ∧
        field.type = .reference := by
  rw [references, List.mem_filterMap]
  constructor
  · rintro ⟨⟨name, value'⟩, hmem, hreference⟩
    obtain ⟨hid, hget, htype, rfl⟩ := reference?_eq_some_iff.1 hreference
    obtain ⟨hfield, rfl⟩ := FieldSet.get?_eq_some_iff.1 hget
    exact ⟨hmem, hid, hfield, htype⟩
  · rintro ⟨hmem, hid, hfield, htype⟩
    refine ⟨_, hmem, reference?_eq_some_iff.2 ⟨hid, ?_, htype, rfl⟩⟩
    exact FieldSet.get?_eq_some_iff.2 ⟨hfield, rfl⟩

/-- A field that is no reference is not followed. -/
theorem reference?_of_type_ne {name : String} (hfield : fields.get? name = some field)
    (htype : field.type ≠ .reference) : reference? fields name value = none := by
  refine Option.eq_none_iff_forall_ne_some.2 fun r hr => ?_
  obtain ⟨-, hget, hreference, -⟩ := reference?_eq_some_iff.1 hr
  cases hfield.symm.trans hget
  exact htype hreference

/-- A key becomes a join if and only if it names a reference, and the join is along it. -/
theorem reference?_of_item {name : String} {item? : Option ClauseItem}
    (h : item fields name value = .ok item?) :
    (reference? fields name value = none ∧ item?.bind ClauseItem.join? = none) ∨
      ∃ j, item? = some (.join j) ∧ reference? fields name value = some (j.field, value) ∧
        referenceFilter j.field value = .ok j.filter := by
  cases item_eq_ok_iff.1 h with
  | noIdentifier | identifier => exact .inl ⟨if_pos rfl, rfl⟩
  | unknown hname hfield =>
    refine .inl ⟨?_, rfl⟩
    rw [reference?, if_neg hname, hfield, Option.bind_none]
  | @join _ _ field filter hname hfield htype hfilter =>
    exact .inr ⟨⟨field, filter⟩, rfl, reference?_eq_some_iff.2 ⟨hname, hfield, htype, rfl⟩,
      referenceFilter_of_nested hfilter⟩
  | isNull _ hfield htype | like _ hfield htype | equal _ hfield htype =>
    exact .inl ⟨reference?_of_type_ne hfield htype, rfl⟩

/-- What compiling makes of a key that names a reference. -/
def JoinsReference (j : ReferenceJoin) (reference : FieldSpec × Value) : Prop :=
  j.field = reference.1 ∧ referenceFilter reference.1 reference.2 = .ok j.filter

/-- A compiled filter has one join for each key that names a reference, in their order. -/
theorem forall₂_joins {clause : Clause} (h : compile fields filter = .ok clause) :
    List.Forall₂ JoinsReference clause.joins (references fields filter) := by
  obtain ⟨items, hitems, hclause⟩ := bind_eq_ok.1 h
  cases hclause
  have hall : List.Forall₂ (fun p i => item fields p.1 p.2 = .ok i) filter items :=
    mapM_eq_ok_iff.1 hitems
  show List.Forall₂ _ ((items.filterMap id).filterMap ClauseItem.join?) _
  rw [List.filterMap_filterMap, references]
  clear h hitems
  induction hall with
  | nil => exact .nil
  | @cons p i l items hitem _ ih =>
    rcases reference?_of_item hitem with ⟨hreference, hjoin⟩ | ⟨j, rfl, hreference, hfilter⟩
    · rw [List.filterMap_cons_none (a := p) hreference, List.filterMap_cons_none (a := i) hjoin]
      exact ih
    · rw [List.filterMap_cons_some (a := p) hreference]
      exact .cons ⟨rfl, hfilter⟩ ih

/-- Each join of a compiled filter is made for a key that names its reference. -/
theorem exists_reference_of_join {clause : Clause} (h : compile fields filter = .ok clause)
    {j : ReferenceJoin} (hj : j ∈ clause.joins) :
    ∃ value, (j.field, value) ∈ references fields filter ∧
      referenceFilter j.field value = .ok j.filter := by
  obtain ⟨⟨field, value⟩, hnamed, rfl, hfilter⟩ := exists_right_of_forall₂ (forall₂_joins h) hj
  exact ⟨value, hnamed, hfilter⟩

/-- The filter for the table that a reference refers to names the references that its value
names. -/
theorem references_of_referenceFilter {nested : Record}
    (h : referenceFilter field value = .ok nested) (fields : FieldSet) :
    references fields nested = references fields value.nested := by
  cases referenceFilter_eq_ok_iff.1 h with
  | null | record => rfl
  | identifier hrecord =>
    -- an identifier names no reference, and nor does what is no record
    rw [Value.nested, hrecord]
    rfl

/-! ## Declared references -/

/-- The fields have all that is declared, up to the columns. -/
def Extends (fields declared : FieldSet) : Prop :=
  ∀ name d, declared.get? name = some d →
    ∃ f, fields.get? name = some f ∧ f.type = d.type ∧ f.target = d.target

theorem Extends.refl (fields : FieldSet) : Extends fields fields :=
  fun _ d hd => ⟨d, hd, rfl, rfl⟩

theorem Extends.overlay (live declared : FieldSet) : Extends (live.overlay declared) declared := by
  intro name d hd
  refine ⟨live.inheritPhysical d, ?_, rfl, rfl⟩
  rw [FieldSet.get?_overlay, hd]
  rfl

/-- A declared reference that a filter names is one that it names among more fields. -/
theorem Extends.exists_reference {declared : FieldSet} (h : Extends fields declared)
    (hmem : (field, value) ∈ references declared filter) :
    ∃ f, (f, value) ∈ references fields filter ∧ f.target = field.target := by
  obtain ⟨hkey, hid, hfield, htype⟩ := mem_references.1 hmem
  obtain ⟨f, hget, hftype, hftarget⟩ := h field.name field
    (FieldSet.get?_eq_some_iff.2 ⟨hfield, rfl⟩)
  obtain ⟨hf, hname⟩ := FieldSet.get?_eq_some_iff.1 hget
  refine ⟨f, mem_references.2 ⟨?_, ?_, hf, hftype.trans htype⟩, hftarget⟩
  · rwa [hname]
  · rwa [hname]

end Clause

/-! ## Following references -/

/-- The table that a reference field refers to, if it is registered. -/
def Registry.target? (registry : Registry) (field : FieldSpec) : Option Table :=
  field.target.bind registry.get?

theorem Registry.resolve_eq_ok_iff {registry : Registry} {owner : String} {field : FieldSpec}
    {target : Table} : registry.resolve owner field = .ok target ↔
      registry.target? field = some target := by
  unfold resolve target?
  cases field.target.bind registry.get? <;> simp

namespace PlannedJoin

mutual
/-- How many joins are one below the other, a planned join and those below it. -/
def depth : PlannedJoin → Nat
  | mk _ _ _ _ joins => depthAll joins + 1
/-- How many joins are one below the other in a list of planned joins. -/
def depthAll : List PlannedJoin → Nat
  | [] => 0
  | j :: rest => max (depth j) (depthAll rest)
end

mutual
/-- A planned join is along a reference that is asked for something: it is of the registered table
that the reference refers to, with fields that are in effect there, and below it there is one join
for each reference that is named in what is asked, in order. -/
def Follows (registry : Registry) (effective : Table → FieldSet → Prop) :
    PlannedJoin → FieldSpec → Value → Prop
  | mk field table fields _ joins, reference, value =>
    field = reference ∧
      (∃ target, registry.target? reference = some target ∧ table = target.name ∧
        effective target fields) ∧
      FollowsAll registry effective joins (Clause.references fields value.nested)
/-- A list of planned joins has one for each of a list of references, in order. -/
def FollowsAll (registry : Registry) (effective : Table → FieldSet → Prop) :
    List PlannedJoin → List (FieldSpec × Value) → Prop
  | [], references => references = []
  | j :: rest, references => ∃ field value more, references = (field, value) :: more ∧
      Follows registry effective j field value ∧ FollowsAll registry effective rest more
end

theorem depthAll_le_iff {joins : List PlannedJoin} {n : Nat} :
    depthAll joins ≤ n ↔ ∀ j ∈ joins, j.depth ≤ n := by
  induction joins with
  | nil => simp [depthAll]
  | cons j rest ih => rw [depthAll, Nat.max_le, ih, List.forall_mem_cons]

variable {registry : Registry} {effective effective' : Table → FieldSet → Prop}

theorem followsAll_iff {joins : List PlannedJoin} {references : List (FieldSpec × Value)} :
    FollowsAll registry effective joins references ↔
      List.Forall₂ (fun r j => j.Follows registry effective r.1 r.2) references joins := by
  induction joins generalizing references with
  | nil => rw [FollowsAll, List.forall₂_nil_right_iff]
  | cons j rest ih =>
    rw [FollowsAll, List.forall₂_cons_right_iff]
    simp only [ih]
    constructor
    · rintro ⟨field, value, more, rfl, hj, hrest⟩
      exact ⟨(field, value), more, hj, hrest, rfl⟩
    · rintro ⟨⟨field, value⟩, more, hj, hrest, rfl⟩
      exact ⟨field, value, more, rfl, hj, hrest⟩

mutual
/-- A join follows a reference also where more fields count as being in effect. -/
theorem Follows.mono (h : ∀ target fields, effective target fields → effective' target fields) :
    ∀ {j : PlannedJoin} {field : FieldSpec} {value : Value}, j.Follows registry effective field value →
      j.Follows registry effective' field value
  | mk _ _ _ _ joins, _, _ => by
    rw [Follows, Follows]
    rintro ⟨hfield, ⟨target, htarget, htable, heffective⟩, hjoins⟩
    exact ⟨hfield, ⟨target, htarget, htable, h _ _ heffective⟩, FollowsAll.mono h hjoins⟩
/-- The same for all joins of a list. -/
theorem FollowsAll.mono (h : ∀ target fields, effective target fields → effective' target fields) :
    ∀ {joins : List PlannedJoin} {references : List (FieldSpec × Value)},
      FollowsAll registry effective joins references →
        FollowsAll registry effective' joins references
  | [], _ => by
    rw [FollowsAll, FollowsAll]
    exact id
  | _ :: rest, _ => by
    rw [FollowsAll, FollowsAll]
    rintro ⟨field, value, more, hmore, hj, hrest⟩
    exact ⟨field, value, more, hmore, hj.mono h, FollowsAll.mono h hrest⟩
end

end PlannedJoin

/-! ## How deep references nest -/

/-- So many keys that name references stand in each other in a filter on a table with the given
fields. All of them but the last refer to registered tables, in whose fields the next is looked
up. -/
inductive Nests (registry : Registry) (effective : Table → FieldSet → Prop) :
    Nat → FieldSet → Record → Prop where
  | key {fields : FieldSet} {filter : Record} {field : FieldSpec} {value : Value}
      (hkey : (field, value) ∈ Clause.references fields filter) :
      Nests registry effective 1 fields filter
  | within {n : Nat} {fields : FieldSet} {filter : Record} {field : FieldSpec} {value : Value}
      {target : Table} {fields' : FieldSet} (hkey : (field, value) ∈ Clause.references fields filter)
      (htarget : registry.target? field = some target) (heffective : effective target fields')
      (hnested : Nests registry effective n fields' value.nested) :
      Nests registry effective (n + 1) fields filter

/-- The declared fields of a table, which are in effect whatever else it has. -/
def Table.Declares (t : Table) (fields : FieldSet) : Prop := fields = t.declared

variable {registry : Registry} {effective effective' : Table → FieldSet → Prop}

theorem Nests.mono (h : ∀ target fields, effective target fields → effective' target fields)
    {n : Nat} {fields : FieldSet} {filter : Record} (hnests : Nests registry effective n fields filter) :
    Nests registry effective' n fields filter := by
  induction hnests with
  | key hkey => exact .key hkey
  | within hkey htarget heffective _ ih => exact .within hkey htarget (h _ _ heffective) ih

/-- How deep references nest depends only on the references that a filter names. -/
theorem Nests.congr {n : Nat} {fields : FieldSet} {filter filter' : Record}
    (h : Clause.references fields filter = Clause.references fields filter')
    (hnests : Nests registry effective n fields filter) :
    Nests registry effective n fields filter' := by
  cases hnests with
  | key hkey => exact .key (h ▸ hkey)
  | within hkey htarget heffective hnested => exact .within (h ▸ hkey) htarget heffective hnested

/-- Joins that follow the references of a filter are as deep as declared references nest in it. -/
theorem PlannedJoin.le_depthAll_of_nests
    (heffective : ∀ target fields, effective target fields → Clause.Extends fields target.declared)
    {n : Nat} {declared : FieldSet} {filter : Record}
    (hnests : Nests registry Table.Declares n declared filter) {fields : FieldSet}
    (hextends : Clause.Extends fields declared) {joins : List PlannedJoin}
    (hfollows : FollowsAll registry effective joins (Clause.references fields filter)) :
    n ≤ depthAll joins := by
  induction hnests generalizing fields joins with
  | key hkey =>
    obtain ⟨f, hmem, _⟩ := hextends.exists_reference hkey
    obtain ⟨j, hj, _⟩ := exists_right_of_forall₂ (followsAll_iff.1 hfollows) hmem
    have hle : j.depth ≤ depthAll joins := depthAll_le_iff.1 (Nat.le_refl _) j hj
    have hpos : 1 ≤ j.depth := by
      cases j
      rw [depth]
      omega
    exact Nat.le_trans hpos hle
  | @within n _ _ field value target fields' hkey htarget hdeclared _ ih =>
    obtain ⟨f, hmem, hftarget⟩ := hextends.exists_reference hkey
    obtain ⟨⟨field', table, below, predicates, nested⟩, hj, hjoin⟩ :=
      exists_right_of_forall₂ (followsAll_iff.1 hfollows) hmem
    have hjoin : (mk field' table below predicates nested).Follows registry effective f value := hjoin
    have hle : (mk field' table below predicates nested).depth ≤ depthAll joins :=
      depthAll_le_iff.1 (Nat.le_refl _) _ hj
    rw [Follows] at hjoin
    obtain ⟨_, ⟨target', htarget', _, hbelow⟩, hnested⟩ := hjoin
    -- the reference that is followed refers to the table that was declared
    obtain rfl : target' = target := by
      unfold Registry.target? at htarget htarget'
      rw [hftarget, htarget] at htarget'
      exact (Option.some.inj htarget').symm
    rw [hdeclared] at ih
    have hn : n ≤ depthAll nested := ih (heffective _ _ hbelow) hnested
    rw [depth] at hle
    omega

end RecordMapping

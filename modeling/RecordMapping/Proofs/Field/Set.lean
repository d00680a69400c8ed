import RecordMapping.Field.Set

/-!
# The fields of a set by name

A set is known by what it has under each name. Laying declared fields over those of a table is
described that way: a declared name has the declared field, and every other name keeps its own.
-/

namespace RecordMapping.FieldSet

/-- A field of a set is found under its name, and nothing else is. -/
theorem get?_eq_some_iff {fields : FieldSet} {name : String} {f : FieldSpec} :
    fields.get? name = some f ↔ f ∈ fields.specs ∧ f.name = name := by
  obtain ⟨specs, nodup⟩ := fields
  constructor
  · intro h
    change specs.find? (fun g => decide (g.name = name)) = some f at h
    exact ⟨List.mem_of_find?_eq_some h, by simpa using List.find?_some h⟩
  · rintro ⟨hf, rfl⟩
    show specs.find? _ = some f
    induction specs with
    | nil => cases hf
    | cons first rest ih =>
      rw [specNames_cons, List.nodup_cons] at nodup
      rcases List.mem_cons.1 hf with rfl | hrest
      · exact List.find?_cons_of_pos (decide_eq_true rfl)
      · have hne : first.name ≠ f.name := by
          intro h
          exact nodup.1 (h ▸ List.mem_map_of_mem hrest)
        rw [List.find?_cons_of_neg (by simpa using hne)]
        exact ih nodup.2 hrest

theorem get?_eq_none_iff {fields : FieldSet} {name : String} :
    fields.get? name = none ↔ name ∉ fields.names := by
  rw [← contains_iff, contains, Bool.not_eq_true, Option.isSome_eq_false_iff,
    Option.isNone_iff_eq_none]

/-- Of fields that are put in one after the other, with distinct names, each name has its own. -/
theorem get?_foldl_insert {specs : List FieldSpec} (hnodup : (specNames specs).Nodup)
    (fields : FieldSet) (name : String) :
    (specs.foldl insert fields).get? name
      = (specs.find? (·.name = name)).or (fields.get? name) := by
  induction specs generalizing fields with
  | nil => rfl
  | cons f rest ih =>
    rw [specNames_cons, List.nodup_cons] at hnodup
    rw [List.foldl_cons, ih hnodup.2, get?_insert]
    by_cases hf : f.name = name
    · have hnone : rest.find? (·.name = name) = none := by
        rw [List.find?_eq_none]
        intro g hg hgname
        have hgname : g.name = name := of_decide_eq_true hgname
        exact hnodup.1 (hf ▸ hgname ▸ List.mem_map_of_mem hg)
      rw [hnone, if_pos hf, List.find?_cons_of_pos (by simpa using hf)]
      rfl
    · rw [if_neg hf, List.find?_cons_of_neg (by simpa using hf)]

/-- What was put in is among what was given. -/
theorem mem_specs_foldl_insert {specs : List FieldSpec} {fields : FieldSet} {f : FieldSpec}
    (hf : f ∈ (specs.foldl insert fields).specs) : f ∈ specs ∨ f ∈ fields.specs := by
  induction specs generalizing fields with
  | nil => exact .inr hf
  | cons g rest ih =>
    rw [List.foldl_cons] at hf
    rcases ih hf with hrest | hinsert
    · exact .inl (List.mem_cons_of_mem g hrest)
    · have hget := get?_insert fields g f.name
      rw [get?_eq_some_iff.2 ⟨hinsert, rfl⟩] at hget
      split at hget
      · cases hget
        exact .inl List.mem_cons_self
      · exact .inr (get?_eq_some_iff.1 hget.symm).1

theorem mem_of_mem_ofList {specs : List FieldSpec} {f : FieldSpec}
    (hf : f ∈ (ofList specs).specs) : f ∈ specs := by
  rcases mem_specs_foldl_insert hf with h | h
  · exact h
  · cases h

/-- The fields that a set lacks. -/
theorem specs_missing (fields required : FieldSet) :
    (fields.missing required).specs = required.specs.filter fun f => f.name ∉ fields.names := by
  refine List.filter_congr fun f _ => ?_
  by_cases hf : f.name ∈ fields.names <;> simp [hf, contains_iff, ← Bool.not_eq_true]

theorem names_missing (fields required : FieldSet) :
    (fields.missing required).names = required.names.filter (· ∉ fields.names) := by
  rw [names, specNames, specs_missing]
  show _ = List.filter _ (required.specs.map FieldSpec.name)
  rw [List.filter_map]
  rfl

/-- Nothing is missing from a set that has all the names. -/
theorem isEmpty_missing_iff {fields required : FieldSet} :
    (fields.missing required).isEmpty = true ↔ required.names ⊆ fields.names := by
  have hnames : (fields.missing required).isEmpty = (fields.missing required).names.isEmpty := by
    rw [names, specNames, List.isEmpty_map]
    rfl
  rw [hnames, names_missing, List.isEmpty_iff, List.filter_eq_nil_iff]
  simp [List.subset_def]

/-- A set without fields lacks all of another one. -/
theorem empty_missing (required : FieldSet) : empty.missing required = required := by
  obtain ⟨specs, hnodup⟩ := required
  simp [missing, contains, get?, empty]

/-! ## Declared fields over those of a table -/

variable (live declared : FieldSet)

theorem name_inheritPhysical (f : FieldSpec) : (live.inheritPhysical f).name = f.name := rfl

/-- A declared name has the declared field, and every other name keeps the field that it has. -/
theorem get?_overlay (name : String) :
    (live.overlay declared).get? name
      = ((declared.get? name).map live.inheritPhysical).or (live.get? name) := by
  have hnames : specNames (declared.specs.map live.inheritPhysical) = declared.names := by
    simp [specNames, names, Function.comp_def, name_inheritPhysical]
  rw [overlay, get?_foldl_insert (hnames ▸ declared.nodup), List.find?_map]
  rfl

variable {live declared}

/-- The fields that declared ones give when they are laid over those of a table. -/
theorem mem_overlay {f : FieldSpec} :
    f ∈ (live.overlay declared).specs ↔
      (∃ d ∈ declared.specs, f = live.inheritPhysical d) ∨
        (f ∈ live.specs ∧ f.name ∉ declared.names) := by
  have hget := get?_overlay live declared f.name
  constructor
  · intro hf
    rw [get?_eq_some_iff.2 ⟨hf, rfl⟩] at hget
    cases hd : declared.get? f.name with
    | some d =>
      rw [hd] at hget
      cases hget
      exact .inl ⟨d, (get?_eq_some_iff.1 hd).1, rfl⟩
    | none =>
      rw [hd] at hget
      exact .inr ⟨(get?_eq_some_iff.1 hget.symm).1, get?_eq_none_iff.1 hd⟩
  · rintro (⟨d, hd, rfl⟩ | ⟨hf, hname⟩)
    · rw [name_inheritPhysical, get?_eq_some_iff.2 ⟨hd, rfl⟩] at hget
      exact (get?_eq_some_iff.1 hget).1
    · rw [get?_eq_none_iff.2 hname, get?_eq_some_iff.2 ⟨hf, rfl⟩] at hget
      exact (get?_eq_some_iff.1 hget).1

end RecordMapping.FieldSet

import RecordMapping.Proofs.Record.Reading

/-!
# Writing the fields of records

A record is written field by field (`encodeSpecs`). Its parameters are under columns of the fields,
and where the fields have columns of their own, each parameter is found under the column of its
field (`stored_of_encodeSpecs`).
-/

namespace RecordMapping

/-- The columns and parameters for the fields of a list that a record has. -/
def encodeSpecs (record : Record) (specs : List FieldSpec) : Except Error (Named Param) :=
  (specs.filterMap fun field => (record.get? field.name).map (field, ·)).mapM
    fun (field, value) => (field.store value).map (field.column, ·)

/-- A field that the record does not have is left out. -/
theorem encodeSpecs_cons_none {record : Record} {field : FieldSpec}
    (h : record.get? field.name = none) (rest : List FieldSpec) :
    encodeSpecs record (field :: rest) = encodeSpecs record rest := by
  unfold encodeSpecs
  rw [List.filterMap_cons_none]
  rw [h]
  rfl

/-- A field that the record has is stored before the others. -/
theorem encodeSpecs_cons_some {record : Record} {field : FieldSpec} {value : Value}
    (h : record.get? field.name = some value) {rest : List FieldSpec} {values : Named Param} :
    encodeSpecs record (field :: rest) = .ok values ↔
      ∃ param more, field.store value = .ok param ∧ encodeSpecs record rest = .ok more ∧
        values = (field.column, param) :: more := by
  have hcons : encodeSpecs record (field :: rest)
      = (field.store value).map (field.column, ·) >>= fun first =>
          encodeSpecs record rest >>= fun more => pure (first :: more) := by
    unfold encodeSpecs
    rw [List.filterMap_cons_some (b := (field, value)), List.mapM_cons]
    rw [h]
    rfl
  rw [hcons, bind_eq_ok]
  constructor
  · rintro ⟨first, hfirst, hmore⟩
    obtain ⟨param, hparam, rfl⟩ := map_eq_ok.1 hfirst
    obtain ⟨more, hmore, hvalues⟩ := bind_eq_ok.1 hmore
    exact ⟨param, more, hparam, hmore, (Except.ok.inj hvalues).symm⟩
  · rintro ⟨param, more, hparam, hmore, rfl⟩
    exact ⟨_, map_eq_ok.2 ⟨param, hparam, rfl⟩, bind_eq_ok.2 ⟨more, hmore, rfl⟩⟩

/-- A record is encoded if each field stores the value that the record has for it. -/
theorem exists_encode_iff {fields : FieldSet} {record : Record} :
    (∃ values, encode fields record = .ok values) ↔
      ∀ f ∈ fields.specs, ∀ value ∈ record.get? f.name, ∃ param, f.store value = .ok param := by
  unfold encode
  rw [exists_mapM_iff]
  constructor
  · intro h f hf value hvalue
    have hgiven : (record.get? f.name).map (f, ·) = some (f, value) := by
      rw [hvalue]
      rfl
    obtain ⟨_, hstep⟩ := h (f, value) (List.mem_filterMap.2 ⟨f, hf, hgiven⟩)
    obtain ⟨param, hparam, -⟩ := map_eq_ok.1 hstep
    exact ⟨param, hparam⟩
  · rintro h ⟨f, value⟩ hmem
    obtain ⟨g, hg, hgiven⟩ := List.mem_filterMap.1 hmem
    obtain ⟨v, hv, hpair⟩ := Option.map_eq_some_iff.1 hgiven
    cases hpair
    obtain ⟨param, hparam⟩ := h f hg value hv
    exact ⟨(f.column, param), map_eq_ok.2 ⟨param, hparam, rfl⟩⟩

/-- Only columns of the fields have parameters. -/
theorem names_encodeSpecs {record : Record} {specs : List FieldSpec} {values : Named Param}
    (h : encodeSpecs record specs = .ok values) : values.names ⊆ specs.map FieldSpec.column := by
  intro column hcolumn
  obtain ⟨⟨_, param⟩, hvalue, rfl⟩ := List.mem_map.1 hcolumn
  obtain ⟨⟨f, value⟩, hf, hstore⟩ := exists_of_mem_mapM h hvalue
  obtain ⟨_, _, hpair⟩ := map_eq_ok.1 hstore
  cases hpair
  obtain ⟨g, hg, hrecord⟩ := List.mem_filterMap.1 hf
  obtain ⟨_, _, hpair⟩ := Option.map_eq_some_iff.1 hrecord
  cases hpair
  exact List.mem_map_of_mem hg

/-- The field is stored as a record has it: its parameter is there if the record has the field. -/
def FieldSpec.StoredIn (field : FieldSpec) (record : Record) (values : Named Param) : Prop :=
  match record.get? field.name with
  | some value => ∃ param, field.store value = .ok param ∧ values.get? field.column = some param
  | none => values.get? field.column = none

/-- The parameters of an encoded record are under the columns of its fields. -/
theorem stored_of_encodeSpecs {record : Record} {specs : List FieldSpec}
    (hcolumns : (specs.map FieldSpec.column).Nodup) {values : Named Param}
    (h : encodeSpecs record specs = .ok values) : ∀ f ∈ specs, f.StoredIn record values := by
  induction specs generalizing values with
  | nil =>
    intro f hf
    cases hf
  | cons field rest ih =>
    rw [List.map_cons, List.nodup_cons] at hcolumns
    cases hvalue : record.get? field.name with
    | none =>
      rw [encodeSpecs_cons_none hvalue] at h
      have hfield : field.StoredIn record values := by
        rw [FieldSpec.StoredIn, hvalue]
        exact Named.get?_eq_none fun hmem => hcolumns.1 (names_encodeSpecs h hmem)
      exact List.forall_mem_cons.2 ⟨hfield, ih hcolumns.2 h⟩
    | some value =>
      obtain ⟨param, more, hparam, hmore, rfl⟩ := (encodeSpecs_cons_some hvalue).1 h
      have hfield : field.StoredIn record ((field.column, param) :: more) := by
        rw [FieldSpec.StoredIn, hvalue]
        exact ⟨param, hparam, if_pos rfl⟩
      refine List.forall_mem_cons.2 ⟨hfield, ?_⟩
      intro f hf
      have hne : field.column ≠ f.column := by
        intro heq
        exact hcolumns.1 (heq ▸ List.mem_map_of_mem hf)
      have hstored := ih hcolumns.2 hmore f hf
      unfold FieldSpec.StoredIn at hstored ⊢
      rwa [Named.get?_cons, if_neg hne]

end RecordMapping

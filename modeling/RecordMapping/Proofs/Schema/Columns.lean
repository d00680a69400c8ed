import RecordMapping.Schema.Introspection

/-!
# Fields found again in columns

A field that is given a column is found again when the columns of the table are read, whoever
added the column and whatever its declared type, unless its name looks like something else
(`FieldSpec.Discoverable`).
-/

namespace RecordMapping

/-! ## Names of columns -/

namespace FieldType

/-- A type is known by its name. -/
theorem ofTag?_tag (type : FieldType) : ofTag? type.tag = some type := by
  cases type <;> decide

/-- What is known as a type has its name. -/
theorem tag_of_ofTag? {text : String} {type : FieldType} (h : ofTag? text = some type) :
    text = type.tag := by
  have := List.find?_some h
  exact (of_decide_eq_true this).symm

end FieldType

/-- The colons before the name of a type are the last ones. -/
theorem splitLastList_tag (type : FieldType) :
    Text.splitLastList ':' (':' :: type.tag.toList) = none := by
  cases type <;> decide

/-- A column that is marked with a type is taken apart into field name and type. -/
theorem splitColumn_tagged (name : String) (type : FieldType) :
    splitColumn (name ++ "::" ++ type.tag) = (name, some type) := by
  have hsplit : Text.splitLast ':' (name ++ "::" ++ type.tag) = some (name, type.tag) := by
    unfold Text.splitLast
    have hlist : (name ++ "::" ++ type.tag).toList
        = name.toList ++ ':' :: ':' :: type.tag.toList := by
      simp
    rw [hlist, Text.splitLastList_append _ (splitLastList_tag type)]
    simp
  unfold splitColumn
  rw [hsplit]
  simp only [FieldType.ofTag?_tag]

/-- A column that is taken apart into a name and a type is marked with it. -/
theorem eq_of_splitColumn_some {column name : String} {type : FieldType}
    (h : splitColumn column = (name, some type)) : column = name ++ "::" ++ type.tag := by
  unfold splitColumn at h
  cases hsplit : Text.splitLast ':' column with
  | none =>
    rw [hsplit] at h
    cases h
  | some p =>
    obtain ⟨front, back⟩ := p
    rw [hsplit] at h
    cases htag : FieldType.ofTag? back with
    | none =>
      simp only [htag] at h
      cases h
    | some type =>
      simp only [htag] at h
      cases h
      obtain ⟨⟨cs, ds⟩, hlist, hp⟩ := Option.map_eq_some_iff.1 hsplit
      cases hp
      rw [← FieldType.tag_of_ofTag? htag]
      apply String.toList_inj.1
      rw [Text.eq_append_of_splitLastList hlist]
      simp

/-- A column that is not marked with a type keeps its name. -/
theorem eq_of_splitColumn_none {column name : String} (h : splitColumn column = (name, none)) :
    name = column := by
  unfold splitColumn at h
  split at h
  · cases h
    rfl
  · split at h <;> cases h
    rfl

/-- A column keeps its name exactly if this does not end in the name of a type. -/
theorem splitColumn_eq_none_iff {column : String} :
    splitColumn column = (column, none) ↔
      ∀ (front : String) (type : FieldType), column ≠ front ++ "::" ++ type.tag := by
  constructor
  · rintro h front type rfl
    rw [splitColumn_tagged] at h
    cases congrArg Prod.snd h
  · intro h
    rcases hsplit : splitColumn column with ⟨name, _ | type⟩
    · rw [eq_of_splitColumn_none hsplit]
    · exact absurd (eq_of_splitColumn_some hsplit) (h name type)

/-! ## Fields of columns -/

/-- Whether a column is the identifier, or one of a class that fields are stored in. -/
def ColumnInfo.IsUsable (column : ColumnInfo) : Prop :=
  column.name = idName ∨ (StorageClass.ofDeclared? column.declaredType).isSome = true

/-- A field whose column is recognised: it has the column name that follows from its name and type,
it is not the identifier, and a name that stands as it is does not end like a marked one. -/
structure FieldSpec.Discoverable (field : FieldSpec) : Prop where
  physical : field.physical = none
  name_ne : field.name ≠ idName
  unmarked : field.type.isPrimitive = true →
    ∀ (front : String) (type : FieldType), field.name ≠ front ++ "::" ++ type.tag

namespace FieldSet

/-- Putting a field in adds its name, which may be there already. -/
theorem mem_names_insert {fields : FieldSet} {f : FieldSpec} {name : String} :
    name ∈ (fields.insert f).names ↔ name ∈ fields.names ∨ name = f.name := by
  rw [names_insert]
  split
  · next hf =>
    constructor
    · exact .inl
    · rintro (h | rfl)
      · exact h
      · exact hf
  · rw [List.mem_append, List.mem_singleton]

/-- Putting fields in one after the other adds their names. -/
theorem mem_names_foldl_insert {specs : List FieldSpec} {fields : FieldSet} {name : String} :
    name ∈ (specs.foldl insert fields).names ↔ name ∈ fields.names ∨ name ∈ specNames specs := by
  induction specs generalizing fields with
  | nil => simp
  | cons f rest ih =>
    rw [List.foldl_cons, ih, mem_names_insert, specNames_cons, List.mem_cons, or_assoc]

/-- The names of a set are those of the fields that were put in. -/
theorem mem_names_ofList {specs : List FieldSpec} {name : String} :
    name ∈ (ofList specs).names ↔ name ∈ specNames specs := by
  rw [ofList, mem_names_foldl_insert]
  simp [names, empty]

end FieldSet

/-- A name is found in the columns if one of them belongs to a field of that name. -/
theorem mem_names_fieldsOfColumns {columns : List ColumnInfo} {name : String} :
    name ∈ (fieldsOfColumns columns).names ↔
      ∃ c ∈ columns, ∃ f, columnField? c = some f ∧ f.name = name := by
  rw [fieldsOfColumns, FieldSet.mem_names_ofList, specNames, List.mem_map]
  constructor
  · rintro ⟨f, hf, rfl⟩
    obtain ⟨c, hc, hfield⟩ := List.mem_filterMap.1 hf
    exact ⟨c, hc, f, hfield, rfl⟩
  · rintro ⟨c, hc, f, hfield, rfl⟩
    exact ⟨f, List.mem_filterMap.2 ⟨c, hc, hfield⟩, rfl⟩

/-- What is found in columns is found in more of them. -/
theorem names_fieldsOfColumns_mono {columns more : List ColumnInfo} (h : columns ⊆ more)
    {name : String} (hname : name ∈ (fieldsOfColumns columns).names) :
    name ∈ (fieldsOfColumns more).names := by
  obtain ⟨c, hc, hfield⟩ := mem_names_fieldsOfColumns.1 hname
  exact mem_names_fieldsOfColumns.2 ⟨c, h hc, hfield⟩

/-- The column of a field is not the identifier. -/
theorem FieldSpec.Discoverable.column_ne {field : FieldSpec} (h : field.Discoverable) :
    field.column ≠ idName := by
  unfold FieldSpec.column physicalName
  rw [h.physical, Option.getD_none]
  split
  · exact h.name_ne
  · intro hid
    -- a marked column has colons in its name, and the identifier has none
    have hcolon : ':' ∈ (field.name ++ "::" ++ field.type.tag).toList := by simp
    rw [hid] at hcolon
    exact absurd hcolon (by decide)

/-- The column of a field is taken apart into a name that is the field's. -/
theorem FieldSpec.Discoverable.splitColumn_fst {field : FieldSpec} (h : field.Discoverable) :
    (splitColumn field.column).1 = field.name := by
  unfold FieldSpec.column physicalName
  rw [h.physical, Option.getD_none]
  split
  · next hprimitive => rw [splitColumn_eq_none_iff.2 (h.unmarked hprimitive)]
  · rw [splitColumn_tagged]

/-- A usable column other than the identifier belongs to a field of the name that stands in it. -/
theorem ColumnInfo.IsUsable.exists_columnField? {column : ColumnInfo} (h : column.IsUsable)
    (hid : column.name ≠ idName) :
    ∃ f, columnField? column = some f ∧ f.name = (splitColumn column.name).1 := by
  obtain ⟨storage, hstorage⟩ := Option.isSome_iff_exists.1 (h.resolve_left hid)
  unfold columnField?
  rw [if_neg hid]
  rcases splitColumn column.name with ⟨name, _ | type⟩
  · simp only [hstorage]
    cases storage <;> exact ⟨_, rfl, rfl⟩
  · exact ⟨_, rfl, rfl⟩

/-- A field that has a column among usable ones is found by its name. -/
theorem FieldSpec.Discoverable.mem_names {field : FieldSpec} (h : field.Discoverable)
    {columns : List ColumnInfo} (husable : ∀ c ∈ columns, c.IsUsable)
    (hcolumn : field.column ∈ columns.map ColumnInfo.name) :
    field.name ∈ (fieldsOfColumns columns).names := by
  obtain ⟨c, hc, hname⟩ := List.mem_map.1 hcolumn
  obtain ⟨f, hf, hfname⟩ := (husable c hc).exists_columnField? (by rw [hname]; exact h.column_ne)
  refine mem_names_fieldsOfColumns.2 ⟨c, hc, f, hf, ?_⟩
  rw [hfname, hname, h.splitColumn_fst]

end RecordMapping

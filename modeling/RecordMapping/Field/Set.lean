import RecordMapping.Field.Spec
import RecordMapping.Error

/-!
# Field sets

The fields of a table, in the order of its columns. A name belongs to one field at most, and
giving a field of the same name replaces it in its place. What is declared for a table is laid
over what is found in it (`overlay`), and what is required of a table is compared with what it has
(`missing`).
-/

namespace RecordMapping

/-! ## Types by name and by value -/

/-- The type with a given name, or the error that there is none. -/
def FieldType.named (text : String) : Except Error FieldType :=
  match FieldType.ofTag? text with
  | some type => .ok type
  | none => .error (.unsupportedType (.tag text))

/-- The type that a value has by itself, which null does not have; a record is an error. -/
def FieldType.deduce : Value → Except Error (Option FieldType)
  | .record r => .error (.unsupportedType (.value (.record r)))
  | value => .ok (FieldType.ofValue? value)

/-! ## Lists of fields -/

/-- The names of a list of fields. -/
def specNames (specs : List FieldSpec) : List String := specs.map FieldSpec.name

@[simp] theorem specNames_nil : specNames [] = [] := rfl

@[simp] theorem specNames_cons (f : FieldSpec) (rest : List FieldSpec) :
    specNames (f :: rest) = f.name :: specNames rest := rfl

/-- Puts a field in the place of the one with its name, or at the end. -/
def putSpec (field : FieldSpec) : List FieldSpec → List FieldSpec
  | [] => [field]
  | f :: rest => if f.name = field.name then field :: rest else f :: putSpec field rest

/-- Putting a field leaves the names as they are, or adds its name at the end. -/
theorem specNames_putSpec (field : FieldSpec) (specs : List FieldSpec) :
    specNames (putSpec field specs) =
      if field.name ∈ specNames specs then specNames specs
      else specNames specs ++ [field.name] := by
  induction specs with
  | nil => simp [putSpec]
  | cons f rest ih =>
    by_cases h : f.name = field.name
    · simp [putSpec, h]
    · have h' : ¬field.name = f.name := fun e => h e.symm
      simp only [putSpec, h, if_false, specNames_cons, ih, List.mem_cons, h', false_or]
      split <;> rfl

/-- Putting a field keeps the names distinct. -/
theorem nodup_specNames_putSpec {field : FieldSpec} {specs : List FieldSpec}
    (h : (specNames specs).Nodup) : (specNames (putSpec field specs)).Nodup := by
  rw [specNames_putSpec]
  split
  · exact h
  · next hn =>
    rw [List.nodup_append]
    refine ⟨h, by simp, fun a ha b hb => ?_⟩
    simp only [List.mem_singleton] at hb
    rintro rfl
    exact hn (hb ▸ ha)

/-! ## Sets -/

/-- The fields of a table, with distinct names. -/
structure FieldSet where
  specs : List FieldSpec
  nodup : (specNames specs).Nodup
  deriving DecidableEq

namespace FieldSet

/-- The set without fields. -/
def empty : FieldSet := ⟨[], by simp⟩

instance : Inhabited FieldSet := ⟨empty⟩

/-- Adds a field, in the place of the one with its name. -/
def insert (fields : FieldSet) (field : FieldSpec) : FieldSet :=
  ⟨putSpec field fields.specs, nodup_specNames_putSpec fields.nodup⟩

/-- The set of the given fields, put one after the other. -/
def ofList (specs : List FieldSpec) : FieldSet := specs.foldl insert empty

/-- The names of the fields, in order. -/
def names (fields : FieldSet) : List String := specNames fields.specs

/-- The columns of the fields, in order. -/
def columns (fields : FieldSet) : List String := fields.specs.map FieldSpec.column

/-- The field with a given name. -/
def get? (fields : FieldSet) (name : String) : Option FieldSpec :=
  fields.specs.find? (·.name = name)

/-- Whether there is a field with a given name. -/
def contains (fields : FieldSet) (name : String) : Bool := (fields.get? name).isSome

/-- The number of fields. -/
def size (fields : FieldSet) : Nat := fields.specs.length

/-- Whether there are no fields. -/
def isEmpty (fields : FieldSet) : Bool := fields.specs.isEmpty

/-- Adding a field leaves the names as they are, or adds its name at the end. -/
theorem names_insert (fields : FieldSet) (field : FieldSpec) :
    (fields.insert field).names =
      if field.name ∈ fields.names then fields.names else fields.names ++ [field.name] :=
  specNames_putSpec field fields.specs

/-- A name belongs to the field that was added last under it. -/
theorem get?_insert (fields : FieldSet) (field : FieldSpec) (name : String) :
    (fields.insert field).get? name =
      if field.name = name then some field else fields.get? name := by
  obtain ⟨specs, nodup⟩ := fields
  simp only [get?, insert]
  induction specs with
  | nil => by_cases hn : field.name = name <;> simp [putSpec, hn]
  | cons f rest ih =>
    have ih := ih (List.nodup_cons.1 nodup).2
    by_cases hf : f.name = field.name
    · rw [putSpec, if_pos hf]
      by_cases hn : field.name = name
      · simp [hn]
      · simp [hn, hf]
    · rw [putSpec, if_neg hf]
      by_cases hn : f.name = name
      · have : ¬field.name = name := fun h => hf (hn.trans h.symm)
        simp [hn, this]
      · simp [hn, ih]

/-- A set contains a name if it is one of its names. -/
theorem contains_iff {fields : FieldSet} {name : String} :
    fields.contains name = true ↔ name ∈ fields.names := by
  simp [contains, get?, names, specNames, List.find?_isSome]

/-- The fields of `required` whose names `fields` lacks, in the order of `required`. -/
def missing (fields required : FieldSet) : FieldSet :=
  ⟨required.specs.filter (!fields.contains ·.name),
    (List.filter_sublist.map FieldSpec.name).nodup required.nodup⟩

/-- The field, with the physical name that `live` has for it unless it has one itself. -/
def inheritPhysical (live : FieldSet) (field : FieldSpec) : FieldSpec :=
  { field with physical := field.physical.or ((live.get? field.name).bind FieldSpec.physical) }

/-- The fields of `live`, with those of `declared` in place of the ones with their names or after
them. A physical name that is live stays, unless another one is declared. -/
def overlay (live declared : FieldSet) : FieldSet :=
  (declared.specs.map live.inheritPhysical).foldl insert live

/-- The field that a value calls for: optional, of the type of the value. The identifier and null
call for none. -/
def deduceSpec (name : String) (value : Value) : Except Error (Option FieldSpec) :=
  if name = idName then .ok none
  else (FieldType.deduce value).map fun type => type.map fun type =>
    { name, type, required := false }

/-- The fields that the values of a record call for, or the error of the first that has no
type. -/
def deduce (record : Record) : Except Error FieldSet := do
  let specs ← record.mapM fun (name, value) => deduceSpec name value
  return ofList (specs.filterMap id)

end FieldSet

end RecordMapping

import Mathlib.Data.List.Perm.Basic
import RecordMapping.Proofs.Query.Kind

/-!
# What the keys of a filter become

Each key of a filter becomes one thing or is refused, by what it names and by its value alone
(`Clause.Becomes`, `Clause.Refused`). A filter is compiled if none of its keys is refused, and then
its conditions and its joins are those of its keys, in their order; so a filter in another order is
compiled to the same conditions and joins, in another order (`Clause.compile_partitions`).
-/

namespace RecordMapping

/-- Steps on the members of a list in another order have their results in another order. -/
theorem exists_mapM_of_perm {ε α β : Type} {f : α → Except ε β} {l l' : List α} (h : l.Perm l')
    {bs : List β} (hbs : l.mapM f = .ok bs) : ∃ bs', l'.mapM f = .ok bs' ∧ bs'.Perm bs := by
  obtain ⟨bs', hall, hperm⟩ := List.perm_comp_forall₂ h.symm (mapM_eq_ok_iff.1 hbs)
  exact ⟨bs', mapM_eq_ok_iff.2 hall, hperm⟩

namespace Clause

variable {fields : FieldSet} {name : String} {value : Value} {field : FieldSpec}

/-! ## One key -/

/-- The filter that the value of a reference gives for the record referred to. -/
inductive Nested : Value → Record → Prop where
  | null : Nested .null []
  | record (r : Record) : Nested (.record r) r
  | identifier {value : Value} {id : Int64} (hrecord : value.record? = none)
      (hid : value.id? = some id) : Nested value (Record.withId id)

/-- What a key of a filter becomes, if anything. -/
inductive Becomes (fields : FieldSet) : String → Value → Option ClauseItem → Prop where
  | noIdentifier : Becomes fields idName .null (some (.predicate (.isNull none idName)))
  | identifier {value : Value} {id : Int64} (hid : value.id? = some id) :
    Becomes fields idName value (some (.predicate (.equal none idName (.bigInt (some id)))))
  | unknown {name : String} {value : Value} (hname : name ≠ idName)
      (hfield : fields.get? name = none) : Becomes fields name value none
  | join {name : String} {value : Value} {field : FieldSpec} {filter : Record} (hname : name ≠ idName)
      (hfield : fields.get? name = some field) (htype : field.type = .reference)
      (hfilter : Nested value filter) : Becomes fields name value (some (.join ⟨field, filter⟩))
  | isNull {name : String} {field : FieldSpec} (hname : name ≠ idName)
      (hfield : fields.get? name = some field) (htype : field.type ≠ .reference) :
    Becomes fields name .null (some (.predicate (.isNull none field.column)))
  | like {name text : String} {field : FieldSpec} (hname : name ≠ idName)
      (hfield : fields.get? name = some field) (htype : field.type ≠ .reference)
      (hwild : wildcard ∈ text.toList) :
    Becomes fields name (.text text) (some (.predicate (.like none field.column text)))
  | equal {name : String} {value : Value} {field : FieldSpec} {param : Param} (hname : name ≠ idName)
      (hfield : fields.get? name = some field) (htype : field.type ≠ .reference)
      (hnull : value ≠ .null) (hpattern : ¬IsPattern value) (hstore : field.store value = .ok param) :
    Becomes fields name value (some (.predicate (.equal none field.column param)))

/-- Why a key of a filter is refused. -/
inductive Refused (fields : FieldSet) : String → Value → Error → Prop where
  | identifier {value : Value} (hnull : value ≠ .null) (hid : value.id? = none) :
    Refused fields idName value (.invalidValue idName .identifier (.value value))
  | reference {name : String} {value : Value} {field : FieldSpec} (hname : name ≠ idName)
      (hfield : fields.get? name = some field) (htype : field.type = .reference)
      (hnull : value ≠ .null) (hrecord : value.record? = none) (hid : value.id? = none) :
    Refused fields name value (.invalidValue field.name .nestedFilter (.value value))
  | unstorable {name : String} {value : Value} {field : FieldSpec} {e : Error} (hname : name ≠ idName)
      (hfield : fields.get? name = some field) (htype : field.type ≠ .reference)
      (hnull : value ≠ .null) (hpattern : ¬IsPattern value) (hstore : field.store value = .error e) :
    Refused fields name value e

theorem isPattern_text {text : String} : IsPattern (.text text) ↔ wildcard ∈ text.toList := by
  simp [IsPattern, Value.kind]

theorem identifierFilter_of_ne_null (hnull : value ≠ .null) :
    identifierFilter value = match value.id? with
      | some id => .ok (.equal none idName (.bigInt (some id)))
      | none => .error (.invalidValue idName .identifier (.value value)) := by
  cases value with
  | null => exact absurd rfl hnull
  | _ => rfl

theorem referenceFilter_of_ne_record (hnull : value ≠ .null) (hrecord : value.record? = none) :
    referenceFilter field value = match value.id? with
      | some id => .ok (Record.withId id)
      | none => .error (.invalidValue field.name .nestedFilter (.value value)) := by
  cases value with
  | null => exact absurd rfl hnull
  | record r => cases hrecord
  | _ => rfl

theorem fieldFilter_of_not_isPattern (hnull : value ≠ .null) (hpattern : ¬IsPattern value) :
    fieldFilter field value = (field.store value).map (.equal none field.column ·) := by
  cases value with
  | null => exact absurd rfl hnull
  | text s => exact if_neg fun hwild => hpattern (isPattern_text.2 hwild)
  | _ => rfl

theorem item_idName (value : Value) :
    item fields idName value = (identifierFilter value).map (some <| .predicate ·) :=
  if_pos rfl

theorem item_reference (hname : name ≠ idName) (hfield : fields.get? name = some field)
    (htype : field.type = .reference) (value : Value) :
    item fields name value
      = (referenceFilter field value).map fun filter => some (.join ⟨field, filter⟩) := by
  rw [item, if_neg hname, hfield]
  exact if_pos htype

theorem item_field (hname : name ≠ idName) (hfield : fields.get? name = some field)
    (htype : field.type ≠ .reference) (value : Value) :
    item fields name value = (fieldFilter field value).map (some <| .predicate ·) := by
  rw [item, if_neg hname, hfield]
  exact if_neg htype

/-- A value of a reference that is null, a record or an identifier gives a filter. -/
theorem referenceFilter_of_nested {filter : Record} (h : Nested value filter) :
    referenceFilter field value = .ok filter := by
  cases h with
  | null => rfl
  | record r => rfl
  | @identifier value id hrecord hid =>
    have hnull : value ≠ .null := by
      rintro rfl
      cases hid
    rw [referenceFilter_of_ne_record hnull hrecord, hid]

theorem referenceFilter_eq_ok_iff {filter : Record} :
    referenceFilter field value = .ok filter ↔ Nested value filter := by
  refine ⟨fun h => ?_, referenceFilter_of_nested⟩
  rcases referenceFilter_eq_ok h with ⟨rfl, rfl⟩ | rfl | ⟨_, hrecord, id, hid, rfl⟩
  · exact .null
  · exact .record filter
  · exact .identifier hrecord hid

theorem item_of_becomes {i : Option ClauseItem} (h : Becomes fields name value i) :
    item fields name value = .ok i := by
  cases h with
  | noIdentifier => rfl
  | @identifier value id hid =>
    have hnull : value ≠ .null := by
      rintro rfl
      cases hid
    rw [item_idName, identifierFilter_of_ne_null hnull, hid]
    rfl
  | unknown hname hfield => rw [item, if_neg hname, hfield]
  | join hname hfield htype hfilter =>
    rw [item_reference hname hfield htype, referenceFilter_of_nested hfilter]
    rfl
  | isNull hname hfield htype =>
    rw [item_field hname hfield htype]
    rfl
  | @like name text field hname hfield htype hwild =>
    have hlike : fieldFilter field (.text text) = .ok (.like none field.column text) := if_pos hwild
    rw [item_field hname hfield htype, hlike]
    rfl
  | equal hname hfield htype hnull hpattern hstore =>
    rw [item_field hname hfield htype, fieldFilter_of_not_isPattern hnull hpattern, hstore]
    rfl

theorem item_of_refused {e : Error} (h : Refused fields name value e) :
    item fields name value = .error e := by
  cases h with
  | identifier hnull hid =>
    rw [item_idName, identifierFilter_of_ne_null hnull, hid]
    rfl
  | reference hname hfield htype hnull hrecord hid =>
    rw [item_reference hname hfield htype, referenceFilter_of_ne_record hnull hrecord, hid]
    rfl
  | unstorable hname hfield htype hnull hpattern hstore =>
    rw [item_field hname hfield htype, fieldFilter_of_not_isPattern hnull hpattern, hstore]
    rfl

/-- The value of a reference gives a filter, or it is no record, null or identifier. -/
theorem nested_or_not (value : Value) :
    (∃ filter, Nested value filter) ∨ value ≠ .null ∧ value.record? = none ∧ value.id? = none := by
  by_cases hnull : value = .null
  · subst hnull
    exact .inl ⟨[], .null⟩
  cases hrecord : value.record? with
  | some r =>
    cases value with
    | record s => exact .inl ⟨s, .record s⟩
    | _ => cases hrecord
  | none =>
    cases hid : value.id? with
    | some id => exact .inl ⟨_, .identifier hrecord hid⟩
    | none => exact .inr ⟨hnull, rfl, rfl⟩

/-- No key is left out: each becomes something, or nothing, or is refused. -/
theorem becomes_or_refused (fields : FieldSet) (name : String) (value : Value) :
    (∃ i, Becomes fields name value i) ∨ ∃ e, Refused fields name value e := by
  -- the identifier comes first: a field that is declared under its name is never looked up
  by_cases hname : name = idName
  · subst hname
    by_cases hnull : value = .null
    · subst hnull
      exact .inl ⟨_, .noIdentifier⟩
    cases hid : value.id? with
    | some id => exact .inl ⟨_, .identifier hid⟩
    | none => exact .inr ⟨_, .identifier hnull hid⟩
  cases hfield : fields.get? name with
  | none => exact .inl ⟨_, .unknown hname hfield⟩
  | some field =>
    by_cases htype : field.type = .reference
    · rcases nested_or_not value with ⟨filter, hfilter⟩ | ⟨hnull, hrecord, hid⟩
      · exact .inl ⟨_, .join hname hfield htype hfilter⟩
      · exact .inr ⟨_, .reference hname hfield htype hnull hrecord hid⟩
    by_cases hnull : value = .null
    · subst hnull
      exact .inl ⟨_, .isNull hname hfield htype⟩
    by_cases hpattern : IsPattern value
    · cases value with
      | text text => exact .inl ⟨_, .like hname hfield htype (isPattern_text.1 hpattern)⟩
      | _ => simp [IsPattern, Value.kind] at hpattern
    cases hstore : field.store value with
    | ok param => exact .inl ⟨_, .equal hname hfield htype hnull hpattern hstore⟩
    | error e => exact .inr ⟨_, .unstorable hname hfield htype hnull hpattern hstore⟩

theorem item_eq_ok_iff {i : Option ClauseItem} :
    item fields name value = .ok i ↔ Becomes fields name value i := by
  refine ⟨fun h => ?_, item_of_becomes⟩
  rcases becomes_or_refused fields name value with ⟨i', hi'⟩ | ⟨e, he⟩
  · have heq := (item_of_becomes hi').symm.trans h
    cases heq
    exact hi'
  · have heq := (item_of_refused he).symm.trans h
    cases heq

theorem item_eq_error_iff {e : Error} :
    item fields name value = .error e ↔ Refused fields name value e := by
  refine ⟨fun h => ?_, item_of_refused⟩
  rcases becomes_or_refused fields name value with ⟨i', hi'⟩ | ⟨e', he'⟩
  · have heq := (item_of_becomes hi').symm.trans h
    cases heq
  · have heq := (item_of_refused he').symm.trans h
    cases heq
    exact he'

/-! ## All keys -/

section

variable {filter filter' : Record} {clause : Clause}

/-- Each key of a filter becomes what stands at its place in a list. -/
def BecomeAll (fields : FieldSet) (filter : Record) (items : List (Option ClauseItem)) : Prop :=
  List.Forall₂ (fun key i => Becomes fields key.1 key.2 i) filter items

theorem mapM_item_eq_ok_iff {items : List (Option ClauseItem)} :
    (filter.mapM fun key => item fields key.1 key.2) = .ok items ↔ BecomeAll fields filter items := by
  rw [mapM_eq_ok_iff]
  simp only [item_eq_ok_iff, BecomeAll]

/-- A filter is compiled to what its keys become. -/
theorem compile_eq_ok_iff : compile fields filter = .ok clause ↔
    ∃ items, BecomeAll fields filter items ∧ clause = ofItems (items.filterMap id) := by
  unfold compile
  rw [bind_eq_ok]
  constructor
  · rintro ⟨items, hitems, hclause⟩
    cases hclause
    exact ⟨items, mapM_item_eq_ok_iff.1 hitems, rfl⟩
  · rintro ⟨items, hitems, rfl⟩
    exact ⟨items, mapM_item_eq_ok_iff.2 hitems, rfl⟩

/-- The error of a filter is that of one of its keys. -/
theorem exists_refused_of_compile {e : Error} (h : compile fields filter = .error e) :
    ∃ name value, (name, value) ∈ filter ∧ Refused fields name value e := by
  unfold compile at h
  rcases bind_eq_error.1 h with hitems | ⟨_, _, hnever⟩
  · obtain ⟨⟨name, value⟩, hkey, hitem⟩ := exists_of_mapM_eq_error hitems
    exact ⟨name, value, hkey, item_eq_error_iff.1 hitem⟩
  · cases hnever

/-- A filter is refused if one of its keys is. -/
theorem exists_compile_eq_error_iff : (∃ e, compile fields filter = .error e) ↔
    ∃ key ∈ filter, ∃ e, Refused fields key.1 key.2 e := by
  constructor
  · rintro ⟨e, h⟩
    obtain ⟨name, value, hkey, hrefused⟩ := exists_refused_of_compile h
    exact ⟨(name, value), hkey, e, hrefused⟩
  · rintro ⟨key, hkey, e, hrefused⟩
    cases hcompile : compile fields filter with
    | error e' => exact ⟨e', rfl⟩
    | ok clause =>
      -- then the key would have become something
      obtain ⟨items, hitems, _⟩ := compile_eq_ok_iff.1 hcompile
      obtain ⟨i, _, hi⟩ := exists_right_of_forall₂ hitems hkey
      have heq := (item_of_becomes hi).symm.trans (item_of_refused hrefused)
      cases heq

/-- A filter in another order is compiled to the same conditions and joins in another order. -/
theorem exists_compile_of_perm (h : filter.Perm filter') (hcompile : compile fields filter = .ok clause) :
    ∃ clause', compile fields filter' = .ok clause' ∧ clause.predicates.Perm clause'.predicates ∧
      clause.joins.Perm clause'.joins := by
  obtain ⟨items, hitems, rfl⟩ := compile_eq_ok_iff.1 hcompile
  obtain ⟨items', hitems', hperm⟩ := exists_mapM_of_perm h (mapM_item_eq_ok_iff.2 hitems)
  have hitems' : BecomeAll fields filter' items' := mapM_item_eq_ok_iff.1 hitems'
  refine ⟨_, compile_eq_ok_iff.2 ⟨items', hitems', rfl⟩, ?_, ?_⟩
  · exact ((hperm.symm.filterMap id).filterMap ClauseItem.predicate?)
  · exact ((hperm.symm.filterMap id).filterMap ClauseItem.join?)

end

/-- A filter is compiled if and only if each of its keys becomes something or nothing, and then its
conditions and its joins are those of its keys, in the order of the keys. It is refused if and only if
one of its keys is. Neither depends on the order of the keys: filters with the same keys are both
refused, or both compiled, to the same conditions and the same joins up to their order. -/
theorem compile_partitions (fields : FieldSet) (filter : Record) :
    (∀ clause, compile fields filter = .ok clause ↔
      ∃ items, BecomeAll fields filter items ∧
        clause.predicates = (items.filterMap id).filterMap ClauseItem.predicate? ∧
        clause.joins = (items.filterMap id).filterMap ClauseItem.join?) ∧
    ((∃ e, compile fields filter = .error e) ↔ ∃ key ∈ filter, ∃ e, Refused fields key.1 key.2 e) ∧
    ∀ filter', filter.Perm filter' →
      ((∃ e, compile fields filter = .error e) ∧ ∃ e, compile fields filter' = .error e) ∨
      ∃ clause clause', compile fields filter = .ok clause ∧ compile fields filter' = .ok clause' ∧
        clause.predicates.Perm clause'.predicates ∧ clause.joins.Perm clause'.joins := by
  refine ⟨fun clause => ?_, exists_compile_eq_error_iff, fun filter' hperm => ?_⟩
  · rw [compile_eq_ok_iff]
    refine exists_congr fun items => and_congr_right fun _ => ?_
    cases clause
    rw [ofItems, mk.injEq]
  cases hcompile : compile fields filter with
  | ok clause =>
    obtain ⟨clause', hcompile', hsame⟩ := exists_compile_of_perm hperm hcompile
    exact .inr ⟨clause, clause', rfl, hcompile', hsame⟩
  | error e =>
    obtain ⟨key, hkey, hrefused⟩ := exists_compile_eq_error_iff.1 ⟨e, hcompile⟩
    exact .inl ⟨⟨e, rfl⟩, exists_compile_eq_error_iff.2 ⟨key, hperm.subset hkey, hrefused⟩⟩

/-- The person that a letter is from. -/
def letterSender : FieldSpec := { name := "from", type := .reference, target := some "people" }

/-- What a letter says. -/
def letterText : FieldSpec := { name := "text", type := .string }

/-- Letters, with the person that they are from. -/
def letterFields : FieldSet := ⟨[letterText, letterSender], by decide⟩

/-- The letters of the seventh person that begin with a greeting. -/
def greetings : Record := [("from", .integer 7), ("text", .text "Dear%")]

theorem becomeAll_greetings : BecomeAll letterFields greetings
    [some (.join ⟨letterSender, Record.withId 7⟩), some (.predicate (.like none "text" "Dear%"))] := by
  have hsender : Becomes letterFields "from" (.integer 7) (some (.join ⟨letterSender, Record.withId 7⟩)) :=
    .join (by decide) rfl rfl (.identifier rfl rfl)
  have htext : Becomes letterFields "text" (.text "Dear%")
      (some (.predicate (.like none "text" "Dear%"))) :=
    @Becomes.like _ _ _ letterText (by decide) rfl (by decide) (by decide)
  exact .cons hsender (.cons htext .nil)

/-- The greetings of a person are compiled whichever of the two keys comes first. -/
theorem compile_partitions_greetings :
    ∃ clause clause', compile letterFields greetings = .ok clause ∧
      compile letterFields greetings.reverse = .ok clause' ∧
      clause.predicates.Perm clause'.predicates ∧ clause.joins.Perm clause'.joins := by
  obtain ⟨hcompiled, -, hperm⟩ := compile_partitions letterFields greetings
  have hclause := (hcompiled ⟨_, _⟩).2 ⟨_, becomeAll_greetings, rfl, rfl⟩
  refine (hperm _ greetings.reverse_perm.symm).resolve_left ?_
  rintro ⟨⟨e, he⟩, -⟩
  cases hclause.symm.trans he

/-- Null is not an identifier, but the identifier can be asked to be null: the key is not refused. -/
theorem compile_null_identifier : Value.null.id? = none ∧
    compile .empty [(idName, .null)] = .ok ⟨[.isNull none idName], []⟩ :=
  ⟨rfl, rfl⟩

end Clause

end RecordMapping

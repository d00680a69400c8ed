import RecordMapping.Proofs.Query.Alike
import RecordMapping.Query.Clause

/-!
# Values of the same kind

What a filter is compiled to depends on the kinds of its values, and not on the values, except that a
value may be refused (`Clause.alike_compile`). Of a text it matters whether it is a pattern.
-/

namespace RecordMapping

/-- The kind of a value. -/
inductive Kind where
  | null
  | integer
  | number
  | text (isPattern : Bool)
  | boolean
  | date
  | object
  | array
  | record (fields : List (String × Kind))

mutual
/-- The kind of a value. That of a record has the kinds of its values, under their names. -/
def Value.kind : Value → Kind
  | .null => .null
  | .integer _ => .integer
  | .number _ => .number
  | .text s => .text (decide (Clause.wildcard ∈ s.toList))
  | .boolean _ => .boolean
  | .date _ => .date
  | .object _ => .object
  | .array _ => .array
  | .record fields => .record (kinds fields)
/-- The kinds of a list of named values. -/
def Value.kinds : List (String × Value) → List (String × Kind)
  | [] => []
  | (name, value) :: rest => (name, kind value) :: kinds rest
end

/-- The names of a record with the kinds of its values, in order. -/
def Record.kinds (r : Record) : List (String × Kind) := Value.kinds r

/-- The same name, with values of the same kind. -/
def SameKind (p q : String × Value) : Prop := p.1 = q.1 ∧ p.2.kind = q.2.kind

/-- Records with the same kinds have the same names in the same order, and values of the same kind
under them. -/
theorem Record.kinds_eq_iff {a b : Record} : a.kinds = b.kinds ↔ List.Forall₂ SameKind a b := by
  unfold kinds
  induction a generalizing b with
  | nil =>
    rw [List.forall₂_nil_left_iff]
    cases b <;> simp [Value.kinds]
  | cons p rest ih =>
    cases b with
    | nil => simp [Value.kinds]
    | cons q rest' => simp [Value.kinds, SameKind, ih]

namespace Value

variable {v w : Value}

theorem kind_eq_null : v.kind = .null ↔ v = .null := by
  cases v <;> simp [kind]

/-- Only null has the kind of null. -/
theorem eq_null_iff (h : v.kind = w.kind) : v = .null ↔ w = .null := by
  rw [← kind_eq_null, ← kind_eq_null, h]

/-- Only a record has the kind of a record. -/
theorem exists_record {r : Record} (h : (Value.record r).kind = w.kind) :
    ∃ s : Record, w = .record s ∧ r.kinds = s.kinds := by
  cases w with
  | record s =>
    rw [kind, kind, Kind.record.injEq] at h
    exact ⟨s, rfl, h⟩
  | _ => simp [kind] at h

end Value

namespace Clause

variable {v w : Value}

/-! ## Filters -/

theorem identifierFilter_eq_ok {f : Filter} (h : identifierFilter v = .ok f) :
    (v = .null ∧ f = .isNull none idName) ∨
      (v ≠ .null ∧ ∃ id, v.id? = some id ∧ f = .equal none idName (.bigInt (some id))) := by
  unfold identifierFilter at h
  split at h
  · cases h
    exact .inl ⟨rfl, rfl⟩
  · next hnull =>
    split at h
    · next id hid =>
      cases h
      exact .inr ⟨hnull, id, hid, rfl⟩
    · cases h

theorem alike_identifierFilter (hkind : v.kind = w.kind) {f g : Filter}
    (hf : identifierFilter v = .ok f) (hg : identifierFilter w = .ok g) : f.Alike g := by
  have hnull := Value.eq_null_iff hkind
  rcases identifierFilter_eq_ok hf with ⟨hv, rfl⟩ | ⟨hv, _, _, rfl⟩
  · rcases identifierFilter_eq_ok hg with ⟨_, rfl⟩ | ⟨hw, _⟩
    · exact .isNull none idName
    · exact absurd (hnull.1 hv) hw
  · rcases identifierFilter_eq_ok hg with ⟨hw, _⟩ | ⟨_, _, _, rfl⟩
    · exact absurd (hnull.2 hw) hv
    · exact .equal none idName ⟨_, rfl⟩ ⟨_, rfl⟩

/-- Whether a value is compared as a pattern. -/
def IsPattern (v : Value) : Prop := v.kind = .text true

theorem fieldFilter_eq_ok {field : FieldSpec} {f : Filter} (h : fieldFilter field v = .ok f) :
    (v = .null ∧ f = .isNull none field.column) ∨
      (IsPattern v ∧ ∃ s, f = .like none field.column s) ∨
      (v ≠ .null ∧ ¬IsPattern v ∧ ∃ p, field.store v = .ok p ∧ f = .equal none field.column p) := by
  unfold fieldFilter at h
  split at h
  · cases h
    exact .inl ⟨rfl, rfl⟩
  · next s =>
    split at h
    · next hwild =>
      cases h
      exact .inr (.inl ⟨by simp [IsPattern, Value.kind, hwild], s, rfl⟩)
    · next hwild =>
      obtain ⟨p, hp, rfl⟩ := map_eq_ok.1 h
      exact .inr (.inr ⟨Value.noConfusion, by simp [IsPattern, Value.kind, hwild], p, hp, rfl⟩)
  · next hnull htext =>
    obtain ⟨p, hp, rfl⟩ := map_eq_ok.1 h
    refine .inr (.inr ⟨hnull, fun hpattern => ?_, p, hp, rfl⟩)
    cases v with
    | text s => exact htext s rfl
    | _ => simp [IsPattern, Value.kind] at hpattern

theorem alike_fieldFilter (hkind : v.kind = w.kind) {field : FieldSpec} {f g : Filter}
    (hf : fieldFilter field v = .ok f) (hg : fieldFilter field w = .ok g) : f.Alike g := by
  have hnull := Value.eq_null_iff hkind
  have hpattern : IsPattern v ↔ IsPattern w := by rw [IsPattern, IsPattern, hkind]
  rcases fieldFilter_eq_ok hf with ⟨hv, rfl⟩ | ⟨hv, s, rfl⟩ | ⟨hv, hv', p, hp, rfl⟩
  · obtain rfl := hnull.1 hv
    cases hg
    exact .isNull none field.column
  · rcases fieldFilter_eq_ok hg with ⟨rfl, rfl⟩ | ⟨_, s', rfl⟩ | ⟨_, hw, _⟩
    · cases hpattern.1 hv
    · exact .like none field.column s s'
    · exact absurd (hpattern.1 hv) hw
  · rcases fieldFilter_eq_ok hg with ⟨hw, _⟩ | ⟨hw, _⟩ | ⟨_, _, q, hq, rfl⟩
    · exact absurd (hnull.2 hw) hv
    · exact absurd (hpattern.2 hw) hv'
    · exact .equal none field.column (FieldType.exists_datum_of_store hp)
        (FieldType.exists_datum_of_store hq)

/-! ## References -/

theorem referenceFilter_eq_ok {field : FieldSpec} {r : Record}
    (h : referenceFilter field v = .ok r) :
    (v = .null ∧ r = []) ∨ v = .record r ∨
      (v ≠ .null ∧ v.record? = none ∧ ∃ id, v.id? = some id ∧ r = Record.withId id) := by
  unfold referenceFilter at h
  split at h
  · cases h
    exact .inl ⟨rfl, rfl⟩
  · cases h
    exact .inr (.inl rfl)
  · next hnull hrecord =>
    split at h
    · next id hid =>
      cases h
      refine .inr (.inr ⟨hnull, ?_, id, hid, rfl⟩)
      cases v with
      | record r => exact absurd rfl (hrecord r)
      | _ => rfl
    · cases h

/-- What is asked of the record that a reference refers to has the same kinds. -/
theorem kinds_referenceFilter (hkind : v.kind = w.kind) {field : FieldSpec} {r s : Record}
    (hr : referenceFilter field v = .ok r) (hs : referenceFilter field w = .ok s) :
    r.kinds = s.kinds := by
  have hnull := Value.eq_null_iff hkind
  rcases referenceFilter_eq_ok hr with ⟨hv, rfl⟩ | rfl | ⟨hv, hrecord, _, _, rfl⟩
  · obtain rfl := hnull.1 hv
    cases hs
    rfl
  · obtain ⟨s', rfl, hkinds⟩ := Value.exists_record hkind
    cases hs
    exact hkinds
  · rcases referenceFilter_eq_ok hs with ⟨hw, _⟩ | rfl | ⟨_, _, _, _, rfl⟩
    · exact absurd (hnull.2 hw) hv
    · obtain ⟨r', rfl, _⟩ := Value.exists_record hkind.symm
      cases hrecord
    · rfl

/-! ## Compiling -/

/-- The same reference, and filters with the same kinds. -/
def JoinsAlike (j j' : ReferenceJoin) : Prop :=
  j.field = j'.field ∧ Record.kinds j.filter = Record.kinds j'.filter

/-- Items that differ in values alone. -/
inductive ItemsAlike : Option ClauseItem → Option ClauseItem → Prop where
  | none : ItemsAlike none none
  | predicate {f g : Filter} (h : f.Alike g) :
    ItemsAlike (some (.predicate f)) (some (.predicate g))
  | join {j j' : ReferenceJoin} (h : JoinsAlike j j') : ItemsAlike (some (.join j)) (some (.join j'))

theorem alike_item {fields : FieldSet} {name : String} (hkind : v.kind = w.kind)
    {i i' : Option ClauseItem} (hi : item fields name v = .ok i)
    (hi' : item fields name w = .ok i') : ItemsAlike i i' := by
  unfold item at hi hi'
  by_cases hid : name = idName
  · rw [if_pos hid] at hi hi'
    obtain ⟨f, hf, rfl⟩ := map_eq_ok.1 hi
    obtain ⟨g, hg, rfl⟩ := map_eq_ok.1 hi'
    exact .predicate (alike_identifierFilter hkind hf hg)
  rw [if_neg hid] at hi hi'
  cases hfield : fields.get? name with
  | none =>
    rw [hfield] at hi hi'
    cases hi
    cases hi'
    exact .none
  | some field =>
    simp only [hfield] at hi hi'
    by_cases htype : field.type = .reference
    · rw [if_pos htype] at hi hi'
      obtain ⟨r, hr, rfl⟩ := map_eq_ok.1 hi
      obtain ⟨s, hs, rfl⟩ := map_eq_ok.1 hi'
      exact .join ⟨rfl, kinds_referenceFilter hkind hr hs⟩
    · rw [if_neg htype] at hi hi'
      obtain ⟨f, hf, rfl⟩ := map_eq_ok.1 hi
      obtain ⟨g, hg, rfl⟩ := map_eq_ok.1 hi'
      exact .predicate (alike_fieldFilter hkind hf hg)

/-- Clauses that differ in values alone. -/
structure Alike (c c' : Clause) : Prop where
  predicates : Filter.AlikeAll c.predicates c'.predicates
  joins : List.Forall₂ JoinsAlike c.joins c'.joins

theorem alike_ofItems {items items' : List (Option ClauseItem)}
    (h : List.Forall₂ ItemsAlike items items') :
    (ofItems (items.filterMap id)).Alike (ofItems (items'.filterMap id)) := by
  induction h with
  | nil => exact ⟨.nil, .nil⟩
  | cons hi _ ih =>
    cases hi with
    | none => exact ih
    | predicate hf => exact ⟨.cons hf ih.predicates, ih.joins⟩
    | join hj => exact ⟨ih.predicates, .cons hj ih.joins⟩

/-- Filters with the same kinds are compiled to clauses that differ in values alone. -/
theorem alike_compile {fields : FieldSet} {a b : Record} (hkinds : a.kinds = b.kinds)
    {c c' : Clause} (hc : compile fields a = .ok c) (hc' : compile fields b = .ok c') :
    c.Alike c' := by
  obtain ⟨items, hitems, hclause⟩ := bind_eq_ok.1 hc
  obtain ⟨items', hitems', hclause'⟩ := bind_eq_ok.1 hc'
  cases hclause
  cases hclause'
  refine alike_ofItems (forall₂_of_mapM (Record.kinds_eq_iff.1 hkinds) ?_ hitems hitems')
  rintro ⟨name, v⟩ ⟨_, w⟩ i i' ⟨rfl, hkind⟩ hi hi'
  exact alike_item hkind hi hi'

end Clause

end RecordMapping

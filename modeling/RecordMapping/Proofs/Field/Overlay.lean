import Mathlib.Data.List.Nodup
import RecordMapping.Proofs.Field.Set
import RecordMapping.Proofs.Results
import RecordMapping.Schema.Introspection

/-!
# Field sets as ordered maps

A set is known by its names, in their order, and by what it has under each of them
(`FieldSet.ext_of_get?`). However it came about, its names stand in the order in which they were first
put in, and each has the field that was put in last (`FieldSet.Built.collects`). Laying one set over
another is a monoid on such maps, with the empty set as its unit, in which laying a set over twice is
laying it over once (`FieldSet.overlay_monoid_of_built`).
-/

namespace RecordMapping

namespace FieldSet

variable {fields live declared : FieldSet} {specs : List FieldSpec} {name : String}

/-! ## Sets by their names -/

theorem nodup_names (fields : FieldSet) : fields.names.Nodup := fields.nodup

theorem get?_of_mem {f : FieldSpec} (h : f ∈ fields.specs) : fields.get? f.name = some f :=
  get?_eq_some_iff.2 ⟨h, rfl⟩

theorem name_of_get? {f : FieldSpec} (h : fields.get? name = some f) : f.name = name :=
  (get?_eq_some_iff.1 h).2

/-- The fields of a set are those under its names. -/
theorem specs_eq_filterMap (fields : FieldSet) : fields.specs = fields.names.filterMap fields.get? := by
  have hget : ∀ f ∈ fields.specs, (fields.get? ∘ FieldSpec.name) f = some f :=
    fun f hf => get?_of_mem hf
  rw [names, specNames, List.filterMap_map, List.filterMap_congr hget, List.filterMap_some]

/-- Sets with the same names in the same order, and the same fields under them, are the same. -/
theorem ext_of_get? {a b : FieldSet} (hnames : a.names = b.names)
    (hget : ∀ name, a.get? name = b.get? name) : a = b := by
  have hspecs : a.specs = b.specs := by
    rw [specs_eq_filterMap a, specs_eq_filterMap b, hnames, funext hget]
  cases a
  cases b
  simpa using hspecs

/-! ## Putting fields in -/

/-- Of a list without repetitions nothing is left out. -/
theorem eraseDups_of_nodup {names : List String} (h : names.Nodup) : names.eraseDups = names := by
  induction names with
  | nil => simp
  | cons first rest ih =>
    rw [List.nodup_cons] at h
    have hkept : rest.filter (fun other => !other == first) = rest := by
      simp only [List.filter_eq_self, Bool.not_eq_true', beq_eq_false_iff_ne]
      intro other hother heq
      exact h.1 (heq ▸ hother)
    rw [List.eraseDups_cons, hkept, ih h.2]

/-- Names that come after others are added where they are new. -/
theorem eraseDups_append_of_nodup {before after : List String} (hbefore : before.Nodup)
    (hafter : after.Nodup) :
    (before ++ after).eraseDups = before ++ after.filter (fun name => name ∉ before) := by
  have hremoved : after.removeAll before = after.filter (fun name => name ∉ before) := by
    simp [List.removeAll]
  rw [List.eraseDups_append, hremoved, eraseDups_of_nodup hbefore,
    eraseDups_of_nodup (hafter.filter _)]

/-- A name that has come already changes nothing. -/
theorem eraseDups_append_cons_of_mem {before after : List String} (h : name ∈ before) :
    (before ++ name :: after).eraseDups = (before ++ after).eraseDups := by
  have hremoved : (name :: after).removeAll before = after.removeAll before := by
    simp [List.removeAll, h]
  rw [List.eraseDups_append, List.eraseDups_append, hremoved]

/-- The names of the fields that are put in follow those of the set, each where it first came. -/
theorem names_foldl_insert (specs : List FieldSpec) (fields : FieldSet) :
    (specs.foldl insert fields).names = (fields.names ++ specNames specs).eraseDups := by
  induction specs generalizing fields with
  | nil => rw [List.foldl_nil, specNames_nil, List.append_nil, eraseDups_of_nodup fields.nodup_names]
  | cons f rest ih =>
    rw [List.foldl_cons, ih, names_insert, specNames_cons]
    by_cases hf : f.name ∈ fields.names
    · rw [if_pos hf, eraseDups_append_cons_of_mem hf]
    · rw [if_neg hf, List.append_assoc, List.singleton_append]

/-- A name has the last of the fields that are put in under it. -/
theorem get?_foldl_insert_findRev? (specs : List FieldSpec) (fields : FieldSet) (name : String) :
    (specs.foldl insert fields).get? name
      = (specs.findRev? (·.name = name)).or (fields.get? name) := by
  induction specs generalizing fields with
  | nil => simp [List.findRev?]
  | cons f rest ih =>
    rw [List.foldl_cons, ih, get?_insert, List.findRev?]
    cases hrest : rest.findRev? (·.name = name) with
    | some g => simp
    | none => by_cases hf : f.name = name <;> simp [hf]

/-- A set as it follows from the fields that were put in, one after the other: the names stand in the
order in which they first came, and each has the field that came last. -/
structure Collects (put : List FieldSpec) (fields : FieldSet) : Prop where
  nodup : fields.names.Nodup
  names : fields.names = (specNames put).eraseDups
  get? : ∀ name, fields.get? name = put.findRev? (·.name = name)

theorem collects_ofList (put : List FieldSpec) : Collects put (ofList put) := by
  refine ⟨(ofList put).nodup, names_foldl_insert put empty, fun name => ?_⟩
  rw [ofList, get?_foldl_insert_findRev?]
  simp [empty, FieldSet.get?]

/-- Further fields are put in after the others. -/
theorem Collects.foldl_insert {put : List FieldSpec} (h : Collects put fields)
    (more : List FieldSpec) : Collects (put ++ more) (more.foldl insert fields) := by
  have hset : fields = ofList put := by
    have hlist := collects_ofList put
    refine ext_of_get? (h.names.trans hlist.names.symm) fun name => ?_
    rw [h.get?, hlist.get?]
  rw [hset, ofList, ← List.foldl_append]
  exact collects_ofList (put ++ more)

/-! ## How sets come about -/

/-- The field that a value of a record calls for, if it has a type by itself. -/
def calledFor? (entry : String × Value) : Option FieldSpec :=
  if entry.1 = idName then none
  else (FieldType.ofValue? entry.2).map fun type => { name := entry.1, type, required := false }

theorem eq_ofValue?_of_deduce {value : Value} {type : Option FieldType}
    (h : FieldType.deduce value = .ok type) : type = FieldType.ofValue? value := by
  cases value with
  | record r => cases h
  | _ =>
    cases h
    rfl

theorem calledFor?_eq_some_iff {value : Value} {f : FieldSpec} : calledFor? (name, value) = some f ↔
    name ≠ idName ∧ ∃ type, FieldType.ofValue? value = some type ∧
      f = { name, type, required := false } := by
  by_cases hname : name = idName
  · simp [calledFor?, hname]
  · rw [calledFor?, if_neg hname, Option.map_eq_some_iff]
    simp only [hname, ne_eq, not_false_eq_true, true_and, eq_comm]

theorem eq_calledFor?_of_deduceSpec {value : Value} {spec : Option FieldSpec}
    (h : deduceSpec name value = .ok spec) : spec = calledFor? (name, value) := by
  unfold deduceSpec at h
  unfold calledFor?
  by_cases hname : name = idName
  · rw [if_pos hname] at h ⊢
    exact (Except.ok.inj h).symm
  · rw [if_neg hname] at h ⊢
    obtain ⟨type, htype, rfl⟩ := map_eq_ok.1 h
    rw [eq_ofValue?_of_deduce htype]

/-- What is deduced from a record is what its values call for. -/
theorem eq_ofList_of_deduce {record : Record} (h : deduce record = .ok fields) :
    fields = ofList (record.filterMap calledFor?) := by
  obtain ⟨found, hfound, hset⟩ := bind_eq_ok.1 h
  cases hset
  have hcalled : found = record.map calledFor? := by
    have hall : List.Forall₂ (fun entry spec => deduceSpec entry.1 entry.2 = .ok spec) record found :=
      mapM_eq_ok_iff.1 hfound
    clear h hfound
    induction hall with
    | nil => rfl
    | cons hspec _ ih => rw [List.map_cons, ih, eq_calledFor?_of_deduceSpec hspec]
  rw [hcalled, List.filterMap_map]
  rfl

/-- How a set comes about, with the fields that were put in, one after the other. -/
inductive Built : List FieldSpec → FieldSet → Prop where
  | empty : Built [] empty
  | insert {put : List FieldSpec} {fields : FieldSet} (h : Built put fields) (field : FieldSpec) :
      Built (put ++ [field]) (fields.insert field)
  | ofList (put : List FieldSpec) : Built put (ofList put)
  | deduce {record : Record} {fields : FieldSet} (h : deduce record = .ok fields) :
      Built (record.filterMap calledFor?) fields
  | missing {put put' : List FieldSpec} {fields required : FieldSet} (h : Built put fields)
      (h' : Built put' required) :
      Built (required.specs.filter fun f => f.name ∉ fields.names) (fields.missing required)
  | overlay {put put' : List FieldSpec} {live declared : FieldSet} (h : Built put live)
      (h' : Built put' declared) :
      Built (put ++ declared.specs.map live.inheritPhysical) (live.overlay declared)
  | ofColumns (columns : List ColumnInfo) :
      Built (columns.filterMap columnField?) (fieldsOfColumns columns)

/-- Fields with distinct names collect to the set that has just them. -/
theorem collects_specs (fields : FieldSet) : Collects fields.specs fields := by
  refine ⟨fields.nodup, (eraseDups_of_nodup fields.nodup).symm, fun name => ?_⟩
  have hfold := get?_foldl_insert fields.nodup empty name
  rw [get?_foldl_insert_findRev?] at hfold
  simpa [empty, FieldSet.get?] using hfold.symm

/-- A set keeps its names in the order in which they came, with the fields that came last. -/
theorem Built.collects {put : List FieldSpec} (h : Built put fields) : Collects put fields := by
  induction h with
  | empty => exact collects_ofList []
  | insert _ field ih => exact ih.foldl_insert [field]
  | ofList put => exact collects_ofList put
  | deduce h =>
    rw [eq_ofList_of_deduce h]
    exact collects_ofList _
  | @missing _ _ fields required _ _ _ _ =>
    rw [← specs_missing]
    exact collects_specs (fields.missing required)
  | overlay _ _ ih _ => exact ih.foldl_insert _
  | ofColumns columns => exact collects_ofList _

/-! ## Laying one set over another -/

/-- The names of the set below come first, and the new ones of the set above follow. -/
theorem names_overlay (live declared : FieldSet) :
    (live.overlay declared).names
      = live.names ++ declared.names.filter (fun name => name ∉ live.names) := by
  have hnames : specNames (declared.specs.map live.inheritPhysical) = declared.names := by
    rw [specNames, List.map_map]
    rfl
  rw [overlay, names_foldl_insert, hnames, eraseDups_append_of_nodup live.nodup_names
    declared.nodup_names]

theorem mem_names_overlay :
    name ∈ (live.overlay declared).names ↔ name ∈ live.names ∨ name ∈ declared.names := by
  rw [names_overlay, List.mem_append, List.mem_filter, decide_eq_true_eq]
  by_cases hname : name ∈ live.names <;> simp [hname]

/-- The physical name that a set has for a field name. -/
def physical? (fields : FieldSet) (name : String) : Option String :=
  (fields.get? name).bind FieldSpec.physical

theorem inheritPhysical_eq (live : FieldSet) (f : FieldSpec) :
    live.inheritPhysical f = { f with physical := f.physical.or (live.physical? f.name) } :=
  rfl

theorem physical?_of_get? {f : FieldSpec} (h : fields.get? name = some f) :
    fields.physical? name = f.physical := by
  rw [physical?, h, Option.bind_some]

/-- The physical name of the set above counts, and that of the set below where there is none. -/
theorem physical?_overlay (live declared : FieldSet) (name : String) :
    (live.overlay declared).physical? name
      = (declared.physical? name).or (live.physical? name) := by
  rw [physical?, get?_overlay, physical?]
  cases hd : declared.get? name with
  | none => simp [physical?]
  | some d => simp [inheritPhysical_eq, name_of_get? hd]

/-- Laying over two sets is laying over the second laid over the first. -/
theorem overlay_assoc (a b c : FieldSet) : (a.overlay b).overlay c = a.overlay (b.overlay c) := by
  apply ext_of_get?
  · have hnew : c.names.filter (fun name => name ∉ (a.overlay b).names)
        = (c.names.filter (fun name => name ∉ b.names)).filter (fun name => name ∉ a.names) := by
      rw [List.filter_filter]
      refine List.filter_congr fun name _ => ?_
      simp [mem_names_overlay]
    rw [names_overlay, hnew, names_overlay, names_overlay, names_overlay, List.filter_append,
      List.append_assoc]
  · intro name
    rw [get?_overlay, get?_overlay, get?_overlay, get?_overlay]
    cases hc : c.get? name with
    | none => simp
    | some d =>
      -- the physical name is the first that one of the three sets has, from the top
      have hname : d.name = name := name_of_get? hc
      simp [inheritPhysical_eq, hname, physical?_overlay, Option.or_assoc]

theorem empty_overlay (a : FieldSet) : empty.overlay a = a := by
  apply ext_of_get?
  · have hempty : empty.names = [] := rfl
    simp [names_overlay, hempty]
  · intro name
    rw [get?_overlay]
    cases ha : a.get? name with
    | none => simp [FieldSet.get?, empty]
    | some f => simp [inheritPhysical_eq, physical?, FieldSet.get?, empty]

theorem overlay_empty (a : FieldSet) : a.overlay empty = a := rfl

/-- Laying a set over a second time changes nothing. -/
theorem overlay_overlay_self (a b : FieldSet) : (a.overlay b).overlay b = a.overlay b := by
  apply ext_of_get?
  · have hnew : b.names.filter (fun name => name ∉ (a.overlay b).names) = [] := by
      rw [List.filter_eq_nil_iff]
      intro name hname
      simp [mem_names_overlay, hname]
    rw [names_overlay, hnew, List.append_nil]
  · intro name
    rw [get?_overlay, get?_overlay]
    cases hb : b.get? name with
    | none => simp
    | some d =>
      have hphysical : b.physical? d.name = d.physical := by
        rw [name_of_get? hb, physical?_of_get? hb]
      simp [inheritPhysical_eq, physical?_overlay, hphysical, ← Option.or_assoc]

/-- A set that is laid over another one is not missing from it. -/
theorem missing_overlay_self (a b : FieldSet) : (a.overlay b).missing b = empty := by
  have hspecs : ((a.overlay b).missing b).specs = [] := by
    rw [specs_missing, List.filter_eq_nil_iff]
    intro f hf
    have hname : f.name ∈ b.names := List.mem_map_of_mem hf
    simp [mem_names_overlay, hname]
  cases hmissing : (a.overlay b).missing b
  rw [hmissing] at hspecs
  cases hspecs
  rfl

/-- Every set keeps its names distinct and in the order in which they were first put in, and gives for
a name the field that was put in last. Laying one set over another lists the names of the first, and
then the new ones of the second; a name of the second has its field, with the physical name of the
first where it has none itself, and any other name has the field of the first. This is associative, has
the empty set as its unit on both sides, and is idempotent; nothing of the second set is missing then,
while of a set in itself exactly the fields of new names are missing, in their order. -/
theorem overlay_monoid_of_built :
    (∀ put fields, Built put fields → Collects put fields) ∧
    (∀ a b : FieldSet,
      (a.overlay b).names = a.names ++ b.names.filter (fun name => name ∉ a.names) ∧
      (∀ name f, b.get? name = some f → (a.overlay b).get? name
        = some { f with physical := f.physical.or ((a.get? name).bind FieldSpec.physical) }) ∧
      (∀ name, b.get? name = none → (a.overlay b).get? name = a.get? name) ∧
      (a.overlay b).overlay b = a.overlay b ∧ (a.overlay b).missing b = empty ∧
      (a.missing b).specs = b.specs.filter (fun f => f.name ∉ a.names)) ∧
    (∀ a b c : FieldSet, (a.overlay b).overlay c = a.overlay (b.overlay c)) ∧
    ∀ a : FieldSet, empty.overlay a = a ∧ a.overlay empty = a := by
  refine ⟨fun _ _ h => h.collects, fun a b => ?_, overlay_assoc,
    fun a => ⟨empty_overlay a, overlay_empty a⟩⟩
  refine ⟨names_overlay a b, ?_, ?_, overlay_overlay_self a b, missing_overlay_self a b,
    specs_missing a b⟩
  · intro name f hf
    have hname : f.name = name := name_of_get? hf
    rw [get?_overlay, hf, ← hname]
    rfl
  · intro name hnone
    rw [get?_overlay, hnone]
    rfl

/-- The columns of scores, one of which holds references under a name of its own. -/
def scoreColumns : List ColumnInfo :=
  [⟨idName, "INTEGER", true⟩, ⟨"points", "REAL", false⟩, ⟨"player", "INTEGER", false⟩]

/-- What is declared of scores: the player that a score refers to, and a remark, which is said to be
optional last. -/
def scoreDeclarations : List FieldSpec :=
  [{ name := "remark", type := .string }, { name := "player", type := .reference, target := some "people" },
    { name := "remark", type := .string, required := false }]

/-- The declared player keeps the column that was found for it, and the remark comes last, as it was
declared last. -/
theorem overlay_monoid_of_built_scores :
    ((fieldsOfColumns scoreColumns).overlay (ofList scoreDeclarations)).names
        = ["points", "player", "remark"] ∧
      ((fieldsOfColumns scoreColumns).overlay (ofList scoreDeclarations)).names.Nodup ∧
      ((fieldsOfColumns scoreColumns).overlay (ofList scoreDeclarations)).get? "player"
        = some { name := "player", type := .reference, target := some "people",
                 physical := some "player" } ∧
      ((fieldsOfColumns scoreColumns).overlay (ofList scoreDeclarations)).get? "points"
        = (fieldsOfColumns scoreColumns).get? "points" ∧
      (ofList scoreDeclarations).get? "remark"
        = some { name := "remark", type := .string, required := false } := by
  obtain ⟨hbuilt, hoverlay, -, -⟩ := overlay_monoid_of_built
  have hdeclared := hbuilt _ _ (.ofList scoreDeclarations)
  have hlaid := hbuilt _ _ (.overlay (.ofColumns scoreColumns) (.ofList scoreDeclarations))
  obtain ⟨-, habove, hbelow, -⟩ := hoverlay (fieldsOfColumns scoreColumns) (ofList scoreDeclarations)
  refine ⟨?_, hlaid.nodup, ?_, hbelow "points" (by decide), ?_⟩
  · rw [hlaid.names]
    decide +kernel
  · rw [habove "player" { name := "player", type := .reference, target := some "people" } (by decide)]
    decide +kernel
  · rw [hdeclared.get?]
    decide

end FieldSet

end RecordMapping

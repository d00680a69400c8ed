import RecordMapping.Proofs.Query.Reference
import RecordMapping.Proofs.Session.Triple
import RecordMapping.Proofs.Table.Provision
import RecordMapping.Proofs.Table.Refusal

/-!
# How far planning goes

Planning follows the references that a filter names, however the tables refer to each other. It ends
on all replies, and a plan has one join for each reference on all levels. The joins that stand in
each other are `Plan.maxDepth` at most: where references nest deeper in a filter planning does not
succeed, and it gives up for the depth only there (`Plan.bounded_of_runs_make`).
-/

namespace RecordMapping

/-! ## Errors of other kinds -/

/-- Whether an error says that references nest too deep. -/
def Error.tooDeep : Error → Bool
  | .joinDepthExceeded .. => true
  | _ => false

theorem Error.not_tooDeep_of_refuses {e : Error} (h : e.refuses = true) : e.tooDeep = false := by
  cases e <;> first | rfl | cases h

theorem Error.not_tooDeep_of_cause {e : Error} {cause : EngineError} (h : e.cause? = some cause) :
    e.tooDeep = false := by
  cases e <;> first | rfl | cases h

theorem Registry.not_tooDeep_of_resolve {registry : Registry} {owner : String} {field : FieldSpec}
    {e : Error} (h : registry.resolve owner field = .error e) : e.tooDeep = false := by
  unfold resolve at h
  split at h <;> cases h
  rfl

/-- A filter is not compiled only as a value in it is refused. -/
theorem Clause.refuses_of_compile {fields : FieldSet} {filter : Record} {e : Error}
    (h : compile fields filter = .error e) : e.refuses = true := by
  obtain ⟨name, value, _, hrefused⟩ := exists_refused_of_compile h
  cases hrefused with
  | identifier | reference => rfl
  | unstorable _ _ _ _ _ hstore => exact FieldType.refuses_of_store hstore

/-! ## Fields in effect -/

/-- A field that was found names no table that it refers to. -/
theorem target_of_found {columns : List ColumnInfo} {f : FieldSpec}
    (hf : f ∈ (fieldsOfColumns columns).specs) : f.target = none := by
  obtain ⟨c, _, hfield⟩ := exists_columnField? hf
  unfold columnField? at hfield
  split at hfield
  · cases hfield
  split at hfield
  · cases hfield
    rfl
  · split at hfield <;> cases hfield <;> rfl

/-- Only declared references refer to tables. -/
theorem Clause.exists_declared_reference {columns : List ColumnInfo} {declared : FieldSet}
    {filter : Record} {field : FieldSpec} {value : Value} {registry : Registry} {target : Table}
    (hmem : (field, value) ∈ references ((fieldsOfColumns columns).overlay declared) filter)
    (htarget : registry.target? field = some target) :
    ∃ d, (d, value) ∈ references declared filter ∧ registry.target? d = some target := by
  obtain ⟨hkey, hid, hfield, htype⟩ := mem_references.1 hmem
  rcases FieldSet.mem_overlay.1 hfield with ⟨d, hd, rfl⟩ | ⟨hfound, _⟩
  · exact ⟨d, mem_references.2 ⟨hkey, hid, hd, htype⟩, htarget⟩
  · unfold Registry.target? at htarget
    rw [target_of_found hfound] at htarget
    cases htarget

/-- The fields that a table has at some point among the events after a history: those of the columns
that were last reported to its handle, with what is declared laid over them. -/
def InEffect (history events : List Event) (t : Table) (fields : FieldSet) : Prop :=
  ∃ before after columns, events = before ++ after ∧
    LastReport (history ++ before) t.handle columns ∧
    fields = (fieldsOfColumns columns).overlay t.declared

theorem InEffect.append {history events : List Event} {t : Table} {fields : FieldSet}
    (h : InEffect history events t fields) (more : List Event) :
    InEffect history (events ++ more) t fields := by
  obtain ⟨before, after, columns, rfl, hreport, hfields⟩ := h
  exact ⟨before, after ++ more, columns, List.append_assoc _ _ _, hreport, hfields⟩

theorem InEffect.extends {history events : List Event} {t : Table} {fields : FieldSet}
    (h : InEffect history events t fields) : Clause.Extends fields t.declared := by
  obtain ⟨_, _, columns, _, _, rfl⟩ := h
  exact .overlay (fieldsOfColumns columns) t.declared

/-- What is kept is fresh, and since a certain history nothing but events of a certain kind came. -/
def FreshSince (history : List Event) (allowed : Event → Prop) : Assertion := fun past caches =>
  Fresh (history ++ past) caches ∧ ∀ e ∈ past, allowed e

variable {history : List Event} {allowed : Event → Prop} {registry : Registry}

/-- A session that keeps everything fresh and goes through allowed events only. -/
theorem Session.keeps_freshSince {α : Type} {s : Session α} (hfresh : s.Keeps Fresh)
    (hallowed : ∀ {caches events outcome caches'}, s.Runs caches events outcome caches' →
      ∀ e ∈ events, allowed e) : s.Keeps (FreshSince history allowed) := by
  intro past caches events outcome caches' hpre hruns
  constructor
  · rw [← List.append_assoc]
    exact hfresh hpre.1 hruns
  · intro e he
    rcases List.mem_append.1 he with he | he
    · exact hpre.2 e he
    · exact hallowed hruns e he

/-- Ensuring what is declared gives fields that are in effect then, and does not fail for the
depth. -/
theorem Table.meets_schema {t : Table}
    (hallowed : ∀ {caches events outcome caches'}, t.schema.Runs caches events outcome caches' →
      ∀ e ∈ events, allowed e) :
    t.schema.Meets (FreshSince history allowed)
      (fun fields past caches => FreshSince history allowed past caches ∧
        InEffect history past t fields)
      (fun e past caches => FreshSince history allowed past caches ∧ e.tooDeep = false) := by
  have hkeeps : t.schema.Keeps (FreshSince history allowed) :=
    Session.keeps_freshSince (t.keeps_ensure t.declared) hallowed
  constructor
  case given =>
    intro past caches events fields caches' hpre hruns
    have hafter := hkeeps hpre hruns
    refine ⟨hafter, ?_⟩
    obtain ⟨found, kept, hcourse, rfl, hfields⟩ := runs_ensure.1 hruns
    obtain ⟨live, rfl, rfl⟩ := map_eq_ok.1 hfields.symm
    obtain ⟨rfl, _⟩ := hcourse.of_ok
    obtain ⟨columns, hreport, rfl⟩ := hafter.1.lastReport (caches.set_apply _ _)
    exact ⟨past ++ events, [], columns, (List.append_nil _).symm, hreport, rfl⟩
  case failed =>
    intro past caches events e caches' hpre hruns
    refine ⟨hkeeps hpre hruns, ?_⟩
    obtain ⟨found, kept, hcourse, _, hfound⟩ := runs_ensure.1 hruns
    rw [map_eq_error.1 hfound.symm] at hcourse
    obtain ⟨_, hcause⟩ := hcourse.exists_cause
    exact Error.not_tooDeep_of_cause hcause

/-! ## Following references -/

namespace Plan

/-- A planned join follows the reference that it is made for, whatever value it was given by, and is
not deeper than allowed. -/
def FollowsJoin (registry : Registry) (effective : Table → FieldSet → Prop) (depth : Nat)
    (reference : ReferenceJoin) (j : PlannedJoin) : Prop :=
  j.depth ≤ depth ∧ ∀ value, Clause.JoinsReference reference (reference.field, value) →
    j.Follows registry effective reference.field value

/-- A failure of planning a join that may go so deep is one for the depth only where references nest
deeper in each filter that names the reference. -/
def FailsDeep (registry : Registry) (effective : Table → FieldSet → Prop) (depth : Nat)
    (reference : ReferenceJoin) (e : Error) : Prop :=
  e.tooDeep = true → ∀ fields filter value, (reference.field, value) ∈ Clause.references fields filter →
    Clause.JoinsReference reference (reference.field, value) →
      Nests registry effective (depth + 1) fields filter

/-- If each join of a compiled filter follows its reference, all of them follow those of the filter,
in order. -/
theorem meets_joins {fields : FieldSet} {filter : Record} {clause : Clause}
    (hcompile : Clause.compile fields filter = .ok clause) {depth : Nat} {owner : String}
    (hjoin : ∀ reference ∈ clause.joins, (join registry depth owner reference).Meets
      (FreshSince history allowed)
      (fun j past caches => FreshSince history allowed past caches ∧
        FollowsJoin registry (InEffect history past) depth reference j)
      (fun e past caches => FreshSince history allowed past caches ∧
        FailsDeep registry (InEffect history past) depth reference e)) :
    (clause.joins.mapM (join registry depth owner)).Meets (FreshSince history allowed)
      (fun joins past caches => FreshSince history allowed past caches ∧
        PlannedJoin.FollowsAll registry (InEffect history past) joins
          (Clause.references fields filter) ∧ PlannedJoin.depthAll joins ≤ depth)
      (fun e past caches => FreshSince history allowed past caches ∧
        (e.tooDeep = true → Nests registry (InEffect history past) (depth + 1) fields filter)) := by
  have hreferences := Clause.forall₂_joins hcompile
  have hall := Session.Meets.mapM (I := FreshSince history allowed)
    (R := fun reference j past => FollowsJoin registry (InEffect history past) depth reference j)
    (F := fun e past caches => FreshSince history allowed past caches ∧
      (e.tooDeep = true → Nests registry (InEffect history past) (depth + 1) fields filter))
    (fun _ _ past more h => ⟨h.1, fun value hvalue =>
      (h.2 value hvalue).mono fun _ _ heffect => heffect.append more⟩)
    (fun reference hmem => (hjoin reference hmem).mono (fun _ _ h => h) (fun _ _ _ h => h) ?_)
  · refine hall.mono (fun _ _ h => h) (fun joins past caches h => ?_) fun _ _ _ h => h
    obtain ⟨hfresh, hjoins⟩ := h
    refine ⟨hfresh, PlannedJoin.followsAll_iff.2 ?_, PlannedJoin.depthAll_le_iff.2 ?_⟩
    · -- each join is made for the reference at its place
      refine (forall₂_trans hreferences.flip hjoins).imp ?_
      rintro ⟨field, value⟩ j ⟨made, ⟨rfl, hvalue⟩, hfollows⟩
      exact hfollows.2 value ⟨rfl, hvalue⟩
    · intro j hj
      obtain ⟨reference, _, hfollows⟩ := exists_left_of_forall₂ hjoins hj
      exact hfollows.1
  · -- a reference of the compiled filter is named by the filter
    intro e past caches h
    refine ⟨h.1, fun hdeep => ?_⟩
    obtain ⟨value, hnamed, hvalue⟩ := Clause.exists_reference_of_join hcompile hmem
    exact h.2 hdeep fields filter value hnamed ⟨rfl, hvalue⟩

/-- Tables with filters for them, among which are those that the references of a filter lead to. -/
def LeadsOn (registry : Registry) (reached : Table → Record → Prop) : Prop :=
  ∀ ⦃t filter field value target nested⦄, reached t filter →
    (field, value) ∈ Clause.references t.declared filter → registry.target? field = some target →
      (∀ fields, Clause.references fields nested = Clause.references fields value.nested) →
        reached target nested

theorem failsDeep_of_not {effective : Table → FieldSet → Prop} {depth : Nat}
    {reference : ReferenceJoin} {e : Error} (h : e.tooDeep = false) :
    FailsDeep registry effective depth reference e := by
  intro hdeep
  rw [h] at hdeep
  cases hdeep

variable {reached : Table → Record → Prop}

/-- Planning a join along a reference follows it, or fails for the depth only where it is deep. -/
theorem meets_join (hleads : LeadsOn registry reached)
    (hschema : ∀ target filter, reached target filter → ∀ {caches events outcome caches'},
      target.schema.Runs caches events outcome caches' → ∀ e ∈ events, allowed e)
    (depth : Nat) (owner : String) (reference : ReferenceJoin)
    (hreached : ∀ target, registry.target? reference.field = some target →
      reached target reference.filter) :
    (join registry depth owner reference).Meets (FreshSince history allowed)
      (fun j past caches => FreshSince history allowed past caches ∧
        FollowsJoin registry (InEffect history past) depth reference j)
      (fun e past caches => FreshSince history allowed past caches ∧
        FailsDeep registry (InEffect history past) depth reference e) := by
  induction depth generalizing owner reference with
  | zero =>
    refine .ofExcept (x := .error (.joinDepthExceeded owner maxDepth)) ?_ ?_
    · rintro _ ⟨⟩
    · intro e _ past caches hfresh
      exact ⟨hfresh, fun _ fields filter value hkey _ => .key hkey⟩
  | succ depth ih =>
    -- the table
    refine .bind (M := fun _ => FreshSince history allowed)
      (.ofExcept (fun _ _ _ _ hfresh => hfresh) ?_) fun target htarget => ?_
    · intro e he past caches hfresh
      exact ⟨hfresh, failsDeep_of_not (Registry.not_tooDeep_of_resolve he)⟩
    have htarget := Registry.resolve_eq_ok_iff.1 htarget.of_ofExcept
    have htable : reached target reference.filter := hreached target htarget
    -- its fields
    refine .bind ((Table.meets_schema (hschema target _ htable)).mono (fun _ _ h => h)
      (fun _ _ _ h => h) fun e past caches h => ⟨h.1, failsDeep_of_not h.2⟩) fun fields _ => ?_
    refine .bind (M := fun _ past caches => FreshSince history allowed past caches ∧
      InEffect history past target fields) (.ofExcept (fun _ _ _ _ h => h) ?_) fun clause hclause => ?_
    · intro e he past caches h
      exact ⟨h.1, failsDeep_of_not (Error.not_tooDeep_of_refuses (Clause.refuses_of_compile he))⟩
    have hcompile := hclause.of_ofExcept
    -- the references of its filter
    refine .of_entails (p := ∃ columns, fields = (fieldsOfColumns columns).overlay target.declared) ?_ ?_
    · rintro past caches ⟨_, _, _, columns, _, _, hfields⟩
      exact ⟨columns, hfields⟩
    rintro ⟨columns, hfields⟩
    have hbelow : ∀ below ∈ clause.joins, ∀ target', registry.target? below.field = some target' →
        reached target' below.filter := by
      intro below hbelow target' htarget'
      obtain ⟨value, hnamed, hvalue⟩ := Clause.exists_reference_of_join hcompile hbelow
      rw [hfields] at hnamed
      obtain ⟨d, hd, hdtarget⟩ := Clause.exists_declared_reference hnamed htarget'
      exact hleads htable hd hdtarget (Clause.references_of_referenceFilter hvalue)
    have hjoins := meets_joins hcompile fun below hmem => ih target.name below (hbelow below hmem)
    refine .bind ((hjoins.frame (R := fun past => InEffect history past target fields)
      fun past more h => h.append more).mono
      (fun _ _ h => h) (fun _ _ _ h => h) ?_) fun joins _ => ?_
    · rintro e past caches ⟨⟨hfresh, hdeep⟩, heffect⟩
      refine ⟨hfresh, fun htoo fields' filter' value hkey hvalue => ?_⟩
      refine .within hkey htarget heffect ((hdeep htoo).congr ?_)
      exact Clause.references_of_referenceFilter hvalue.2 fields
    · refine .pure fun past caches h => ?_
      obtain ⟨⟨hfresh, hfollows, hdepth⟩, heffect⟩ := h
      refine ⟨hfresh, ?_, fun value hvalue => ?_⟩
      · rw [PlannedJoin.depth]
        omega
      · rw [PlannedJoin.Follows, ← Clause.references_of_referenceFilter hvalue.2]
        exact ⟨rfl, ⟨target, htarget, rfl, heffect⟩, hfollows⟩

/-- Planning a query follows the references of its filter, or fails for the depth only where they
nest deeper. -/
theorem meets_make (hleads : LeadsOn registry reached)
    (hschema : ∀ target filter, reached target filter → ∀ {caches events outcome caches'},
      target.schema.Runs caches events outcome caches' → ∀ e ∈ events, allowed e)
    (table : String) {fields : FieldSet} {filter : Record}
    (hreached : ∀ field value target nested, (field, value) ∈ Clause.references fields filter →
      registry.target? field = some target →
        (∀ fields, Clause.references fields nested = Clause.references fields value.nested) →
          reached target nested) :
    (make registry table fields filter).Meets (FreshSince history allowed)
      (fun plan past caches => FreshSince history allowed past caches ∧
        plan.table = table ∧ plan.fields = fields ∧
        PlannedJoin.FollowsAll registry (InEffect history past) plan.joins
          (Clause.references fields filter) ∧ PlannedJoin.depthAll plan.joins ≤ maxDepth)
      (fun e past caches => FreshSince history allowed past caches ∧
        (e.tooDeep = true → Nests registry (InEffect history past) (maxDepth + 1) fields filter)) := by
  refine .bind (M := fun _ => FreshSince history allowed)
    (.ofExcept (fun _ _ _ _ hfresh => hfresh) ?_) fun clause hclause => ?_
  · intro e he past caches hfresh
    refine ⟨hfresh, fun hdeep => ?_⟩
    rw [Error.not_tooDeep_of_refuses (Clause.refuses_of_compile he)] at hdeep
    cases hdeep
  have hcompile := hclause.of_ofExcept
  refine .bind (meets_joins hcompile fun below hmem => ?_) fun joins _ => ?_
  · refine meets_join hleads hschema maxDepth table below fun target htarget => ?_
    obtain ⟨value, hnamed, hvalue⟩ := Clause.exists_reference_of_join hcompile hmem
    exact hreached _ value target _ hnamed htarget (Clause.references_of_referenceFilter hvalue)
  · exact .pure fun past caches h => ⟨h.1, rfl, rfl, h.2⟩

end Plan

/-! ## How much is sent -/

mutual
/-- How many keys there are in a value, on all levels. Identifiers, and what is in them, do not
count. -/
def Value.keyCount : Value → Nat
  | .record fields => keyCountAll fields
  | _ => 0
/-- How many keys there are in a list of fields. -/
def Value.keyCountAll : List (String × Value) → Nat
  | [] => 0
  | (name, value) :: rest =>
    (if name = idName then 0 else keyCount value + 1) + keyCountAll rest
end

/-- How many keys there are in a filter. -/
def Record.keyCount (filter : Record) : Nat := Value.keyCountAll filter

namespace Clause

/-- A filter has the keys of the references that it names, and those in their values. -/
theorem sum_keyCount_references (fields : FieldSet) (filter : Record) :
    ((references fields filter).map fun r => r.2.keyCount + 1).sum ≤ Record.keyCount filter := by
  induction filter with
  | nil => exact Nat.le_refl 0
  | cons p rest ih =>
    obtain ⟨name, value⟩ := p
    rw [Record.keyCount, Value.keyCountAll]
    change _ ≤ _ + Record.keyCount rest
    unfold references at ih ⊢
    cases hreference : reference? fields name value with
    | none =>
      rw [List.filterMap_cons_none (a := (name, value)) hreference]
      omega
    | some reference =>
      obtain ⟨hid, _, _, hvalue⟩ := reference?_eq_some_iff.1 hreference
      rw [List.filterMap_cons_some (a := (name, value)) hreference, List.map_cons, List.sum_cons,
        if_neg hid, hvalue]
      omega

/-- The filter for the table that a reference refers to has the keys of the value. -/
theorem keyCount_of_referenceFilter {field : FieldSpec} {value : Value} {nested : Record}
    (h : referenceFilter field value = .ok nested) : Record.keyCount nested = value.keyCount := by
  cases referenceFilter_eq_ok_iff.1 h with
  | null => rfl
  | record => rw [Record.keyCount, Value.keyCount]
  | identifier hrecord =>
    cases value with
    | record r => cases hrecord
    | _ => rfl

/-- The same for the joins of a compiled filter, with a cost for each key. -/
theorem sum_keyCount_joins {fields : FieldSet} {filter : Record} {clause : Clause}
    (h : compile fields filter = .ok clause) (cost : Nat) :
    (clause.joins.map fun j => (Record.keyCount j.filter + 1) * cost).sum
      ≤ Record.keyCount filter * cost := by
  have hsum : (clause.joins.map fun j => (Record.keyCount j.filter + 1) * cost).sum
      = ((references fields filter).map fun r => r.2.keyCount + 1).sum * cost := by
    have hall := forall₂_joins h
    generalize clause.joins = joins at hall
    generalize references fields filter = named at hall
    induction hall with
    | nil => simp
    | cons hj _ ih =>
      rw [List.map_cons, List.map_cons, List.sum_cons, List.sum_cons, ih,
        keyCount_of_referenceFilter hj.2, ← Nat.add_mul]
  rw [hsum]
  exact Nat.mul_le_mul_right cost (sum_keyCount_references fields filter)

end Clause

/-- Ensuring what is required sends a statement for each field at most, besides asking before and
after, and creating the table. -/
theorem Migrator.Course.length_le {m : Migrator} {required : FieldSet} {kept kept' : Option Sighting}
    {events : List Event} {outcome : Except Error FieldSet}
    (h : m.Course required kept events outcome kept') : events.length ≤ required.size + 3 := by
  have hinquiry : ∀ {events outcome}, m.Inquiry kept events outcome → events.length ≤ 1 := by
    intro events outcome h
    cases h with
    | kept => exact Nat.zero_le 1
    | asked => exact Nat.le_refl 1
  cases h with
  | unknown h =>
    have := hinquiry h
    omega
  | provided h =>
    have := hinquiry h
    omega
  | @changed first seen h _ changes hchanges reply =>
    have hfirst := hinquiry h
    have hlength : changes.length ≤ required.size + 1 := by
      rw [← List.length_map Change.request, hchanges]
      obtain ⟨_ | _, fields⟩ := seen
      · exact Nat.le_add_left 1 _
      · rw [changeRequests, List.length_map]
        exact Nat.le_succ_of_le (List.length_filter_le _ _)
    rw [List.length_append, List.length_append, List.length_map, List.length_singleton]
    omega

theorem Table.sendsAtMost_schema (t : Table) : t.schema.SendsAtMost (t.declared.size + 3) := by
  intro caches events outcome caches' hruns
  obtain ⟨_, _, hcourse, _, _⟩ := runs_ensure.1 hruns
  exact hcourse.length_le

namespace Plan

/-- Planning a join makes sure of one table for each reference that is followed. -/
theorem sendsAtMost_join {n : Nat} (hn : ∀ t ∈ registry.tables, t.declared.size ≤ n) (depth : Nat)
    (owner : String) (reference : ReferenceJoin) :
    (join registry depth owner reference).SendsAtMost
      ((Record.keyCount reference.filter + 1) * (n + 3)) := by
  induction depth generalizing owner reference with
  | zero =>
    have hthrow := Session.SendsAtMost.ofExcept (α := PlannedJoin)
      (.error (.joinDepthExceeded owner maxDepth))
    exact hthrow.mono (Nat.zero_le _)
  | succ depth ih =>
    have hcost : (Record.keyCount reference.filter + 1) * (n + 3)
        = 0 + ((n + 3) + (0 + (Record.keyCount reference.filter * (n + 3) + 0))) := by
      rw [Nat.add_mul]
      omega
    rw [hcost]
    refine .bind (.ofExcept _) fun target htarget => ?_
    refine .bind (target.sendsAtMost_schema.mono ?_) fun fields _ => ?_
    · have hsize := hn target (mem_of_resolve htarget.of_ofExcept)
      omega
    refine .bind (.ofExcept _) fun clause hclause => ?_
    have hjoins := Session.SendsAtMost.mapM fun below (_ : below ∈ clause.joins) =>
      ih target.name below
    refine .bind (hjoins.mono ?_) fun joins _ => .ofExcept (.ok _)
    exact Clause.sum_keyCount_joins hclause.of_ofExcept (n + 3)

theorem sendsAtMost_make {n : Nat} (hn : ∀ t ∈ registry.tables, t.declared.size ≤ n)
    (table : String) (fields : FieldSet) (filter : Record) :
    (make registry table fields filter).SendsAtMost (Record.keyCount filter * (n + 3)) := by
  rw [← Nat.zero_add (Record.keyCount filter * (n + 3)),
    ← Nat.add_zero (Record.keyCount filter * (n + 3))]
  refine .bind (.ofExcept _) fun clause hclause => ?_
  have hjoins := Session.SendsAtMost.mapM fun below (_ : below ∈ clause.joins) =>
    sendsAtMost_join hn maxDepth table below
  refine .bind (hjoins.mono ?_) fun joins _ => .ofExcept (.ok _)
  exact Clause.sum_keyCount_joins hclause.of_ofExcept (n + 3)

/-! ## What planning comes to -/

/-- Whether planning has given up for the depth. -/
def gaveUp : Except Error Plan → Bool
  | .ok _ => false
  | .error e => e.tooDeep

/-- What planning a query has come to, after a history and further events. -/
structure Bounded (history events : List Event) (registry : Registry) (table : String)
    (fields : FieldSet) (filter : Record) (outcome : Except Error Plan) : Prop where
  /-- Few statements are sent for each key of the filter. -/
  sent : ∀ n, (∀ t ∈ registry.tables, t.declared.size ≤ n) →
    events.length ≤ Record.keyCount filter * (n + 3)
  /-- A plan has one join for each key that names a reference, on all levels and in order, with the
  fields that are in effect there, and is not too deep. -/
  followed : ∀ plan, outcome = .ok plan → plan.table = table ∧ plan.fields = fields ∧
    PlannedJoin.FollowsAll registry (InEffect history events) plan.joins
      (Clause.references fields filter) ∧
    PlannedJoin.depthAll plan.joins ≤ maxDepth
  /-- Planning gives up for the depth only where references nest too deep. -/
  deep : gaveUp outcome = true →
    Nests registry (InEffect history events) (maxDepth + 1) fields filter
  /-- Where declared references nest too deep there is no plan. -/
  refused : Nests registry Table.Declares (maxDepth + 1) fields filter → ∀ plan, outcome ≠ .ok plan

/-- Planning ends on all replies, however the tables refer to each other, and follows the references
of the filter, as long as they do not nest too deep. -/
theorem bounded_of_runs_make {operations : List Operation} {history : List Event} {caches : Caches}
    (hhistory : History operations history caches) (registry : Registry) (table : String)
    (fields : FieldSet) (filter : Record) :
    (∀ replies, ∃ outcome caches', (make registry table fields filter).Runs caches
        (Dialogue.events ((make registry table fields filter).run caches) replies) outcome caches') ∧
      ∀ events outcome caches', (make registry table fields filter).Runs caches events outcome
        caches' → Bounded history events registry table fields filter outcome := by
  refine ⟨fun replies => ⟨_, _, Session.runs_play _ caches replies⟩, ?_⟩
  intro events outcome caches' hruns
  -- no table is ruled out here, and no event
  have hleads : LeadsOn registry fun _ _ => True := fun _ _ _ _ _ _ _ _ _ _ => trivial
  have hmeets : (make registry table fields filter).Meets (FreshSince history fun _ => True) _ _ :=
    meets_make hleads (fun _ _ _ _ _ _ _ _ _ _ => trivial) table fun _ _ _ _ _ _ _ => trivial
  have hfresh : FreshSince history (fun _ => True) [] caches :=
    ⟨by rw [List.append_nil]; exact hhistory.fresh, fun _ _ => trivial⟩
  have hplan : ∀ plan, outcome = .ok plan → plan.table = table ∧ plan.fields = fields ∧
      PlannedJoin.FollowsAll registry (InEffect history events) plan.joins
        (Clause.references fields filter) ∧ PlannedJoin.depthAll plan.joins ≤ maxDepth := by
    rintro plan rfl
    exact (hmeets.given hfresh hruns).2
  refine ⟨fun n hn => sendsAtMost_make hn table fields filter hruns, hplan, ?_, ?_⟩
  · intro hdeep
    rcases outcome with e | plan
    · exact (hmeets.failed hfresh hruns).2 hdeep
    · cases hdeep
  · -- the joins of a plan would be as deep as the references
    intro hnests plan hok
    obtain ⟨_, _, hfollows, hdepth⟩ := hplan plan hok
    have hle := PlannedJoin.le_depthAll_of_nests (fun _ _ h => h.extends) hnests (.refl fields)
      hfollows
    omega

/-- A table of nodes, each of which refers to the next one. -/
def nodes : Table :=
  ⟨0, "nodes", ⟨[{ name := "next", type := .reference, target := some "nodes" }], by decide⟩⟩

/-- What the engine replies where the nodes have the column that is declared for them. -/
def nodesReplies : List Reply :=
  [.rows ([⟨idName, "INTEGER", true⟩, ⟨"next::reference", "INTEGER", false⟩].map ColumnInfo.row)]

/-- A filter that asks for so many nodes in a row. -/
def nextFilter : Nat → Record
  | 0 => []
  | n + 1 => [("next", .record (nextFilter n))]

/-- Planning to find the nodes with so many after them. -/
def planNodes (n : Nat) : Session Plan := make ⟨[nodes]⟩ "nodes" nodes.declared (nextFilter n)

theorem bounded_of_runs_make_nodes :
    (∃ plan, ((planNodes 16).play (fun _ => none) nodesReplies).result.1 = .ok plan ∧
        PlannedJoin.FollowsAll ⟨[nodes]⟩
          (InEffect [] (Dialogue.events ((planNodes 16).run fun _ => none) nodesReplies)) plan.joins
          (Clause.references nodes.declared (nextFilter 16))) ∧
      ((planNodes 17).play (fun _ => none) nodesReplies).result.1.toOption.isNone = true ∧
        Nests ⟨[nodes]⟩
          (InEffect [] (Dialogue.events ((planNodes 17).run fun _ => none) nodesReplies)) 17
          nodes.declared (nextFilter 17) := by
  have hbounded : ∀ n, Bounded [] (Dialogue.events ((planNodes n).run fun _ => none) nodesReplies)
      ⟨[nodes]⟩ "nodes" nodes.declared (nextFilter n)
      ((planNodes n).play (fun _ => none) nodesReplies).result.1 := by
    intro n
    have hruns := Session.runs_play (planNodes n) (fun _ => none) nodesReplies
    exact (bounded_of_runs_make .nil ⟨[nodes]⟩ "nodes" nodes.declared (nextFilter n)).2 _ _ _ hruns
  constructor
  · have hok : ((planNodes 16).play (fun _ => none) nodesReplies).result.1.toOption.isSome = true := by
      decide +kernel
    rcases hresult : ((planNodes 16).play (fun _ => none) nodesReplies).result.1 with e | plan
    · rw [hresult] at hok
      cases hok
    · obtain ⟨_, _, hfollows, _⟩ := (hbounded 16).followed plan hresult
      exact ⟨plan, rfl, hfollows⟩
  · exact ⟨by decide +kernel, (hbounded 17).deep (by decide +kernel)⟩

/-- A reference field that has the name of the identifier. -/
def idReference : FieldSpec := { name := idName, type := .reference, target := some "nodes" }

/-- The name of the identifier means the identifier in a filter, even where a reference to a
registered table has this name: such a reference is not followed. -/
theorem joins_eq_nil_of_idReference :
    let fields : FieldSet := ⟨[idReference], by decide⟩
    let filter : Record := [(idName, .integer 7)]
    Registry.target? ⟨[nodes]⟩ idReference = some nodes ∧
      (filter.filter fun p => (fields.get? p.1).any (·.type = .reference)).length = 1 ∧
      ∃ plan, (make ⟨[nodes]⟩ "edges" fields filter).Runs (fun _ => none) [] (.ok plan)
          (fun _ => none) ∧ plan.joins.length = 0 := by
  refine ⟨rfl, rfl, ?_⟩
  exact ⟨⟨"edges", _, [.equal none idName (.bigInt (some 7))], []⟩, .done _, rfl⟩

end Plan

end RecordMapping

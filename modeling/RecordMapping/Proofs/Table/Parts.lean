import RecordMapping.Proofs.Session.Trace
import RecordMapping.Table.Gateway

/-!
# The parts of operations

Operations that give lists go one way: they look for fields, make a statement with them, and read
each row that is replied to it (`Table.listing`). Writes go another one: they ensure fields and store
the values of a record in them (`Table.prepare`), and then send the statement for the row. What holds
of these parts and is closed under going from one to the next holds of the operations.
-/

namespace RecordMapping

open Session (Closed)

variable {P : ∀ {α : Type}, Session α → Prop}

namespace Table

variable {t : Table}

/-! ## Looking for fields -/

theorem live_eq (t : Table) :
    t.live = if t.declared.isEmpty then t.known else discard t.schema >>= fun _ => t.known := by
  unfold live
  cases t.declared.isEmpty <;> rfl

theorem closed_ensure (hP : Closed P) {required : FieldSet}
    (hensure : P (t.migrator.ensure required)) : P (t.ensure required) :=
  hP.bind hensure fun _ _ => hP.pure _

theorem closed_live (hP : Closed P) (hensure : P (t.ensure t.declared))
    (hcurrent : P t.migrator.current) : P t.live := by
  have hknown : P t.known := hP.bind hcurrent fun _ _ => hP.pure _
  rw [live_eq]
  split
  · exact hknown
  · exact hP.bind (hP.map hensure _) fun _ _ => hknown

end Table

namespace Plan

variable {registry : Registry}

theorem mem_of_resolve {owner : String} {field : FieldSpec} {target : Table}
    (h : registry.resolve owner field = .ok target) : target ∈ registry.tables := by
  unfold Registry.resolve at h
  split at h
  · next hfound =>
    cases h
    obtain ⟨name, _, hget⟩ := Option.bind_eq_some_iff.1 hfound
    exact List.mem_of_find?_eq_some hget
  · cases h

/-- Planning ensures what is declared for registered tables, on all levels. -/
theorem closed_join (hP : Closed P)
    (hensure : ∀ target ∈ registry.tables, P (target.ensure target.declared)) (depth : Nat)
    (owner : String) (reference : ReferenceJoin) : P (join registry depth owner reference) := by
  induction depth generalizing owner reference with
  | zero => exact hP.throw _
  | succ depth ih =>
    refine hP.bind (hP.ofExcept _) fun target htarget => ?_
    refine hP.bind (hensure target (mem_of_resolve htarget.of_ofExcept)) fun fields _ => ?_
    refine hP.bind (hP.ofExcept _) fun clause _ => ?_
    refine hP.bind (hP.mapM fun reference _ => ih target.name reference) fun joins _ => ?_
    exact hP.pure _

theorem closed_make (hP : Closed P)
    (hensure : ∀ target ∈ registry.tables, P (target.ensure target.declared)) (table : String)
    (fields : FieldSet) (filter : Record) : P (make registry table fields filter) := by
  refine hP.bind (hP.ofExcept _) fun clause _ => ?_
  refine hP.bind (hP.mapM fun reference _ => ?_) fun joins _ => hP.pure _
  exact closed_join hP hensure maxDepth table reference

end Plan

namespace Table

variable {t : Table}

/-! ## Lists -/

theorem closed_listing (hP : Closed P) {lookup : Session (Option FieldSet)}
    {plan : FieldSet → Session (Statement × List Embedded)} (hlookup : P lookup)
    (hplan : ∀ fields, P (plan fields))
    (hrows : ∀ fields planned, (plan fields).Gives planned →
      P (Session.rows t.handle planned.1)) : P (t.listing lookup plan) := by
  refine hP.bind hlookup fun live _ => ?_
  cases live with
  | none => exact hP.pure []
  | some fields =>
    refine hP.bind (hplan fields) fun planned hplanned => ?_
    exact hP.bind (hrows fields planned hplanned) fun rows _ => hP.ofExcept _

theorem closed_findPlan (hP : Closed P) (filter : Record) (fields : FieldSet) :
    P (t.findPlan filter fields) := by
  refine hP.bind (hP.ofExcept _) fun clause _ => ?_
  exact hP.bind (hP.ofExcept _) fun references _ => hP.pure _

theorem closed_relatedPlan (hP : Closed P) {registry : Registry}
    (hensure : ∀ target ∈ registry.tables, P (target.ensure target.declared)) (filter : Record)
    (fields : FieldSet) : P (t.relatedPlan registry filter fields) := by
  have hmake := Plan.closed_make hP hensure t.name fields filter
  refine hP.bind (hP.bind hmake fun plan _ => ?_) fun relational _ => hP.pure _
  exact hP.pure plan.query

/-- Finding records selects them, without objects in the rows. -/
theorem of_gives_findPlan {filter : Record} {fields : FieldSet}
    {planned : Statement × List Embedded} (h : (t.findPlan filter fields).Gives planned) :
    ∃ select, planned = (.select select, []) := by
  obtain ⟨_, _, h⟩ := h.of_bind
  obtain ⟨_, _, h⟩ := h.of_bind
  exact ⟨_, Session.gives_pure.1 h⟩

/-- Finding records with those that they refer to selects what a plan is made for. -/
theorem of_gives_relatedPlan {registry : Registry} {filter : Record} {fields : FieldSet}
    {planned : Statement × List Embedded}
    (h : (t.relatedPlan registry filter fields).Gives planned) :
    ∃ plan, (Plan.make registry t.name fields filter).Gives plan ∧
      planned = (.select plan.select, plan.query.embedded) := by
  obtain ⟨_, hquery, h⟩ := h.of_bind
  obtain ⟨plan, hmake, hquery⟩ := hquery.of_bind
  cases Session.gives_pure.1 hquery
  exact ⟨plan, hmake, Session.gives_pure.1 h⟩

theorem closed_find (hP : Closed P) (hlive : P t.live)
    (hselect : ∀ select, P (Session.rows t.handle (.select select))) (filter : Record) :
    P (t.find filter) := by
  rw [find]
  refine closed_listing hP hlive (closed_findPlan hP filter) fun fields planned hplanned => ?_
  obtain ⟨select, rfl⟩ := of_gives_findPlan hplanned
  exact hselect select

theorem closed_findRelated (hP : Closed P) (hlive : P t.live)
    (hselect : ∀ select, P (Session.rows t.handle (.select select))) {registry : Registry}
    (hensure : ∀ target ∈ registry.tables, P (target.ensure target.declared)) (filter : Record) :
    P (t.findRelated registry filter) := by
  rw [findRelated]
  refine closed_listing hP hlive (closed_relatedPlan hP hensure filter) ?_
  intro fields planned hplanned
  obtain ⟨plan, _, rfl⟩ := of_gives_relatedPlan hplanned
  exact hselect plan.select

theorem closed_runSql (hP : Closed P) (hschema : P t.schema) {sql : String} {params : List Datum}
    (hcustom : P (Session.rows t.handle (.custom sql params))) : P (t.runSql sql params) := by
  rw [runSql]
  refine closed_listing hP (hP.map hschema _) (fun _ => hP.pure _) fun fields planned hplanned => ?_
  rw [Session.gives_pure.1 hplanned]
  exact hcustom

/-! ## Single rows -/

theorem closed_findRow (hP : Closed P) (hlive : P t.live)
    (hselect : ∀ select, P (Session.rows t.handle (.select select))) (id : Int64) :
    P (t.findRow id) := by
  refine hP.bind hlive fun live _ => ?_
  cases live with
  | none => exact hP.pure none
  | some fields => exact hP.bind (hselect _) fun rows _ => hP.ofExcept _

theorem closed_findById (hP : Closed P) (hrow : ∀ n, P (t.findRow n)) (id : Value) :
    P (t.findById id) := by
  unfold findById
  cases id.lookupId? with
  | none => exact hP.pure none
  | some n => exact hrow n

/-! ## Writes -/

theorem update_eq {id : Value} {n : Int64} (hid : id.lookupId? = some n) (changes : Record) :
    t.update id changes = t.prepare changes >>= fun p => t.updateRow n p.1 p.2 := by
  simp only [update, hid]

/-- Without an identifier an update does nothing. -/
theorem update_eq_pure {id : Value} (hid : id.lookupId? = none) (changes : Record) :
    t.update id changes = pure none := by
  simp only [update, hid]

theorem closed_prepare (hP : Closed P) {record : Record}
    (hensure : ∀ required, t.requiredFor record = .ok required → P (t.ensure required)) :
    P (t.prepare record) := by
  refine hP.bind (hP.ofExcept _) fun required hrequired => ?_
  refine hP.bind (hensure required hrequired.of_ofExcept) fun fields _ => ?_
  exact hP.bind (hP.ofExcept _) fun values _ => hP.pure _

theorem closed_insert (hP : Closed P) {record : Record}
    (hensure : ∀ required, t.requiredFor record = .ok required → P (t.ensure required))
    (hinsert : ∀ insert, P (Session.rows t.handle (.insert insert))) : P (t.insert record) := by
  rw [insert]
  refine hP.bind (closed_prepare hP hensure) fun p _ => ?_
  exact hP.bind (hinsert _) fun rows _ => hP.ofExcept _

theorem closed_updateRow (hP : Closed P) {id : Int64} {fields : FieldSet} {values : Named Param}
    (hrow : values = [] → P (t.findRow id))
    (hupdate : ∀ update, P (Session.rows t.handle (.update update))) :
    P (t.updateRow id fields values) := by
  cases values with
  | nil => exact hrow rfl
  | cons v rest => exact hP.bind (hupdate _) fun rows _ => hP.ofExcept _

theorem closed_update (hP : Closed P) {changes : Record}
    (hensure : ∀ required, t.requiredFor changes = .ok required → P (t.ensure required))
    (hrow : ∀ n, P (t.findRow n)) (hupdate : ∀ update, P (Session.rows t.handle (.update update)))
    (id : Value) : P (t.update id changes) := by
  rcases hid : id.lookupId? with _ | n
  · rw [update_eq_pure hid]
    exact hP.pure none
  · rw [update_eq hid]
    refine hP.bind (closed_prepare hP hensure) fun p _ => ?_
    exact closed_updateRow hP (fun _ => hrow n) hupdate

end Table

end RecordMapping

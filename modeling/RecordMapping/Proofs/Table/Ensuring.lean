import RecordMapping.Proofs.Results
import RecordMapping.Proofs.Schema.Course
import RecordMapping.Proofs.Table.Freshness

/-!
# What a table goes through before its rows

An operation ensures fields or looks for them, and only then sends a statement on rows. What it sends
until then is on schemas, in the names of tables. What it finds is what ensuring or looking gives,
with the declared fields laid over it (`Table.runs_ensure`, `Table.runs_live`).
-/

namespace RecordMapping

/-! ## What is sent -/

/-- Whether a statement that was sent is on a schema. -/
def Sent.IsSchema (sent : Sent) : Prop := sent.request.statement.isSchema = true

theorem Dialogue.Sends.mono {α : Type} {p q : Sent → Prop} (hpq : ∀ sent, p sent → q sent)
    {d : Dialogue α} (h : d.Sends p) : d.Sends q := by
  induction d with
  | done a => trivial
  | fetch request next ih => exact ⟨hpq _ h.1, fun reply => ih reply (h.2 reply)⟩
  | execute request next ih => exact ⟨hpq _ h.1, fun reply => ih reply (h.2 reply)⟩

theorem Migrator.Own.isSchema {m : Migrator} {sent : Sent} (h : m.Own sent) : sent.IsSchema := by
  cases sent with
  | fetch request =>
    obtain rfl : request = columnsRequest m.handle m.table := h
    rfl
  | execute request => rcases h with ⟨_, rfl⟩ | ⟨_, rfl⟩ <;> rfl

namespace Session

/-- What is replied to a statement is not among what was sent on schemas. -/
theorem notMem_of_sends_schema {α : Type} {s : Session α} (h : s.Sends Sent.IsSchema) {caches caches' : Caches}
    {events : List Event} {outcome : Except Error α} (hruns : s.Runs caches events outcome caches')
    {e : Event} (he : e.sent.request.statement.isSchema = false) : e ∉ events := by
  intro hmem
  have hschema : e.sent.request.statement.isSchema = true := (h caches).of_runs hruns e hmem
  rw [he] at hschema
  cases hschema

end Session

namespace Table

theorem sends_ensure (t : Table) (required : FieldSet) :
    (t.ensure required).Sends Sent.IsSchema := by
  refine closed_ensure (Session.closed_sends _) fun caches => ?_
  exact (t.migrator.sends_ensure required caches).mono fun _ => Migrator.Own.isSchema

theorem sends_live (t : Table) : t.live.Sends Sent.IsSchema := by
  refine closed_live (Session.closed_sends _) (t.sends_ensure t.declared) fun caches => ?_
  exact (t.migrator.sends_current caches).mono fun _ => Migrator.Own.isSchema

theorem sends_findPlan (t : Table) (filter : Record) (fields : FieldSet) :
    (t.findPlan filter fields).Sends Sent.IsSchema :=
  closed_findPlan (Session.closed_sends _) filter fields

theorem sends_relatedPlan (t : Table) (registry : Registry) (filter : Record) (fields : FieldSet) :
    (t.relatedPlan registry filter fields).Sends Sent.IsSchema :=
  closed_relatedPlan (Session.closed_sends _) (fun target _ => target.sends_ensure _) filter fields

theorem sends_prepare (t : Table) (record : Record) : (t.prepare record).Sends Sent.IsSchema :=
  closed_prepare (Session.closed_sends _) fun required _ => t.sends_ensure required

end Table

/-! ## What is found -/

namespace Table

variable {t : Table} {caches caches' : Caches} {events : List Event}

/-- Ensuring fields of a table runs the course of its migrator, and lays the declared fields over
what this gives. -/
theorem runs_ensure {required : FieldSet} {outcome : Except Error FieldSet} :
    (t.ensure required).Runs caches events outcome caches' ↔
      ∃ found kept, t.migrator.Course required (caches t.handle) events found kept ∧
        caches' = caches.set t.handle kept ∧ outcome = found.map (·.overlay t.declared) := by
  unfold ensure
  rw [Session.runs_bind_pure]
  constructor
  · rintro ⟨found, rfl, hfound⟩
    obtain ⟨kept, rfl, hcourse⟩ := Migrator.runs_ensure.1 hfound
    exact ⟨found, kept, hcourse, rfl, rfl⟩
  · rintro ⟨found, kept, hcourse, rfl, rfl⟩
    exact ⟨found, rfl, Migrator.runs_ensure.2 ⟨kept, rfl, hcourse⟩⟩

/-- Looking for the fields of a table is an inquiry of its migrator. Where fields are declared they
are ensured first, and then what is kept is not asked for again. -/
theorem runs_live {outcome : Except Error (Option FieldSet)}
    (h : t.live.Runs caches events outcome caches') :
    (t.declared.isEmpty = true ∧ ∃ found, t.migrator.Inquiry (caches t.handle) events found ∧
        caches' = caches.set t.handle (Migrator.keptAfter (caches t.handle) found) ∧
        outcome = found.map fun seen => seen.fields?.map (·.overlay t.declared)) ∨
      (t.declared.isEmpty = false ∧ ∃ found kept,
        t.migrator.Course t.declared (caches t.handle) events found kept ∧
          caches' = caches.set t.handle kept ∧
          outcome = found.map fun fields => some (fields.overlay t.declared)) := by
  have hknown : ∀ {caches events outcome caches'}, t.known.Runs caches events outcome caches' →
      ∃ found, t.migrator.Inquiry (caches t.handle) events found ∧
        caches' = caches.set t.handle (Migrator.keptAfter (caches t.handle) found) ∧
        outcome = found.map fun seen => seen.fields?.map (·.overlay t.declared) := by
    intro caches events outcome caches' h
    obtain ⟨result, rfl, hresult⟩ := Session.runs_bind_pure.1 h
    obtain ⟨found, hinquiry, rfl, rfl⟩ := Migrator.runs_current.1 hresult
    exact ⟨found, hinquiry, rfl, by cases found <;> rfl⟩
  rw [live_eq] at h
  cases hdeclared : t.declared.isEmpty with
  | true =>
    rw [if_pos hdeclared] at h
    exact .inl ⟨rfl, hknown h⟩
  | false =>
    rw [if_neg (by simp [hdeclared])] at h
    refine .inr ⟨rfl, ?_⟩
    rcases Session.runs_bind.1 h with
      ⟨e, rfl, hschema⟩ | ⟨first, _, between, rest, rfl, hschema, hrest⟩
    · obtain ⟨result, hresult, hschema⟩ := Session.runs_discard.1 hschema
      obtain ⟨found, kept, hcourse, rfl, rfl⟩ := runs_ensure.1 hschema
      cases found with
      | error e' =>
        cases hresult
        exact ⟨_, kept, hcourse, rfl, rfl⟩
      | ok fields => cases hresult
    · obtain ⟨result, hresult, hschema⟩ := Session.runs_discard.1 hschema
      obtain ⟨found, kept, hcourse, rfl, rfl⟩ := runs_ensure.1 hschema
      cases found with
      | error e' => cases hresult
      | ok fields =>
        -- what was ensured is kept, so that the inquiry sends nothing
        obtain ⟨rfl, _⟩ := hcourse.of_ok
        obtain ⟨found, hinquiry, rfl, rfl⟩ := hknown hrest
        rw [Caches.set_apply] at hinquiry ⊢
        cases hinquiry with
        | kept =>
          rw [List.append_nil]
          exact ⟨.ok fields, some ⟨true, fields⟩, hcourse, Caches.set_set _ _ _ _, rfl⟩

/-- Where a table is kept that has all that is declared, its fields are found and nothing is
sent. -/
theorem runs_live_of_kept {live : FieldSet} (hkept : caches t.handle = some ⟨true, live⟩)
    (hdeclared : t.declared.names ⊆ live.names) {outcome : Except Error (Option FieldSet)}
    (h : t.live.Runs caches events outcome caches') :
    events = [] ∧ outcome = .ok (some (live.overlay t.declared)) ∧ caches' = caches := by
  have hset : caches.set t.handle (some ⟨true, live⟩) = caches := hkept ▸ caches.set_self t.handle
  rcases runs_live h with ⟨_, found, hinquiry, rfl, rfl⟩ | ⟨_, found, kept, hcourse, rfl, rfl⟩
  · rw [hkept] at hinquiry ⊢
    cases hinquiry with
    | kept => exact ⟨rfl, rfl, hset⟩
  · rw [hkept] at hcourse
    obtain ⟨rfl, rfl, rfl⟩ := (Migrator.course_of_kept hdeclared).1 hcourse
    exact ⟨rfl, rfl, hset⟩

/-- The fields that reading works with are those of the table that is kept from then on, with what is
declared laid over them. -/
theorem kept_of_runs_live {fields : FieldSet}
    (h : t.live.Runs caches events (.ok (some fields)) caches') :
    ∃ live, caches' t.handle = some ⟨true, live⟩ ∧ fields = live.overlay t.declared := by
  rcases runs_live h with ⟨_, found, hinquiry, rfl, hfields⟩ | ⟨_, found, kept, hcourse, rfl, hfields⟩
  · obtain ⟨⟨_ | _, live⟩, rfl, hlive⟩ := map_eq_ok.1 hfields.symm
    · cases hlive
    · cases hlive
      exact ⟨live, (Caches.set_apply _ _ _).trans hinquiry.keptAfter_present, rfl⟩
  · obtain ⟨live, rfl, hlive⟩ := map_eq_ok.1 hfields.symm
    cases hlive
    exact ⟨live, (Caches.set_apply _ _ _).trans hcourse.of_ok.1, rfl⟩

end Table

end RecordMapping

import RecordMapping.Proofs.Field.Set
import RecordMapping.Proofs.Results
import RecordMapping.Proofs.Schema.Engine

/-!
# The course of ensuring fields

What ensuring the fields of a table sends, statement by statement, and what it makes of the replies
(`Migrator.Course`). Nothing is assumed of the engine: each statement may get any reply. The course
depends on what is kept for the table, on what is required of it, and on the replies, and on nothing
else (`Migrator.runs_ensure`).
-/

namespace RecordMapping

/-! ## Changes -/

/-- A request to change a table, with the reply to it. -/
structure Change where
  request : Request
  reply : Except EngineError Unit

namespace Change

/-- The change as an event of a run. -/
def event (c : Change) : Event := .executed c.request c.reply

/-- The failure of a change, with its statement. -/
def failure? (c : Change) : Option EngineError :=
  match c.reply with
  | .ok () => none
  | .error e => some (e.within ("failed to execute: " ++ c.request.query.sql))

end Change

theorem runs_alter_iff {request : Request} {events : List Event} {failure : Option EngineError} :
    (alter request).Runs events failure ↔
      ∃ c : Change, c.request = request ∧ events = [c.event] ∧ failure = c.failure? := by
  have halter : alter request
      = .execute request fun reply => .done (Change.failure? ⟨request, reply⟩) := by
    unfold alter
    congr 1
    funext reply
    cases reply <;> rfl
  rw [halter, Dialogue.runs_execute]
  constructor
  · rintro ⟨reply, rest, rfl, h⟩
    obtain ⟨rfl, rfl⟩ := Dialogue.runs_done.1 h
    exact ⟨⟨request, reply⟩, rfl, rfl, rfl⟩
  · rintro ⟨c, rfl, rfl, rfl⟩
    exact ⟨c.reply, [], rfl, .done _⟩

/-- Adding columns sends one request for each field, in order and whatever the replies are, and
gives the first failure. -/
theorem runs_addColumns_iff {sender : Handle} {table : String} {specs : List FieldSpec}
    {events : List Event} {failure : Option EngineError} :
    (addColumns sender table specs).Runs events failure ↔
      ∃ changes : List Change,
        changes.map Change.request = specs.map (additionRequest sender table) ∧
        events = changes.map Change.event ∧ failure = changes.findSome? Change.failure? := by
  induction specs generalizing events failure with
  | nil =>
    rw [addColumns, Dialogue.runs_done]
    constructor
    · rintro ⟨rfl, rfl⟩
      exact ⟨[], rfl, rfl, rfl⟩
    · rintro ⟨changes, hrequests, rfl, rfl⟩
      obtain rfl := List.map_eq_nil_iff.1 hrequests
      exact ⟨rfl, rfl⟩
  | cons field rest ih =>
    rw [addColumns, addColumn_eq, Dialogue.runs_bind]
    constructor
    · rintro ⟨first, failure₁, others, rfl, hfirst, hothers⟩
      obtain ⟨c, hc, rfl, rfl⟩ := runs_alter_iff.1 hfirst
      obtain ⟨second, later, last, rfl, hsecond, hlast⟩ := Dialogue.runs_bind.1 hothers
      obtain ⟨changes, hchanges, rfl, rfl⟩ := ih.1 hsecond
      obtain ⟨rfl, rfl⟩ := Dialogue.runs_done.1 hlast
      refine ⟨c :: changes, ?_, by simp, ?_⟩
      · rw [List.map_cons, List.map_cons, hc, hchanges]
      · rw [List.findSome?_cons]
        cases c.failure? <;> rfl
    · rintro ⟨changes, hrequests, rfl, rfl⟩
      obtain ⟨c, changes, rfl, hc, hchanges⟩ := List.map_eq_cons_iff.1 hrequests
      refine ⟨[c.event], c.failure?, changes.map Change.event, rfl,
        runs_alter_iff.2 ⟨c, hc, rfl, rfl⟩, ?_⟩
      refine Dialogue.runs_bind.2 ⟨_, changes.findSome? Change.failure?, [],
        (List.append_nil _).symm, ih.2 ⟨changes, hchanges, rfl, rfl⟩, ?_⟩
      refine Dialogue.runs_done.2 ⟨rfl, ?_⟩
      rw [List.findSome?_cons]
      cases c.failure? <;> rfl

namespace Migrator

variable {m : Migrator} {required : FieldSet}

/-! ## Finding out -/

/-- Finding out what the table is, if this is kept of it: what is kept is taken as it is, and
otherwise one request asks for the columns. -/
inductive Inquiry (m : Migrator) : Option Sighting → List Event → Except Error Sighting → Prop where
  | kept (seen : Sighting) : Inquiry m (some seen) [] (.ok seen)
  | asked (reply : Except EngineError (List Row)) :
      Inquiry m none [.fetched (columnsRequest m.handle m.table) reply] (reported m.table reply)

/-- Looking at a table is an inquiry, and what it finds is kept. -/
theorem runs_look {caches caches' : Caches} {events : List Event} {found : Except Error Sighting} :
    m.look.Runs caches events found caches' ↔
      m.Inquiry (caches m.handle) events found ∧
        caches' = caches.set m.handle (keptAfter (caches m.handle) found) := by
  unfold Session.Runs
  cases hkept : caches m.handle with
  | some seen =>
    have hset : caches.set m.handle (some seen) = caches := hkept ▸ caches.set_self m.handle
    rw [run_look_of_some hkept, Dialogue.runs_done, Prod.mk.injEq]
    constructor
    · rintro ⟨rfl, rfl, rfl⟩
      exact ⟨.kept seen, hset.symm⟩
    · rintro ⟨hinquiry, rfl⟩
      cases hinquiry with
      | kept => exact ⟨rfl, rfl, hset⟩
  | none =>
    rw [run_look_of_none hkept, Dialogue.runs_fetch]
    constructor
    · rintro ⟨reply, rest, rfl, h⟩
      obtain ⟨rfl, h⟩ := Dialogue.runs_done.1 h
      cases h
      exact ⟨.asked reply, rfl⟩
    · rintro ⟨hinquiry, rfl⟩
      cases hinquiry with
      | asked reply => exact ⟨reply, [], rfl, .done _⟩

theorem runs_current {caches caches' : Caches} {events : List Event}
    {outcome : Except Error (Option FieldSet)} :
    m.current.Runs caches events outcome caches' ↔
      ∃ found, m.Inquiry (caches m.handle) events found ∧
        caches' = caches.set m.handle (keptAfter (caches m.handle) found) ∧
        outcome = found.map Sighting.fields? := by
  unfold current
  rw [Session.runs_bind_pure]
  simp only [runs_look]
  constructor
  · rintro ⟨found, rfl, hinquiry, rfl⟩
    exact ⟨found, hinquiry, rfl, rfl⟩
  · rintro ⟨found, hinquiry, rfl, rfl⟩
    exact ⟨found, rfl, hinquiry, rfl⟩

/-- A table that could not be looked at is one of which nothing is kept. -/
theorem Inquiry.keptAfter_error {kept : Option Sighting} {events : List Event} {e : Error}
    (h : m.Inquiry kept events (.error e)) : keptAfter kept (.error e) = none := by
  generalize hfound : (Except.error e : Except Error Sighting) = found at h
  cases h with
  | kept => cases hfound
  | asked =>
    rw [← hfound]
    rfl

/-- A table that was found to exist is kept. -/
theorem Inquiry.keptAfter_present {kept : Option Sighting} {events : List Event} {fields : FieldSet}
    (h : m.Inquiry kept events (.ok ⟨true, fields⟩)) :
    keptAfter kept (.ok ⟨true, fields⟩) = some ⟨true, fields⟩ := by
  generalize hfound : (Except.ok ⟨true, fields⟩ : Except Error Sighting) = found at h
  cases h with
  | kept =>
    cases hfound
    rfl
  | asked =>
    rw [← hfound]
    rfl

/-! ## The course -/

/-- The requests that a table needs to have what is required: one to create it if it does not exist,
or one for each field whose name it lacks, in the order in which they are required. -/
def changeRequests (m : Migrator) (required : FieldSet) : Sighting → List Request
  | ⟨false, fields⟩ => [creationRequest m.handle m.table (fields.missing required)]
  | ⟨true, fields⟩ =>
    (required.specs.filter fun f => f.name ∉ fields.names).map (additionRequest m.handle m.table)

/-- What a table is means for what is required: its fields are given if they have all the required
names, and otherwise the names that are missing are reported with the first failure of the
changes. -/
def judgement (m : Migrator) (required : FieldSet) (failure : Option EngineError) :
    Sighting → Except Error FieldSet
  | ⟨false, _⟩ =>
    .error (.migrationConflict m.table required.names
      (failure.getD (.root "columns still missing after migration")))
  | ⟨true, fields⟩ =>
    if required.names ⊆ fields.names then .ok fields
    else
      .error (.migrationConflict m.table (required.names.filter (· ∉ fields.names))
        (failure.getD (.root "columns still missing after migration")))

/-- A judgement gives the fields of a table that exists, and they have all that is required. -/
theorem judgement_eq_ok {failure : Option EngineError} {seen : Sighting} {fields : FieldSet}
    (h : m.judgement required failure seen = .ok fields) :
    seen = ⟨true, fields⟩ ∧ required.names ⊆ fields.names := by
  obtain ⟨_ | _, found⟩ := seen
  · cases h
  · rw [judgement] at h
    split at h
    · next hprovided =>
      cases h
      exact ⟨rfl, hprovided⟩
    · cases h

/-- The course of ensuring what is required, from what is kept for the table at the start to what is
kept for it at the end. -/
inductive Course (m : Migrator) (required : FieldSet) (kept : Option Sighting) :
    List Event → Except Error FieldSet → Option Sighting → Prop where
  /-- The columns cannot be learned. -/
  | unknown {events : List Event} {e : Error} (hinquiry : m.Inquiry kept events (.error e)) :
      Course m required kept events (.error e) none
  /-- The table has all that is required. -/
  | provided {events : List Event} {fields : FieldSet}
      (hinquiry : m.Inquiry kept events (.ok ⟨true, fields⟩))
      (hprovided : required.names ⊆ fields.names) :
      Course m required kept events (.ok fields) (some ⟨true, fields⟩)
  /-- The table is changed, whatever the replies to the changes are, and then the engine is asked
  once. -/
  | changed {events : List Event} {seen : Sighting} (hinquiry : m.Inquiry kept events (.ok seen))
      (hlacking : seen.present = true → ¬required.names ⊆ seen.fields.names)
      (changes : List Change)
      (hchanges : changes.map Change.request = m.changeRequests required seen)
      (reply : Except EngineError (List Row)) :
      Course m required kept
        (events ++ changes.map Change.event ++
          [.fetched (columnsRequest m.handle m.table) reply])
        ((reported m.table reply).bind
          (m.judgement required (changes.findSome? Change.failure?)))
        (keptAfter none (reported m.table reply))

/-! ## What is missing -/

theorem covers_iff {seen : Sighting} : seen.covers required = true ↔
    seen.present = true ∧ required.names ⊆ seen.fields.names := by
  rw [Sighting.covers, Bool.and_eq_true, FieldSet.isEmpty_missing_iff]

/-- What a migrator says after its changes is what the table means for what is required. -/
theorem judgement_eq (failure : Option EngineError) (seen : Sighting) :
    m.judgement required failure seen =
      if seen.covers required then .ok seen.fields
      else
        .error (.migrationConflict m.table (seen.lacking required) (failure.getD unexplained)) := by
  obtain ⟨_ | _, fields⟩ := seen
  · rfl
  · rw [judgement, Sighting.lacking, if_pos rfl, FieldSet.names_missing]
    by_cases hprovided : required.names ⊆ fields.names
    · rw [if_pos hprovided, if_pos (covers_iff.2 ⟨rfl, hprovided⟩)]
    · rw [if_neg hprovided, if_neg fun h => hprovided (covers_iff.1 h).2]
      rfl

/-- Migrating a table sends the requests that it needs. -/
theorem runs_migrate_iff {seen : Sighting} {events : List Event} {failure : Option EngineError} :
    (m.migrate seen (seen.fields.missing required)).Runs events failure ↔
      ∃ changes : List Change, changes.map Change.request = m.changeRequests required seen ∧
        events = changes.map Change.event ∧ failure = changes.findSome? Change.failure? := by
  obtain ⟨_ | _, fields⟩ := seen
  · show (createTable m.handle m.table (fields.missing required)).Runs events failure ↔ _
    rw [createTable_eq, runs_alter_iff]
    constructor
    · rintro ⟨c, hc, rfl, rfl⟩
      refine ⟨[c], ?_, rfl, ?_⟩
      · rw [List.map_singleton, hc]
        rfl
      · rw [List.findSome?_cons]
        cases c.failure? <;> rfl
    · rintro ⟨changes, hchanges, rfl, rfl⟩
      obtain ⟨c, rest, rfl, hc, hrest⟩ := List.map_eq_cons_iff.1 hchanges
      obtain rfl := List.map_eq_nil_iff.1 hrest
      refine ⟨c, hc, rfl, ?_⟩
      rw [List.findSome?_cons]
      cases c.failure? <;> rfl
  · show (addColumns m.handle m.table (fields.missing required).specs).Runs events failure ↔ _
    rw [runs_addColumns_iff, FieldSet.specs_missing]
    rfl

/-! ## The runs of ensuring -/

/-- Looks at the table anew after it was changed, and judges by that. -/
def confirm (m : Migrator) (required : FieldSet) (failure : Option EngineError) :
    Session FieldSet := do
  m.forget
  let seen ← m.look
  Session.ofExcept (m.judgement required failure seen)

theorem ensure_eq (m : Migrator) (required : FieldSet) :
    m.ensure required = m.look >>= fun seen =>
      if seen.covers required then pure seen.fields
      else
        Session.ofDialogue (m.migrate seen (seen.fields.missing required)) >>=
          m.confirm required := by
  unfold ensure
  refine bind_congr fun seen => ?_
  split
  · rfl
  refine bind_congr fun failure => bind_congr fun _ => bind_congr fun seen => ?_
  rw [judgement_eq]
  split <;> rfl

/-- What is asked after the changes is not known from before. -/
theorem runs_confirm {failure : Option EngineError} {caches caches' : Caches} {events : List Event}
    {outcome : Except Error FieldSet} :
    (m.confirm required failure).Runs caches events outcome caches' ↔
      ∃ reply, events = [.fetched (columnsRequest m.handle m.table) reply] ∧
        outcome = (reported m.table reply).bind (m.judgement required failure) ∧
        caches' = caches.set m.handle (keptAfter none (reported m.table reply)) := by
  unfold confirm forget
  rw [Session.runs_setCache_bind]
  unfold Session.Runs
  rw [Session.run_bind, run_look_of_none (caches.set_apply m.handle none), Dialogue.fetch_bind,
    Dialogue.runs_fetch]
  simp only [Dialogue.done_bind, Caches.set_set]
  constructor
  · rintro ⟨reply, rest, rfl, h⟩
    refine ⟨reply, ?_⟩
    cases hseen : reported m.table reply with
    | error e =>
      rw [hseen] at h
      obtain ⟨rfl, h⟩ := Dialogue.runs_done.1 h
      cases h
      exact ⟨rfl, rfl, rfl⟩
    | ok seen =>
      rw [hseen] at h
      obtain ⟨rfl, rfl, rfl⟩ := Session.runs_ofExcept.1 h
      exact ⟨rfl, rfl, rfl⟩
  · rintro ⟨reply, rfl, rfl, rfl⟩
    refine ⟨reply, [], rfl, ?_⟩
    cases hseen : reported m.table reply with
    | error e => exact .done _
    | ok seen => exact Session.runs_ofExcept.2 ⟨rfl, rfl, rfl⟩

/-- Ensuring what is required runs its course, and no other. -/
theorem runs_ensure {caches caches' : Caches} {events : List Event}
    {outcome : Except Error FieldSet} :
    (m.ensure required).Runs caches events outcome caches' ↔
      ∃ kept, caches' = caches.set m.handle kept ∧
        m.Course required (caches m.handle) events outcome kept := by
  rw [ensure_eq, Session.runs_bind]
  constructor
  · rintro (⟨e, rfl, h⟩ | ⟨first, seen, between, rest, rfl, hlook, h⟩)
    · -- the columns cannot be learned, and nothing else is tried
      obtain ⟨hinquiry, rfl⟩ := runs_look.1 h
      rw [hinquiry.keptAfter_error]
      exact ⟨none, rfl, .unknown hinquiry⟩
    obtain ⟨hinquiry, rfl⟩ := runs_look.1 hlook
    cases hcovers : seen.covers required with
    | true =>
      rw [hcovers, if_pos rfl] at h
      obtain ⟨rfl, rfl, rfl⟩ := Session.runs_pure.1 h
      obtain ⟨hpresent, hprovided⟩ := covers_iff.1 hcovers
      obtain ⟨_, fields⟩ := seen
      cases hpresent
      rw [List.append_nil, hinquiry.keptAfter_present]
      exact ⟨_, rfl, .provided hinquiry hprovided⟩
    | false =>
      -- the table is changed and asked about again; what the first inquiry kept is overwritten
      rw [hcovers, if_neg Bool.false_ne_true] at h
      obtain ⟨second, failure, third, rfl, hmigrate, hconfirm⟩ := Session.runs_ofDialogue_bind.1 h
      obtain ⟨changes, hchanges, rfl, rfl⟩ := runs_migrate_iff.1 hmigrate
      obtain ⟨reply, rfl, rfl, rfl⟩ := runs_confirm.1 hconfirm
      rw [Caches.set_set, ← List.append_assoc]
      refine ⟨_, rfl, .changed hinquiry (fun hpresent hprovided => ?_) changes hchanges reply⟩
      rw [covers_iff.2 ⟨hpresent, hprovided⟩] at hcovers
      cases hcovers
  · rintro ⟨kept, rfl, hcourse⟩
    cases hcourse with
    | unknown hinquiry =>
      exact .inl ⟨_, rfl, runs_look.2 ⟨hinquiry, by rw [hinquiry.keptAfter_error]⟩⟩
    | provided hinquiry hprovided =>
      refine .inr ⟨events, _, _, [], (List.append_nil _).symm,
        runs_look.2 ⟨hinquiry, by rw [hinquiry.keptAfter_present]⟩, ?_⟩
      rw [if_pos (covers_iff.2 ⟨rfl, hprovided⟩)]
      exact Session.runs_pure.2 ⟨rfl, rfl, rfl⟩
    | @changed first seen hinquiry hlacking changes hchanges reply =>
      refine .inr ⟨first, seen, _, _, List.append_assoc _ _ _, runs_look.2 ⟨hinquiry, rfl⟩, ?_⟩
      rw [if_neg fun hcovers => hlacking (covers_iff.1 hcovers).1 (covers_iff.1 hcovers).2]
      refine Session.runs_ofDialogue_bind.2
        ⟨_, _, _, rfl, runs_migrate_iff.2 ⟨changes, hchanges, rfl, rfl⟩, ?_⟩
      refine runs_confirm.2 ⟨reply, rfl, rfl, ?_⟩
      rw [Caches.set_set]

/-- A course that gives fields ends with a table kept that exists and has these fields, and they have
all that is required. -/
theorem Course.of_ok {kept kept' : Option Sighting} {events : List Event} {fields : FieldSet}
    (h : m.Course required kept events (.ok fields) kept') :
    kept' = some ⟨true, fields⟩ ∧ required.names ⊆ fields.names := by
  generalize houtcome : (Except.ok fields : Except Error FieldSet) = outcome at h
  cases h with
  | unknown => cases houtcome
  | provided _ hprovided =>
    cases houtcome
    exact ⟨rfl, hprovided⟩
  | changed _ _ changes _ reply =>
    obtain ⟨seen, hreport, hjudged⟩ := bind_eq_ok.1 houtcome.symm
    obtain ⟨rfl, hprovided⟩ := judgement_eq_ok hjudged
    rw [hreport]
    exact ⟨rfl, hprovided⟩

/-- Where a table is kept that has all that is required, its fields are given and nothing is
sent. -/
theorem course_of_kept {fields : FieldSet} (hprovided : required.names ⊆ fields.names)
    {events : List Event} {outcome : Except Error FieldSet} {kept : Option Sighting} :
    m.Course required (some ⟨true, fields⟩) events outcome kept ↔
      events = [] ∧ outcome = .ok fields ∧ kept = some ⟨true, fields⟩ := by
  constructor
  · intro h
    cases h with
    | unknown hinquiry => cases hinquiry
    | provided hinquiry _ =>
      cases hinquiry with
      | kept => exact ⟨rfl, rfl, rfl⟩
    | changed hinquiry hlacking =>
      cases hinquiry with
      | kept => exact absurd hprovided (hlacking rfl)
  · rintro ⟨rfl, rfl, rfl⟩
    exact .provided (.kept _) hprovided

/-- What ensuring what is required of a table sends and gives, whatever is kept and whatever the
engine replies, is its course. Once fields are given, all that is required is among them, and
ensuring that or anything else that is among them gives the same fields and sends nothing. -/
theorem ensure_course (m : Migrator) (required : FieldSet) :
    (∀ caches events outcome caches', (m.ensure required).Runs caches events outcome caches' ↔
        ∃ kept, caches' = caches.set m.handle kept ∧
          m.Course required (caches m.handle) events outcome kept) ∧
      ∀ caches events fields caches', (m.ensure required).Runs caches events (.ok fields) caches' →
        required.names ⊆ fields.names ∧ ∀ later : FieldSet, later.names ⊆ fields.names →
          ∀ events' outcome caches'', (m.ensure later).Runs caches' events' outcome caches'' ↔
            events' = [] ∧ outcome = .ok fields ∧ caches'' = caches' := by
  refine ⟨fun caches events outcome caches' => runs_ensure, ?_⟩
  intro caches events fields caches' hruns
  obtain ⟨kept, rfl, hcourse⟩ := runs_ensure.1 hruns
  obtain ⟨rfl, hprovided⟩ := hcourse.of_ok
  refine ⟨hprovided, ?_⟩
  intro later hlater events' outcome caches''
  rw [runs_ensure, Caches.set_apply]
  constructor
  · rintro ⟨kept, rfl, hagain⟩
    obtain ⟨rfl, rfl, rfl⟩ := (course_of_kept hlater).1 hagain
    exact ⟨rfl, rfl, Caches.set_set _ _ _ _⟩
  · rintro ⟨rfl, rfl, rfl⟩
    exact ⟨_, (Caches.set_set _ _ _ _).symm, (course_of_kept hlater).2 ⟨rfl, rfl, rfl⟩⟩

/-- A migrator of a table that somebody else creates. -/
def racer : Migrator := ⟨0, "race"⟩

/-- What the migrator requires. -/
def racerRequires : FieldSet := ⟨[{ name := "b", type := .number }], by decide⟩

/-- The columns that somebody else creates the table with. -/
def racedColumns : List ColumnInfo := [⟨idName, "INTEGER", true⟩, ⟨"a", "REAL", false⟩]

/-- The columns that somebody else creates the table with, if they have all that is required. -/
def coveringColumns : List ColumnInfo := racedColumns ++ [⟨"b", "REAL", false⟩]

/-- An attempt of the migrator whose statement fails, because somebody else was first. -/
def beatenAttempt : Played (Except Error FieldSet × Caches) :=
  (racer.ensure racerRequires).play (fun _ => none)
    [.rows [], .failure (.root "table exists"), .rows (coveringColumns.map ColumnInfo.row)]

theorem ensure_course_beatenAttempt :
    beatenAttempt.result.1 = .ok (fieldsOfColumns coveringColumns) ∧
      ∀ events outcome caches, (racer.ensure racerRequires).Runs beatenAttempt.result.2 events
          outcome caches ↔
        events = [] ∧ outcome = .ok (fieldsOfColumns coveringColumns) ∧
          caches = beatenAttempt.result.2 := by
  have hruns := Session.runs_play (racer.ensure racerRequires) (fun _ => none)
    [.rows [], .failure (.root "table exists"), .rows (coveringColumns.map ColumnInfo.row)]
  have hok : beatenAttempt.result.1 = .ok (fieldsOfColumns coveringColumns) := rfl
  obtain ⟨hprovided, hagain⟩ := (ensure_course racer racerRequires).2 _ _ _ _ (hok ▸ hruns)
  exact ⟨hok, hagain racerRequires hprovided⟩

end Migrator

end RecordMapping

import RecordMapping.Proofs.Schema.Course

/-!
# Racing migrations converge

Several writers may bring one table into step with what they require at the same time. A migrator
sends its statements on what it last saw, which may be out of date by then, and still ends with all
that it requires. Only the creation of the table can be lost in a way that is reported, and then
the next attempt succeeds (`ensure_converges`).
-/

namespace RecordMapping

/-- What is kept of a table is that it exists, with the fields of columns that it still has. -/
def Kept (kept : Option Sighting) (s : TableState) : Prop :=
  ∀ seen, kept = some seen →
    ∃ columns, seen = ⟨true, fieldsOfColumns columns⟩ ∧ TableState.Extends (some columns) s

theorem kept_none (s : TableState) : Kept none s := by
  intro seen h
  cases h

/-- A report lists the columns of the table. -/
theorem answers_report {table : String} {s s' : TableState} {sender : Option Handle}
    {reply : Except EngineError (List Row)}
    (h : Answers table s (.fetched (columnsRequest sender table) reply) s') :
    s' = s ∧ reportedColumns reply = some s.columns := by
  cases h with
  | report _ hreply => exact ⟨rfl, hreply⟩

/-- After a statement that adds a column to a table that exists, the column is there: either it was
added, or it was there before. -/
theorem answers_addColumn {table : String} {s s' : TableState} {request : Request}
    {field : FieldSpec} {reply : Except EngineError Unit}
    (hstatement : request.statement = .addColumn table field) (hexists : s.isSome = true)
    (h : Answers table s (.executed request reply) s') :
    field.column ∈ s'.columns.map ColumnInfo.name := by
  cases h with
  | create h' =>
    rw [hstatement] at h'
    cases h'
  | createRefused h' =>
    rw [hstatement] at h'
    cases h'
  | add h' hname =>
    rw [hstatement] at h'
    cases h'
    rw [TableState.columns, Option.getD_some, List.map_append]
    exact List.mem_append_right _ (List.mem_singleton_self _)
  | addRefused h' hname =>
    rw [hstatement] at h'
    cases h'
    obtain ⟨columns, rfl⟩ := Option.isSome_iff_exists.1 hexists
    exact hname columns rfl

/-- A statement that creates the table either does so, or finds it there. -/
theorem answers_createTable {table : String} {s s' : TableState} {request : Request}
    {fields : FieldSet} {reply : Except EngineError Unit}
    (hstatement : request.statement = .createTable table fields)
    (h : Answers table s (.executed request reply) s') :
    s' = some (createdColumns fields) ∨ ∃ e, reply = .error e ∧ s'.isSome = true := by
  cases h with
  | create h' =>
    rw [hstatement] at h'
    cases h'
    exact .inl rfl
  | createRefused h' => exact .inr ⟨_, rfl, rfl⟩
  | add h' hname =>
    rw [hstatement] at h'
    cases h'
  | addRefused h' hname =>
    rw [hstatement] at h'
    cases h'

/-- No column is lost while a table evolves. -/
theorem Evolves.columns_subset {s s' : TableState} (h : Evolves s s') : s.columns ⊆ s'.columns := by
  cases s with
  | none => exact List.nil_subset _
  | some columns =>
    obtain ⟨columns', rfl, hsub⟩ := h.grows columns rfl
    exact hsub

/-- The names of columns are not lost either. -/
theorem Evolves.mem_columns {s s' : TableState} (h : Evolves s s') {name : String}
    (hname : name ∈ s.columns.map ColumnInfo.name) : name ∈ s'.columns.map ColumnInfo.name :=
  List.map_subset _ h.columns_subset hname

/-- A sound table that has no columns is not there. -/
theorem TableState.Sound.eq_none {s : TableState} (hsound : s.Sound) (h : s.columns = []) :
    s = none := by
  cases s with
  | none => rfl
  | some columns => exact absurd h (hsound columns rfl).1

theorem Evolves.isSome {s s' : TableState} (h : Evolves s s') (hexists : s.isSome = true) :
    s'.isSome = true := by
  obtain ⟨columns, rfl⟩ := Option.isSome_iff_exists.1 hexists
  obtain ⟨columns', rfl, _⟩ := h.grows columns rfl
  rfl

/-- After requests to add columns to a table that exists, all of them are there. -/
theorem columns_of_additions {table : String} {sender : Handle} {specs : List FieldSpec}
    {changes : List Change}
    (hchanges : changes.map Change.request = specs.map (additionRequest sender table))
    {s s' : TableState} (hfollows : Follows table s (changes.map Change.event) s')
    (hexists : s.isSome = true) : ∀ f ∈ specs, f.column ∈ s'.columns.map ColumnInfo.name := by
  induction specs generalizing s changes with
  | nil =>
    intro f hf
    cases hf
  | cons field rest ih =>
    obtain ⟨c, changes, rfl, hc, hrest⟩ := List.map_eq_cons_iff.1 hchanges
    obtain ⟨s₁, s₂, hwrites, hanswer, hend⟩ := follows_cons.1 hfollows
    have hstatement : c.request.statement = .addColumn table field := by rw [hc]; rfl
    -- the column is there once it was to be added, and nothing that comes later drops it
    have hexists₁ := hwrites.evolves.isSome hexists
    have hcolumn := answers_addColumn hstatement hexists₁ hanswer
    intro f hf
    rcases List.mem_cons.1 hf with rfl | hf
    · exact hend.evolves.mem_columns hcolumn
    · exact ih hrest hend (hanswer.evolves.isSome hexists₁) f hf

namespace Migrator

/-! ## What is found -/

/-- What is found where the engine reports the columns of the table. -/
theorem follows_report {table : String} {sender : Option Handle}
    {reply : Except EngineError (List Row)} {s s' : TableState}
    (h : Follows table s [.fetched (columnsRequest sender table) reply] s') :
    ∃ s₁, Evolves s s₁ ∧ Evolves s₁ s' ∧ reportedColumns reply = some s₁.columns := by
  obtain ⟨s₁, s₂, hwrites, hanswer, hend⟩ := follows_cons.1 h
  obtain ⟨rfl, hreply⟩ := answers_report hanswer
  exact ⟨s₂, hwrites.evolves, hend.evolves, hreply⟩

/-- Where the engine answers, a migrator finds columns that the table still has in the end, or that
there are none. -/
theorem Inquiry.found_or_absent {m : Migrator} {kept : Option Sighting} {s s' : TableState}
    {events : List Event} {found : Except Error Sighting} (hinquiry : m.Inquiry kept events found)
    (hfollows : Follows m.table s events s') (hsound : s.Sound) (hkept : Kept kept s) :
    (∃ columns, found = .ok ⟨true, fieldsOfColumns columns⟩ ∧
        TableState.Extends (some columns) s') ∨
      (found = .ok .absent ∧ s = none ∧ kept = none ∧ ∃ reply,
        events = [.fetched (columnsRequest m.handle m.table) reply] ∧
          reportedColumns reply = some []) := by
  cases hinquiry with
  | kept seen =>
    obtain ⟨columns, rfl, hextends⟩ := hkept _ rfl
    exact .inl ⟨columns, rfl, hextends.trans hfollows.evolves.grows⟩
  | asked reply =>
    obtain ⟨s₁, hbefore, hafter, hreply⟩ := follows_report hfollows
    rw [reported_of_columns hreply]
    by_cases hempty : s₁.columns = []
    · -- a table that was there at the start would have reported its columns
      have hsub : s.columns ⊆ [] := hempty ▸ hbefore.columns_subset
      rw [hempty] at hreply ⊢
      exact .inr ⟨rfl, hsound.eq_none (List.subset_nil.1 hsub), rfl, reply, rfl, hreply⟩
    · rw [Sighting.ofColumns_of_ne_nil hempty]
      have hstill : TableState.Extends (some s₁.columns) s' := by
        cases s₁ with
        | none => exact absurd rfl hempty
        | some columns => exact hafter.grows
      exact .inl ⟨s₁.columns, rfl, hstill⟩

/-! ## Racing writers -/

/-- The creation of the table was lost: the table was absent when the migrator asked, somebody else
created it before the statement of the migrator, and when the migrator asked again it lacked
something that is required. -/
structure LostCreation (m : Migrator) (required : FieldSet) (caches : Caches) (events : List Event)
    (columns : List ColumnInfo) : Prop where
  unseen : caches m.handle = none
  events_eq : ∃ absent e confirmed,
    events = [.fetched (columnsRequest m.handle m.table) absent,
        .executed (creationRequest m.handle m.table required) (.error e),
        .fetched (columnsRequest m.handle m.table) confirmed] ∧
      reportedColumns absent = some [] ∧ reportedColumns confirmed = some columns
  lacks : ∃ name ∈ required.names, name ∉ (fieldsOfColumns columns).names

variable {m : Migrator} {required : FieldSet}

/-- A table that is sound and has a column for each required field has all that is required. -/
theorem names_subset_of_columns (hrequired : ∀ f ∈ required.specs, f.Discoverable) {s : TableState}
    (hsound : s.Sound) {columns : List ColumnInfo} (hsub : s.columns ⊆ columns)
    (h : ∀ f ∈ required.specs, f.column ∈ s.columns.map ColumnInfo.name ∨
      f.name ∈ (fieldsOfColumns s.columns).names) :
    required.names ⊆ (fieldsOfColumns columns).names := by
  intro name hname
  obtain ⟨f, hf, rfl⟩ := List.mem_map.1 hname
  refine names_fieldsOfColumns_mono hsub ?_
  rcases h f hf with hcolumn | hfound
  · refine (hrequired f hf).mem_names ?_ hcolumn
    cases s with
    | none => intro c hc; cases hc
    | some columns => exact (hsound columns rfl).2
  · exact hfound

/-- Where the table was seen, all that is missing is added, or is found to be there. -/
theorem names_subset_after_additions (hrequired : ∀ f ∈ required.specs, f.Discoverable)
    {s s' : TableState} {seen columns : List ColumnInfo} {changes : List Change} (hsound : s.Sound)
    (hseen : TableState.Extends (some seen) s)
    (hchanges : changes.map Change.request
      = m.changeRequests required ⟨true, fieldsOfColumns seen⟩)
    (hfollows : Follows m.table s (changes.map Change.event) s') (hsub : s'.columns ⊆ columns) :
    required.names ⊆ (fieldsOfColumns columns).names := by
  obtain ⟨_, rfl, _⟩ := hseen seen rfl
  refine names_subset_of_columns hrequired (hfollows.evolves.sound hsound) hsub ?_
  intro f hf
  by_cases hname : f.name ∈ (fieldsOfColumns seen).names
  · right
    obtain ⟨_, rfl, hlater⟩ := (hseen.trans hfollows.evolves.grows) seen rfl
    exact names_fieldsOfColumns_mono hlater hname
  · left
    refine columns_of_additions hchanges hfollows rfl f ?_
    exact List.mem_filter.2 ⟨hf, decide_eq_true hname⟩

/-- A table that was created with what is required has all of it. -/
theorem names_subset_of_created (hrequired : ∀ f ∈ required.specs, f.Discoverable)
    {columns : List ColumnInfo} (hsub : createdColumns required ⊆ columns) :
    required.names ⊆ (fieldsOfColumns columns).names := by
  refine names_subset_of_columns hrequired (sound_createdColumns required) hsub ?_
  intro f hf
  left
  refine List.mem_map.2 ⟨f.columnInfo, ?_, rfl⟩
  exact List.mem_cons_of_mem _ (List.mem_map_of_mem hf)

/-- What a table that is absent when it is asked for comes to: it is created with all that is
required, or somebody else creates it first. -/
theorem follows_creation {changes : List Change}
    (hchanges : changes.map Change.request = m.changeRequests required .absent)
    {s s' : TableState} (hfollows : Follows m.table s (changes.map Change.event) s') :
    s'.isSome = true ∧
      (createdColumns required ⊆ s'.columns ∨
        ∃ e, changes.map Change.event
          = [.executed (creationRequest m.handle m.table required) (.error e)]) := by
  rw [Sighting.absent, changeRequests, FieldSet.empty_missing] at hchanges
  obtain ⟨c, rest, rfl, hc, hrest⟩ := List.map_eq_cons_iff.1 hchanges
  obtain rfl := List.map_eq_nil_iff.1 hrest
  obtain ⟨s₁, s₂, _, hanswer, hend⟩ := follows_cons.1 hfollows
  have hstatement : c.request.statement = .createTable m.table required := by rw [hc]; rfl
  rcases answers_createTable hstatement hanswer with rfl | ⟨e, hreply, hexists⟩
  · exact ⟨hend.evolves.isSome rfl, .inl hend.evolves.columns_subset⟩
  · refine ⟨hend.evolves.isSome hexists, .inr ⟨e, ?_⟩⟩
    rw [List.map_singleton, Change.event, hc, hreply]

/-- After its changes a migrator is told all columns that there are. -/
theorem follows_confirmation {reply : Except EngineError (List Row)} {s s' : TableState}
    (hfollows : Follows m.table s [.fetched (columnsRequest m.handle m.table) reply] s')
    (hsound : s.Sound) (hexists : s.isSome = true) :
    ∃ columns, reportedColumns reply = some columns ∧ columns ≠ [] ∧ s.columns ⊆ columns ∧
      TableState.Extends (some columns) s' := by
  obtain ⟨s₁, hbefore, hafter, hreply⟩ := follows_report hfollows
  obtain ⟨columns, rfl⟩ := Option.isSome_iff_exists.1 (hbefore.isSome hexists)
  exact ⟨columns, hreply, (hbefore.sound hsound columns rfl).1, hbefore.columns_subset, hafter.grows⟩

/-- What a migrator says where columns are reported. -/
theorem judged_of_columns {reply : Except EngineError (List Row)} {columns : List ColumnInfo}
    (hreply : reportedColumns reply = some columns) (hne : columns ≠ [])
    (failure : Option EngineError) :
    (reported m.table reply).bind (m.judgement required failure) =
      if required.names ⊆ (fieldsOfColumns columns).names then .ok (fieldsOfColumns columns)
      else
        .error (.migrationConflict m.table
          (required.names.filter (· ∉ (fieldsOfColumns columns).names))
          (failure.getD (.root "columns still missing after migration"))) := by
  rw [reported_of_columns hreply, Sighting.ofColumns_of_ne_nil hne]
  rfl

theorem kept_of_columns {reply : Except EngineError (List Row)} {columns : List ColumnInfo}
    (hreply : reportedColumns reply = some columns) (hne : columns ≠ []) {s : TableState}
    (hextends : TableState.Extends (some columns) s) :
    Kept (keptAfter none (reported m.table reply)) s := by
  rw [reported_of_columns hreply, Sighting.ofColumns_of_ne_nil hne]
  intro seen hseen
  cases hseen
  exact ⟨columns, rfl, hextends⟩

/-- The course of a migrator gives all that is required, or it has lost the creation of the table,
which is there then, and what is kept is right. -/
theorem Course.ok_or_lost {caches : Caches} {kept' : Option Sighting} {s s' : TableState}
    {events : List Event} {outcome : Except Error FieldSet}
    (h : m.Course required (caches m.handle) events outcome kept')
    (hfollows : Follows m.table s events s') (hrequired : ∀ f ∈ required.specs, f.Discoverable)
    (hsound : s.Sound) (hkept : Kept (caches m.handle) s) :
    (∃ fields, outcome = .ok fields ∧ required.names ⊆ fields.names) ∨
      ∃ columns failure,
        outcome = .error (.migrationConflict m.table
          (required.names.filter (· ∉ (fieldsOfColumns columns).names)) failure) ∧
        m.LostCreation required caches events columns ∧ s = none ∧ s'.isSome = true ∧
        Kept kept' s' := by
  cases h with
  | unknown hinquiry =>
    -- the engine reports what there is, so asking does not fail
    rcases hinquiry.found_or_absent hfollows hsound hkept with ⟨_, he, _⟩ | ⟨he, _⟩ <;> cases he
  | provided _ hprovided => exact .inl ⟨_, rfl, hprovided⟩
  | changed hinquiry hlacking changes hchanges reply =>
    obtain ⟨s₂, hbefore, hthird⟩ := follows_append.1 hfollows
    obtain ⟨s₁, hfirst, hsecond⟩ := follows_append.1 hbefore
    have hsound₁ := hfirst.evolves.sound hsound
    have hsound₂ := hsecond.evolves.sound hsound₁
    rcases hinquiry.found_or_absent hfirst hsound hkept with
      ⟨seen, hlive, hstill⟩ | ⟨hlive, rfl, hunseen, absent, rfl, habsent⟩
    · cases hlive
      have hexists : s₁.isSome = true := by
        obtain ⟨_, rfl, _⟩ := hstill seen rfl
        rfl
      obtain ⟨columns, hreply, hne, hsub, _⟩ :=
        follows_confirmation hthird hsound₂ (hsecond.evolves.isSome hexists)
      have hprovided :=
        names_subset_after_additions hrequired hsound₁ hstill hchanges hsecond hsub
      refine .inl ⟨fieldsOfColumns columns, ?_, hprovided⟩
      rw [judged_of_columns hreply hne, if_pos hprovided]
    · cases hlive
      obtain ⟨hexists, hcreation⟩ := follows_creation hchanges hsecond
      obtain ⟨columns, hreply, hne, hsub, hextends⟩ := follows_confirmation hthird hsound₂ hexists
      rw [judged_of_columns hreply hne]
      by_cases hprovided : required.names ⊆ (fieldsOfColumns columns).names
      · -- somebody else may have created the table with as much
        exact .inl ⟨fieldsOfColumns columns, if_pos hprovided, hprovided⟩
      rcases hcreation with hcreated | ⟨e, hlost⟩
      · exact absurd (names_subset_of_created hrequired (List.Subset.trans hcreated hsub)) hprovided
      refine .inr ⟨columns, _, if_neg hprovided, ⟨hunseen, ?_, ?_⟩, rfl,
        hthird.evolves.isSome hexists, kept_of_columns hreply hne hextends⟩
      · rw [hlost]
        exact ⟨absent, e, reply, rfl, habsent, hreply⟩
      · simpa [List.subset_def] using hprovided

/-- Ensuring what is required ends, whatever other writers do to the table in the meantime, and it
gives fields with all the required names or reports a conflict. There is a conflict only if the
creation of the table was lost, and from there the next attempt gives all the required names. -/
theorem ensure_converges (hrequired : ∀ f ∈ required.specs, f.Discoverable) {caches : Caches}
    {s : TableState} (hsound : s.Sound) (hkept : Kept (caches m.handle) s) :
    (∃ events outcome caches' s', (m.ensure required).Runs caches events outcome caches' ∧
        Follows m.table s events s') ∧
      ∀ {events outcome caches' s'}, (m.ensure required).Runs caches events outcome caches' →
        Follows m.table s events s' →
        (∃ fields, outcome = .ok fields ∧
            ∀ name ∈ required.names, fields.contains name = true) ∨
          ∃ columns failure,
            outcome = .error (.migrationConflict m.table
              (required.names.filter (· ∉ (fieldsOfColumns columns).names)) failure) ∧
            m.LostCreation required caches events columns ∧
            ∀ {events' outcome' caches'' s''},
              (m.ensure required).Runs caches' events' outcome' caches'' →
              Follows m.table s' events' s'' →
              ∃ fields, outcome' = .ok fields ∧
                ∀ name ∈ required.names, fields.contains name = true := by
  have hcontains : ∀ {outcome : Except Error FieldSet},
      (∃ fields, outcome = .ok fields ∧ required.names ⊆ fields.names) →
      ∃ fields, outcome = .ok fields ∧ ∀ name ∈ required.names, fields.contains name = true := by
    rintro outcome ⟨fields, hok, hprovided⟩
    exact ⟨fields, hok, fun name hname => FieldSet.contains_iff.2 (hprovided hname)⟩
  constructor
  · obtain ⟨events, ⟨outcome, caches'⟩, s', hruns, hfollows⟩ :=
      exists_follows (m.sends_ensure required caches) s
    exact ⟨events, outcome, caches', s', hruns, hfollows⟩
  intro events outcome caches' s' hruns hfollows
  obtain ⟨kept, rfl, hcourse⟩ := runs_ensure.1 hruns
  rcases hcourse.ok_or_lost hfollows hrequired hsound hkept with
    hok | ⟨columns, failure, houtcome, hlost, _, hexists, hkept'⟩
  · exact .inl (hcontains hok)
  refine .inr ⟨columns, failure, houtcome, hlost, ?_⟩
  intro events' outcome' caches'' s'' hruns' hfollows'
  obtain ⟨kept', rfl, hcourse'⟩ := runs_ensure.1 hruns'
  rw [← caches.set_apply m.handle kept] at hkept'
  rcases hcourse'.ok_or_lost hfollows' hrequired (hfollows.evolves.sound hsound) hkept' with
    hok | ⟨_, _, _, _, rfl, _⟩
  · exact hcontains hok
  · -- only a table that is absent can be lost
    cases hexists

/-- What the engine replies to the migrator. -/
def racedReplies : List Reply :=
  [.rows [], .failure (.root "table exists"), .rows (racedColumns.map ColumnInfo.row)]

/-- The attempt of the migrator that loses the creation of the table. -/
def lostAttempt : Played (Except Error FieldSet × Caches) :=
  (racer.ensure racerRequires).play (fun _ => none) racedReplies

theorem ensure_converges_lostAttempt :
    (∃ failure, lostAttempt.result.1 = .error (.migrationConflict "race" ["b"] failure)) ∧
      ∀ {events s outcome caches}, (racer.ensure racerRequires).Runs lostAttempt.result.2 events
          outcome caches → Follows "race" (some racedColumns) events s →
        ∃ fields, outcome = .ok fields ∧ ∀ name ∈ ["b"], fields.contains name = true := by
  have hrequired : ∀ f ∈ racerRequires.specs, f.Discoverable := by
    intro f hf
    obtain rfl := List.mem_singleton.1 hf
    refine ⟨rfl, by decide, ?_⟩
    intro _ front type h
    have hcolon : ':' ∈ (front ++ "::" ++ type.tag).toList := by simp
    rw [← h] at hcolon
    exact absurd hcolon (by decide)
  have husable : ∀ c ∈ racedColumns, c.IsUsable := by
    unfold racedColumns ColumnInfo.IsUsable
    decide
  have hfollows : Follows "race" none
      (Dialogue.events ((racer.ensure racerRequires).run fun _ => none) racedReplies)
      (some racedColumns) := by
    show Follows "race" none [.fetched _ (.ok []), .executed _ _,
      .fetched _ (.ok (racedColumns.map ColumnInfo.row))] _
    refine .step .refl (.report rfl rfl) ?_
    refine .step (.single (.create (TableState.sound_some.2 ⟨List.cons_ne_nil _ _, husable⟩)))
      (.createRefused rfl) ?_
    exact .step .refl (.report rfl (reportedColumns_rows _)) (.done .refl)
  have hsound : TableState.Sound none := by
    intro columns h
    cases h
  have hkept : Kept ((fun _ => none : Caches) racer.handle) none := kept_none none
  refine ⟨⟨_, rfl⟩, ?_⟩
  rcases (ensure_converges (m := racer) hrequired hsound hkept).2
      (Session.runs_play _ _ racedReplies) hfollows with ⟨fields, hok, _⟩ | ⟨_, _, _, _, hretry⟩
  · cases hok
  · exact hretry

end Migrator

end RecordMapping

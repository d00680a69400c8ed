import RecordMapping.Proofs.Table.Ensuring

/-!
# Lists of records

What an operation that gives a list sends, and what it makes of the replies (`Table.Listing`): rows
that are replied to a statement that is not on a schema are those that it reads.
-/

namespace RecordMapping

namespace Table

variable {t : Table}

/-- The course of listing records. -/
inductive Listing (t : Table) (lookup : Session (Option FieldSet))
    (plan : FieldSet → Session (Statement × List Embedded)) (caches caches' : Caches) :
    List Event → Except Error (List Record) → Prop where
  /-- Looking for the fields fails. -/
  | unknown {events : List Event} {e : Error}
      (hlookup : lookup.Runs caches events (.error e) caches') :
      Listing t lookup plan caches caches' events (.error e)
  /-- There are no fields. -/
  | absent {events : List Event} (hlookup : lookup.Runs caches events (.ok none) caches') :
      Listing t lookup plan caches caches' events (.ok [])
  /-- There is no statement for what is asked. -/
  | unplanned {first second : List Event} {fields : FieldSet} {between : Caches} {e : Error}
      (hlookup : lookup.Runs caches first (.ok (some fields)) between)
      (hplan : (plan fields).Runs between second (.error e) caches') :
      Listing t lookup plan caches caches' (first ++ second) (.error e)
  /-- The statement cannot be built. -/
  | unsent {first second : List Event} {fields : FieldSet} {between : Caches}
      {planned : Statement × List Embedded} {e : Error}
      (hlookup : lookup.Runs caches first (.ok (some fields)) between)
      (hplan : (plan fields).Runs between second (.ok planned) caches')
      (hquery : planned.1.query = .error e) :
      Listing t lookup plan caches caches' (first ++ second) (.error e)
  /-- The statement is sent, and the rows that are replied to it are read. -/
  | answered {first second : List Event} {fields : FieldSet} {between : Caches}
      {planned : Statement × List Embedded} {request : Request}
      (hlookup : lookup.Runs caches first (.ok (some fields)) between)
      (hplan : (plan fields).Runs between second (.ok planned) caches')
      (hstatement : request.statement = planned.1) (reply : Except EngineError (List Row)) :
      Listing t lookup plan caches caches' (first ++ second ++ [.fetched request reply])
        ((reply.mapError (.statement request.query.sql request.query.params)).bind
          fun rows => rows.mapM (decode fields planned.2))

variable {lookup : Session (Option FieldSet)}
  {plan : FieldSet → Session (Statement × List Embedded)} {caches caches' : Caches}
  {events : List Event} {outcome : Except Error (List Record)}

theorem runs_listing (h : (t.listing lookup plan).Runs caches events outcome caches') :
    t.Listing lookup plan caches caches' events outcome := by
  unfold listing at h
  rcases Session.runs_bind.1 h with
    ⟨e, rfl, hlookup⟩ | ⟨first, live, between, rest, rfl, hlookup, hrest⟩
  · exact .unknown hlookup
  cases live with
  | none =>
    obtain ⟨rfl, rfl, rfl⟩ := Session.runs_pure.1 hrest
    rw [List.append_nil]
    exact .absent hlookup
  | some fields =>
    rcases Session.runs_bind.1 hrest with
      ⟨e, rfl, hplan⟩ | ⟨second, planned, _, last, rfl, hplan, hlast⟩
    · exact .unplanned hlookup hplan
    obtain ⟨rfl, ⟨e, hquery, rfl, rfl⟩ | ⟨request, reply, _, hstatement, rfl, rfl⟩⟩ :=
      Session.runs_rows_bind hlast
    · rw [List.append_nil]
      exact .unsent hlookup hplan hquery
    · rw [← List.append_assoc]
      exact .answered hlookup hplan hstatement reply

/-- Where rows are replied to a statement that is not on a schema, they are what is read. -/
theorem Listing.of_rows (h : t.Listing lookup plan caches caches' events outcome)
    (hlookup : lookup.Sends Sent.IsSchema) (hplan : ∀ fields, (plan fields).Sends Sent.IsSchema)
    {request : Request} {rows : List Row} (hrequest : request.statement.isSchema = false)
    (hrows : .fetched request (.ok rows) ∈ events) :
    ∃ before after fields between second planned, events = before ++ after ∧
      lookup.Runs caches before (.ok (some fields)) between ∧
      (plan fields).Runs between second (.ok planned) caches' ∧
      request.statement = planned.1 ∧ outcome = rows.mapM (decode fields planned.2) := by
  cases h with
  | unknown hrun | absent hrun =>
    exact absurd hrows (Session.notMem_of_sends_schema hlookup hrun hrequest)
  | unplanned hrun hrun' | unsent hrun hrun' =>
    rcases List.mem_append.1 hrows with hrows | hrows
    · exact absurd hrows (Session.notMem_of_sends_schema hlookup hrun hrequest)
    · exact absurd hrows (Session.notMem_of_sends_schema (hplan _) hrun' hrequest)
  | @answered first second fields between planned _ hrun hrun' hstatement reply =>
    rcases List.mem_append.1 hrows with hrows | hrows
    · rcases List.mem_append.1 hrows with hrows | hrows
      · exact absurd hrows (Session.notMem_of_sends_schema hlookup hrun hrequest)
      · exact absurd hrows (Session.notMem_of_sends_schema (hplan _) hrun' hrequest)
    · cases List.mem_singleton.1 hrows
      exact ⟨first, _, fields, between, second, planned, List.append_assoc _ _ _, hrun, hrun',
        hstatement, rfl⟩

/-- Records are given because there are no fields, or because rows were replied. -/
theorem Listing.of_ok {records : List Record}
    (h : t.Listing lookup plan caches caches' events (.ok records)) :
    (lookup.Runs caches events (.ok none) caches' ∧ records = []) ∨
      ∃ fields planned request rows, (plan fields).Gives planned ∧
        request.statement = planned.1 ∧ .fetched request (.ok rows) ∈ events := by
  generalize houtcome : (Except.ok records : Except Error (List Record)) = outcome at h
  cases h with
  | unknown | unplanned | unsent => cases houtcome
  | absent hlookup =>
    cases houtcome
    exact .inl ⟨hlookup, rfl⟩
  | @answered _ _ fields _ planned request _ hplan hstatement reply =>
    cases reply with
    | error e => cases houtcome
    | ok rows =>
      exact .inr ⟨fields, planned, request, rows, ⟨_, _, _, hplan⟩, hstatement,
        List.mem_append_right _ List.mem_cons_self⟩

end Table

end RecordMapping

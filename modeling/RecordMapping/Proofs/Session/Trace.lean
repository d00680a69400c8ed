import RecordMapping.Session.Playback

/-!
# What dialogues and sessions go through

A run of a dialogue is the list of the statements that it sends, each with the reply of the
engine, and the result that it ends with. Any reply is possible at any point, so what holds of all
runs holds for every engine; for an engine of a certain kind, what it does not do is ruled out on
the list.
-/

namespace RecordMapping

/-- A statement that was sent, with the reply to it. -/
inductive Event where
  | fetched (request : Request) (reply : Except EngineError (List Row))
  | executed (request : Request) (reply : Except EngineError Unit)

/-- The statement of an event, by the way it was sent. -/
def Event.sent : Event → Sent
  | .fetched request _ => .fetch request
  | .executed request _ => .execute request

namespace Dialogue

variable {α β : Type}

/-- A dialogue goes through certain events and ends with a result. -/
inductive Runs : Dialogue α → List Event → α → Prop where
  | done (a : α) : Runs (.done a) [] a
  | fetch {request : Request} {next : Except EngineError (List Row) → Dialogue α}
      (reply : Except EngineError (List Row)) {events : List Event} {a : α} :
      Runs (next reply) events a → Runs (.fetch request next) (.fetched request reply :: events) a
  | execute {request : Request} {next : Except EngineError Unit → Dialogue α}
      (reply : Except EngineError Unit) {events : List Event} {a : α} :
      Runs (next reply) events a →
        Runs (.execute request next) (.executed request reply :: events) a

theorem runs_done {a a' : α} {events : List Event} :
    Runs (.done a) events a' ↔ events = [] ∧ a' = a := by
  constructor
  · intro h
    cases h
    exact ⟨rfl, rfl⟩
  · rintro ⟨rfl, rfl⟩
    exact .done _

theorem runs_fetch {request : Request} {next : Except EngineError (List Row) → Dialogue α}
    {events : List Event} {a : α} :
    Runs (.fetch request next) events a ↔
      ∃ reply rest, events = .fetched request reply :: rest ∧ Runs (next reply) rest a := by
  constructor
  · intro h
    cases h with
    | fetch reply h => exact ⟨reply, _, rfl, h⟩
  · rintro ⟨reply, rest, rfl, h⟩
    exact .fetch reply h

theorem runs_execute {request : Request} {next : Except EngineError Unit → Dialogue α}
    {events : List Event} {a : α} :
    Runs (.execute request next) events a ↔
      ∃ reply rest, events = .executed request reply :: rest ∧ Runs (next reply) rest a := by
  constructor
  · intro h
    cases h with
    | execute reply h => exact ⟨reply, _, rfl, h⟩
  · rintro ⟨reply, rest, rfl, h⟩
    exact .execute reply h

/-- Going on with a second dialogue means to go through the events of both. -/
theorem runs_bind {d : Dialogue α} {f : α → Dialogue β} {events : List Event} {b : β} :
    Runs (d >>= f) events b ↔
      ∃ first a second, events = first ++ second ∧ Runs d first a ∧ Runs (f a) second b := by
  constructor
  · -- the replies of a run decide where the first dialogue ends
    intro h
    induction d generalizing events with
    | done a => exact ⟨[], a, events, rfl, .done a, h⟩
    | fetch request next ih =>
      rw [fetch_bind, runs_fetch] at h
      obtain ⟨reply, rest, rfl, h⟩ := h
      obtain ⟨first, a, second, rfl, hfirst, hsecond⟩ := ih reply h
      exact ⟨_, a, second, rfl, .fetch reply hfirst, hsecond⟩
    | execute request next ih =>
      rw [execute_bind, runs_execute] at h
      obtain ⟨reply, rest, rfl, h⟩ := h
      obtain ⟨first, a, second, rfl, hfirst, hsecond⟩ := ih reply h
      exact ⟨_, a, second, rfl, .execute reply hfirst, hsecond⟩
  · rintro ⟨first, a, second, rfl, hfirst, hsecond⟩
    induction hfirst with
    | done a => exact hsecond
    | fetch reply _ ih => exact .fetch reply (ih hsecond)
    | execute reply _ ih => exact .execute reply (ih hsecond)

/-- The replies decide where a dialogue ends, and with which result: of two runs on the same events
none is a part of the other. -/
theorem Runs.eq_of_append_eq {d : Dialogue α} {first first' rest rest' : List Event} {a a' : α}
    (h : d.Runs first a) (h' : d.Runs first' a') (hevents : first ++ rest = first' ++ rest') :
    first = first' ∧ a = a' := by
  induction h generalizing first' with
  | done a =>
    obtain ⟨rfl, rfl⟩ := runs_done.1 h'
    exact ⟨rfl, rfl⟩
  | fetch reply _ ih =>
    obtain ⟨reply', rest', rfl, hnext⟩ := runs_fetch.1 h'
    obtain ⟨hhead, htail⟩ := List.cons.inj hevents
    cases hhead
    obtain ⟨rfl, rfl⟩ := ih hnext htail
    exact ⟨rfl, rfl⟩
  | execute reply _ ih =>
    obtain ⟨reply', rest', rfl, hnext⟩ := runs_execute.1 h'
    obtain ⟨hhead, htail⟩ := List.cons.inj hevents
    cases hhead
    obtain ⟨rfl, rfl⟩ := ih hnext htail
    exact ⟨rfl, rfl⟩

/-- Whether all that a dialogue sends is of a certain kind, whatever the replies are. -/
def Sends (p : Sent → Prop) : Dialogue α → Prop
  | done _ => True
  | fetch request next => p (.fetch request) ∧ ∀ reply, Sends p (next reply)
  | execute request next => p (.execute request) ∧ ∀ reply, Sends p (next reply)

/-- What follows a dialogue need only be considered on the results that it has. -/
theorem Sends.bind_of_runs {p : Sent → Prop} {d : Dialogue α} {f : α → Dialogue β} (h : d.Sends p)
    (hf : ∀ events a, d.Runs events a → (f a).Sends p) : (d >>= f).Sends p := by
  induction d with
  | done a => exact hf [] a (.done a)
  | fetch request next ih =>
    refine ⟨h.1, fun reply => ih reply (h.2 reply) fun events a hruns => ?_⟩
    exact hf _ a (.fetch reply hruns)
  | execute request next ih =>
    refine ⟨h.1, fun reply => ih reply (h.2 reply) fun events a hruns => ?_⟩
    exact hf _ a (.execute reply hruns)

theorem Sends.bind {p : Sent → Prop} {d : Dialogue α} {f : α → Dialogue β} (h : d.Sends p)
    (hf : ∀ a, (f a).Sends p) : (d >>= f).Sends p :=
  h.bind_of_runs fun _ a _ => hf a

/-- What was sent in a run is what the dialogue can send. -/
theorem Sends.of_runs {p : Sent → Prop} {d : Dialogue α} {events : List Event} {a : α}
    (h : d.Sends p) (hruns : d.Runs events a) : ∀ e ∈ events, p e.sent := by
  induction hruns with
  | done a =>
    intro e he
    cases he
  | fetch reply _ ih | execute reply _ ih =>
    intro e he
    rcases List.mem_cons.1 he with rfl | he
    · exact h.1
    · exact ih (h.2 reply) e he

/-- The events of a dialogue on recorded replies. -/
def events : Dialogue α → List Reply → List Event
  | done _, _ => []
  | fetch request next, replies =>
    .fetched request (Reply.toFetch replies) :: events (next (Reply.toFetch replies)) replies.tail
  | execute request next, replies =>
    .executed request (Reply.toExecute replies) ::
      events (next (Reply.toExecute replies)) replies.tail

/-- Recorded replies make a run. -/
theorem runs_play (d : Dialogue α) (replies : List Reply) :
    Runs d (d.events replies) (d.play replies).result := by
  induction d generalizing replies with
  | done a => exact .done a
  | fetch request next ih => exact .fetch _ (ih _ replies.tail)
  | execute request next ih => exact .execute _ (ih _ replies.tail)

end Dialogue

namespace Session

variable {α β : Type}

/-- A session goes through certain events, from what is kept at its start to an outcome and what
is kept at its end. -/
def Runs (s : Session α) (caches : Caches) (events : List Event) (outcome : Except Error α)
    (caches' : Caches) : Prop :=
  Dialogue.Runs (s.run caches) events (outcome, caches')

variable {caches caches' : Caches} {events : List Event}

/-- Recorded replies make a run of a session. -/
theorem runs_play (s : Session α) (caches : Caches) (replies : List Reply) :
    s.Runs caches (Dialogue.events (s.run caches) replies) (s.play caches replies).result.1
      (s.play caches replies).result.2 :=
  Dialogue.runs_play (s.run caches) replies

theorem runs_pure {a : α} {outcome : Except Error α} :
    Runs (pure a) caches events outcome caches' ↔
      events = [] ∧ outcome = .ok a ∧ caches' = caches := by
  show Dialogue.Runs (.done (.ok a, caches)) events (outcome, caches') ↔ _
  rw [Dialogue.runs_done, Prod.mk.injEq]

theorem runs_throw {e : Error} {outcome : Except Error α} :
    Runs (throw e : Session α) caches events outcome caches' ↔
      events = [] ∧ outcome = .error e ∧ caches' = caches := by
  show Dialogue.Runs (.done (.error e, caches)) events (outcome, caches') ↔ _
  rw [Dialogue.runs_done, Prod.mk.injEq]

/-- A session that goes on with a second one is a dialogue that goes on unless it has failed. -/
theorem run_bind (s : Session α) (f : α → Session β) (caches : Caches) :
    (s >>= f).run caches = (s.run caches >>= fun p =>
      match p.1 with
      | .ok a => (f a).run p.2
      | .error e => .done (.error e, p.2)) := by
  show Dialogue.bind _ _ = Dialogue.bind _ _
  congr 1
  funext p
  obtain ⟨outcome, between⟩ := p
  cases outcome <;> rfl

/-- A session either fails in its first part, or goes on with the second one. -/
theorem runs_bind {s : Session α} {f : α → Session β} {outcome : Except Error β} :
    Runs (s >>= f) caches events outcome caches' ↔
      (∃ e, outcome = .error e ∧ s.Runs caches events (.error e) caches') ∨
        ∃ first a between second, events = first ++ second ∧ s.Runs caches first (.ok a) between ∧
          (f a).Runs between second outcome caches' := by
  unfold Runs
  rw [run_bind, Dialogue.runs_bind]
  constructor
  · rintro ⟨first, ⟨result, between⟩, second, rfl, hfirst, hsecond⟩
    cases result with
    | error e =>
      -- the second part is skipped, and what is kept stays as the first part left it
      obtain ⟨rfl, hend⟩ := Dialogue.runs_done.1 hsecond
      cases hend
      rw [List.append_nil]
      exact .inl ⟨e, rfl, hfirst⟩
    | ok a => exact .inr ⟨first, a, between, second, rfl, hfirst, hsecond⟩
  · rintro (⟨e, rfl, h⟩ | ⟨first, a, between, second, rfl, hfirst, hsecond⟩)
    · exact ⟨events, (.error e, caches'), [], (List.append_nil _).symm, h, .done _⟩
    · exact ⟨first, (.ok a, between), second, rfl, hfirst, hsecond⟩

/-- Once the first part of a session has given a result, the second one goes on with it. -/
theorem Runs.of_bind {s : Session α} {f : α → Session β} {first second : List Event} {a : α}
    {between : Caches} {outcome : Except Error β} (h : s.Runs caches first (.ok a) between)
    (hbind : Runs (s >>= f) caches (first ++ second) outcome caches') :
    (f a).Runs between second outcome caches' := by
  rcases runs_bind.1 hbind with
    ⟨e, rfl, h'⟩ | ⟨first', a', between', second', hevents, h', hsecond⟩
  · have hevents : first ++ second = (first ++ second) ++ [] := (List.append_nil _).symm
    obtain ⟨_, hresult⟩ := Dialogue.Runs.eq_of_append_eq h h' hevents
    cases hresult
  · obtain ⟨rfl, hresult⟩ := Dialogue.Runs.eq_of_append_eq h h' hevents
    cases hresult
    cases List.append_cancel_left hevents
    exact hsecond

/-- A session whose result is changed in the end. -/
theorem runs_bind_pure {s : Session α} {f : α → β} {outcome : Except Error β} :
    Runs (s >>= fun a => pure (f a)) caches events outcome caches' ↔
      ∃ result, outcome = result.map f ∧ s.Runs caches events result caches' := by
  rw [runs_bind]
  constructor
  · rintro (⟨e, rfl, h⟩ | ⟨first, a, between, second, rfl, hfirst, hsecond⟩)
    · exact ⟨.error e, rfl, h⟩
    · obtain ⟨rfl, rfl, rfl⟩ := runs_pure.1 hsecond
      rw [List.append_nil]
      exact ⟨.ok a, rfl, hfirst⟩
  · rintro ⟨result, rfl, h⟩
    cases result with
    | error e => exact .inl ⟨e, rfl, h⟩
    | ok a =>
      exact .inr ⟨events, a, caches', [], (List.append_nil _).symm, h, runs_pure.2 ⟨rfl, rfl, rfl⟩⟩

theorem runs_discard {s : Session α} {outcome : Except Error Unit} :
    Runs (discard s) caches events outcome caches' ↔
      ∃ result, outcome = result.map (fun _ => ()) ∧ s.Runs caches events result caches' := by
  have hdiscard : (discard s : Session Unit) = s >>= fun _ => pure () := by
    show (fun _ => ()) <$> s = _
    rw [map_eq_pure_bind]
  rw [hdiscard, runs_bind_pure]

theorem runs_ofExcept {x outcome : Except Error α} :
    Runs (ofExcept x) caches events outcome caches' ↔
      events = [] ∧ outcome = x ∧ caches' = caches := by
  cases x with
  | ok a => exact runs_pure
  | error e => exact runs_throw

theorem runs_ofDialogue {d : Dialogue α} {outcome : Except Error α} :
    Runs (ofDialogue d) caches events outcome caches' ↔
      caches' = caches ∧ ∃ a, outcome = .ok a ∧ d.Runs events a := by
  have hrun : (ofDialogue d).run caches = d >>= fun a => .done (.ok a, caches) := by
    show Dialogue.bind (Dialogue.bind d fun a => .done (a, caches))
      (fun p => .done (Except.ok p.1, p.2)) = Dialogue.bind d fun a => .done (Except.ok a, caches)
    rw [Dialogue.bind_bind]
    rfl
  unfold Runs
  rw [hrun, Dialogue.runs_bind]
  constructor
  · rintro ⟨first, a, second, rfl, hfirst, hsecond⟩
    obtain ⟨rfl, hend⟩ := Dialogue.runs_done.1 hsecond
    cases hend
    rw [List.append_nil]
    exact ⟨rfl, a, rfl, hfirst⟩
  · rintro ⟨rfl, a, rfl, h⟩
    exact ⟨events, a, [], (List.append_nil _).symm, h, .done _⟩

/-- A session that goes on with the result of a dialogue. -/
theorem runs_ofDialogue_bind {d : Dialogue α} {f : α → Session β} {outcome : Except Error β} :
    Runs (ofDialogue d >>= f) caches events outcome caches' ↔
      ∃ first a second, events = first ++ second ∧ d.Runs first a ∧
        (f a).Runs caches second outcome caches' := by
  rw [runs_bind]
  constructor
  · rintro (⟨e, _, h⟩ | ⟨first, a, between, second, rfl, hfirst, hsecond⟩)
    · obtain ⟨_, a, hok, _⟩ := runs_ofDialogue.1 h
      cases hok
    · obtain ⟨rfl, a', hok, hfirst⟩ := runs_ofDialogue.1 hfirst
      cases hok
      exact ⟨first, a, second, rfl, hfirst, hsecond⟩
  · rintro ⟨first, a, second, rfl, hfirst, hsecond⟩
    exact .inr ⟨first, a, caches, second, rfl, runs_ofDialogue.2 ⟨rfl, a, rfl, hfirst⟩, hsecond⟩

/-- A session that goes on with what is kept for a handle. -/
theorem run_cached_bind (handle : Handle) (f : Option Sighting → Session α) (caches : Caches) :
    (cached handle >>= f).run caches = (f (caches handle)).run caches :=
  rfl

/-- A session that goes on after it has kept or forgotten something. -/
theorem runs_setCache_bind {handle : Handle} {seen : Option Sighting} {f : Unit → Session α}
    {outcome : Except Error α} :
    Runs (setCache handle seen >>= f) caches events outcome caches' ↔
      (f ()).Runs (caches.set handle seen) events outcome caches' :=
  Iff.rfl

/-- Whether all that a session sends is of a certain kind, whatever is kept. -/
def Sends (p : Sent → Prop) (s : Session α) : Prop := ∀ caches, Dialogue.Sends p (s.run caches)

theorem Sends.ofDialogue {p : Sent → Prop} {d : Dialogue α} (h : d.Sends p) :
    (ofDialogue d).Sends p := by
  intro caches
  refine Dialogue.Sends.bind ?_ fun _ => trivial
  exact Dialogue.Sends.bind h fun _ => trivial

/-- Something is kept or forgotten, and nothing else. -/
theorem runs_setCache {handle : Handle} {seen : Option Sighting} {outcome : Except Error Unit} :
    Runs (setCache handle seen) caches events outcome caches' ↔
      events = [] ∧ outcome = .ok () ∧ caches' = caches.set handle seen := by
  show Dialogue.Runs (.done (.ok (), caches.set handle seen)) events (outcome, caches') ↔ _
  rw [Dialogue.runs_done, Prod.mk.injEq]

/-- A request is for the statement that it was made of. -/
theorem of_eq_ok {sender : Handle} {statement : Statement} {request : Request}
    (h : Request.of sender statement = .ok request) :
    request.sender = some sender ∧ request.statement = statement := by
  unfold Request.of at h
  split at h
  · cases h
    exact ⟨rfl, rfl⟩
  · cases h

/-- What is sent for a statement is its query. -/
theorem query_of_statement {request : Request} {statement : Statement} {query : Query}
    (h : request.statement = statement) (hquery : statement.query = .ok query) :
    request.query = query := by
  have hbuilt := request.built
  rw [h, hquery] at hbuilt
  exact (Except.ok.inj hbuilt).symm

/-- Where there is no request, the statement cannot be built. -/
theorem of_eq_error {sender : Handle} {statement : Statement} {e : Error}
    (h : Request.of sender statement = .error e) : statement.query = .error e := by
  unfold Request.of at h
  split at h
  · cases h
  · next hquery =>
    cases h
    exact hquery

/-- Asking for rows keeps and forgets nothing. A statement that cannot be built is not sent; any
other one is sent once, and the reply to it is the outcome. -/
theorem runs_rows {sender : Handle} {statement : Statement} {outcome : Except Error (List Row)}
    (h : (rows sender statement).Runs caches events outcome caches') :
    caches' = caches ∧
      ((∃ e, statement.query = .error e ∧ events = [] ∧ outcome = .error e) ∨
        ∃ request reply, request.sender = some sender ∧ request.statement = statement ∧
          events = [.fetched request reply] ∧
          outcome = reply.mapError (.statement request.query.sql request.query.params)) := by
  unfold rows at h
  rcases runs_bind.1 h with ⟨e, rfl, hof⟩ | ⟨first, request, between, rest, rfl, hof, hsend⟩
  · obtain ⟨rfl, hrequest, rfl⟩ := runs_ofExcept.1 hof
    exact ⟨rfl, .inl ⟨e, of_eq_error hrequest.symm, rfl, rfl⟩⟩
  · obtain ⟨rfl, hrequest, rfl⟩ := runs_ofExcept.1 hof
    obtain ⟨hsender, hstatement⟩ := of_eq_ok hrequest.symm
    obtain ⟨second, reply, third, rfl, hfetch, hreply⟩ := runs_ofDialogue_bind.1 hsend
    obtain ⟨reply', done, rfl, hdone⟩ := Dialogue.runs_fetch.1 hfetch
    obtain ⟨rfl, rfl⟩ := Dialogue.runs_done.1 hdone
    cases reply with
    | ok rows =>
      obtain ⟨rfl, rfl, rfl⟩ := runs_pure.1 hreply
      exact ⟨rfl, .inr ⟨request, .ok rows, hsender, hstatement, rfl, rfl⟩⟩
    | error e =>
      obtain ⟨rfl, rfl, rfl⟩ := runs_throw.1 hreply
      exact ⟨rfl, .inr ⟨request, .error e, hsender, hstatement, rfl, rfl⟩⟩

/-- Asking for rows and reading them keeps and forgets nothing, and sends the one statement. -/
theorem runs_rows_bind {sender : Handle} {statement : Statement}
    {read : List Row → Except Error α} {outcome : Except Error α}
    (h : (rows sender statement >>= fun result => ofExcept (read result)).Runs caches events outcome
      caches') :
    caches' = caches ∧
      ((∃ e, statement.query = .error e ∧ events = [] ∧ outcome = .error e) ∨
        ∃ request reply, request.sender = some sender ∧ request.statement = statement ∧
          events = [.fetched request reply] ∧
          outcome = (reply.mapError (.statement request.query.sql request.query.params)).bind
            read) := by
  rcases runs_bind.1 h with ⟨e, rfl, hrows⟩ | ⟨first, result, _, rest, rfl, hrows, hread⟩
  · obtain ⟨rfl, ⟨e', hquery, rfl, he⟩ | ⟨request, reply, hsender, hstatement, rfl, hreply⟩⟩ :=
      runs_rows hrows
    · cases he
      exact ⟨rfl, .inl ⟨e, hquery, rfl, rfl⟩⟩
    · refine ⟨rfl, .inr ⟨request, reply, hsender, hstatement, rfl, ?_⟩⟩
      rw [← hreply]
      rfl
  · obtain ⟨rfl, rfl, rfl⟩ := runs_ofExcept.1 hread
    obtain ⟨rfl, ⟨e', _, _, he⟩ | ⟨request, reply, hsender, hstatement, rfl, hreply⟩⟩ :=
      runs_rows hrows
    · cases he
    · refine ⟨rfl, .inr ⟨request, reply, hsender, hstatement, List.append_nil _, ?_⟩⟩
      rw [← hreply]
      rfl

/-! ## Results -/

/-- A result that a session gives on some run. -/
def Gives (s : Session α) (a : α) : Prop :=
  ∃ caches events caches', s.Runs caches events (.ok a) caches'

theorem gives_pure {a b : α} : Gives (pure a) b ↔ b = a := by
  constructor
  · rintro ⟨_, _, _, h⟩
    obtain ⟨_, hok, _⟩ := runs_pure.1 h
    cases hok
    rfl
  · rintro rfl
    exact ⟨fun _ => none, [], fun _ => none, runs_pure.2 ⟨rfl, rfl, rfl⟩⟩

theorem Gives.of_ofExcept {x : Except Error α} {a : α} (h : Gives (ofExcept x) a) : x = .ok a := by
  obtain ⟨_, _, _, h⟩ := h
  exact (runs_ofExcept.1 h).2.1.symm

/-- What a session gives in the end, its second part gives on a result of the first. -/
theorem Gives.of_bind {s : Session α} {f : α → Session β} {b : β} (h : Gives (s >>= f) b) :
    ∃ a, Gives s a ∧ Gives (f a) b := by
  obtain ⟨_, _, _, h⟩ := h
  rcases runs_bind.1 h with ⟨e, he, _⟩ | ⟨_, a, _, _, _, hfirst, hsecond⟩
  · cases he
  · exact ⟨a, ⟨_, _, _, hfirst⟩, _, _, _, hsecond⟩

/-- Each of the results of a list of sessions is given by one of them. -/
theorem Gives.of_mapM {f : α → Session β} {l : List α} {bs : List β} (h : Gives (l.mapM f) bs)
    {b : β} (hb : b ∈ bs) : ∃ a ∈ l, Gives (f a) b := by
  induction l generalizing bs with
  | nil =>
    cases gives_pure.1 h
    cases hb
  | cons a rest ih =>
    rw [List.mapM_cons] at h
    obtain ⟨first, hfirst, h⟩ := h.of_bind
    obtain ⟨others, hothers, h⟩ := h.of_bind
    cases gives_pure.1 h
    rcases List.mem_cons.1 hb with rfl | hb
    · exact ⟨a, List.mem_cons_self, hfirst⟩
    · obtain ⟨a', ha', hf⟩ := ih hothers hb
      exact ⟨a', List.mem_cons_of_mem a ha', hf⟩

/-! ## Failures -/

/-- An error that a session fails with on some run. -/
def Fails (s : Session α) (e : Error) : Prop :=
  ∃ caches events caches', s.Runs caches events (.error e) caches'

theorem Fails.of_ofExcept {x : Except Error α} {e : Error} (h : Fails (ofExcept x) e) :
    x = .error e := by
  obtain ⟨_, _, _, h⟩ := h
  exact (runs_ofExcept.1 h).2.1.symm

theorem not_fails_pure (a : α) (e : Error) : ¬Fails (pure a) e := by
  intro h
  cases Fails.of_ofExcept (x := .ok a) h

/-- A session fails in its first part, or in the second one on a result of the first. -/
theorem Fails.of_bind {s : Session α} {f : α → Session β} {e : Error} (h : Fails (s >>= f) e) :
    Fails s e ∨ ∃ a, Gives s a ∧ Fails (f a) e := by
  obtain ⟨_, _, _, h⟩ := h
  rcases runs_bind.1 h with ⟨e', he, hfirst⟩ | ⟨_, a, _, _, _, hfirst, hsecond⟩
  · cases he
    exact .inl ⟨_, _, _, hfirst⟩
  · exact .inr ⟨a, ⟨_, _, _, hfirst⟩, _, _, _, hsecond⟩

/-- A list of sessions fails as one of them does. -/
theorem Fails.of_mapM {f : α → Session β} {l : List α} {e : Error} (h : Fails (l.mapM f) e) :
    ∃ a ∈ l, Fails (f a) e := by
  induction l with
  | nil => exact absurd h (not_fails_pure [] e)
  | cons a rest ih =>
    rw [List.mapM_cons] at h
    rcases h.of_bind with h | ⟨_, _, h⟩
    · exact ⟨a, List.mem_cons_self, h⟩
    rcases h.of_bind with h | ⟨_, _, h⟩
    · obtain ⟨a', ha', hf⟩ := ih h
      exact ⟨a', List.mem_cons_of_mem a ha', hf⟩
    · exact absurd h (not_fails_pure _ e)

/-- Asking for rows fails if the statement cannot be built, or with the failure of the engine. -/
theorem Fails.of_rows {sender : Handle} {statement : Statement} {e : Error}
    (h : Fails (rows sender statement) e) :
    statement.query = .error e ∨ ∃ cause, e.cause? = some cause := by
  obtain ⟨_, _, _, h⟩ := h
  obtain ⟨_, ⟨e', hquery, _, he⟩ | ⟨_, reply, _, _, _, hreply⟩⟩ := runs_rows h
  · cases he
    exact .inl hquery
  · cases reply with
    | ok rows => cases hreply
    | error cause =>
      cases hreply
      exact .inr ⟨cause, rfl⟩

/-! ## Properties that go from the parts to the whole -/

/-- A property that a session has if its parts have it. The second part counts only on results of the
first. -/
structure Closed (P : ∀ {α : Type}, Session α → Prop) : Prop where
  ofExcept : ∀ {α : Type} (x : Except Error α), P (ofExcept x)
  bind : ∀ {α β : Type} {s : Session α} {f : α → Session β}, P s → (∀ a, s.Gives a → P (f a)) →
    P (s >>= f)

namespace Closed

variable {P : ∀ {α : Type}, Session α → Prop}

theorem pure (hP : Closed P) (a : α) : P (Pure.pure a : Session α) := hP.ofExcept (.ok a)

theorem throw (hP : Closed P) (e : Error) : P (MonadExcept.throw e : Session α) :=
  hP.ofExcept (.error e)

theorem map (hP : Closed P) {s : Session α} (hs : P s) (f : α → β) : P (f <$> s) := by
  rw [map_eq_pure_bind]
  exact hP.bind hs fun a _ => hP.pure (f a)

theorem mapM (hP : Closed P) {f : α → Session β} {l : List α} (hf : ∀ a ∈ l, P (f a)) :
    P (l.mapM f) := by
  induction l with
  | nil => exact hP.pure []
  | cons a rest ih =>
    rw [List.mapM_cons]
    refine hP.bind (hf a List.mem_cons_self) fun b _ => ?_
    refine hP.bind (ih fun a' ha' => hf a' (List.mem_cons_of_mem a ha')) fun bs _ => ?_
    exact hP.pure (b :: bs)

theorem forM (hP : Closed P) {f : α → Session Unit} {l : List α} (hf : ∀ a ∈ l, P (f a)) :
    P (l.forM f) := by
  induction l with
  | nil => exact hP.pure ()
  | cons a rest ih =>
    refine hP.bind (hf a List.mem_cons_self) fun _ _ => ?_
    exact ih fun a' ha' => hf a' (List.mem_cons_of_mem a ha')

end Closed

/-- What can be sent goes from the parts to the whole. -/
theorem closed_sends (p : Sent → Prop) : Closed fun s => Sends p s where
  ofExcept x := by
    intro caches
    cases x <;> trivial
  bind hs hf := by
    intro caches
    rw [run_bind]
    refine (hs caches).bind_of_runs ?_
    rintro events ⟨outcome, between⟩ hruns
    cases outcome with
    | error e => trivial
    | ok a => exact hf a ⟨_, _, _, hruns⟩ between

theorem Sends.bind {p : Sent → Prop} {s : Session α} {f : α → Session β} (h : s.Sends p)
    (hf : ∀ a, (f a).Sends p) : (s >>= f).Sends p :=
  (closed_sends p).bind h fun a _ => hf a

/-- A session keeps an invariant of the events so far and of what is kept, on all its runs. -/
def Keeps (inv : List Event → Caches → Prop) (s : Session α) : Prop :=
  ∀ ⦃history caches events outcome caches'⦄, inv history caches →
    s.Runs caches events outcome caches' → inv (history ++ events) caches'

/-- What the parts of a session keep, the session keeps, also where the first part fails. -/
theorem closed_keeps (inv : List Event → Caches → Prop) : Closed fun s => Keeps inv s where
  ofExcept x := by
    intro history caches events outcome caches' h hruns
    obtain ⟨rfl, _, rfl⟩ := runs_ofExcept.1 hruns
    rwa [List.append_nil]
  bind hs hf := by
    intro history caches events outcome caches' h hruns
    rcases runs_bind.1 hruns with ⟨e, _, hs'⟩ | ⟨first, a, between, second, rfl, hs', hf'⟩
    · exact hs h hs'
    · rw [← List.append_assoc]
      exact hf a ⟨_, _, _, hs'⟩ (hs h hs') hf'

end Session

end RecordMapping

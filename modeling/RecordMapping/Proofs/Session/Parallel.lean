import Mathlib.Data.List.Forall2
import RecordMapping.Proofs.Sql.Alike
import RecordMapping.Proofs.Table.Ensuring

/-!
# Two sessions with the same replies

Two sessions go in step if they send the same statements and have results that are related, as long as
neither fails (`Session.InStep`). They are parallel if all that is sent looks the same up to the values
of parameters, unless one fails while only statements on schemas were sent (`Session.Parallel`).
Sessions that go in step are parallel if they go on with parallel ones (`Session.Parallel.of_inStep`).
-/

namespace RecordMapping

/-! ## Going in step -/

/-- Two dialogues send the same until both are done with related results and with the same fields
kept, or until one of them has failed. -/
inductive Dialogue.InStep {α β : Type} (R : α → β → Prop) :
    Dialogue (Except Error α × Caches) → Dialogue (Except Error β × Caches) → Prop where
  | done {a : α} {b : β} (caches : Caches) (h : R a b) :
    InStep R (.done (.ok a, caches)) (.done (.ok b, caches))
  | left (e : Error) (caches : Caches) (d : Dialogue (Except Error β × Caches)) :
    InStep R (.done (.error e, caches)) d
  | right (e : Error) (caches : Caches) (d : Dialogue (Except Error α × Caches)) :
    InStep R d (.done (.error e, caches))
  | fetch (request : Request)
    {next : Except EngineError (List Row) → Dialogue (Except Error α × Caches)}
    {next' : Except EngineError (List Row) → Dialogue (Except Error β × Caches)}
    (h : ∀ reply, InStep R (next reply) (next' reply)) :
    InStep R (.fetch request next) (.fetch request next')
  | execute (request : Request)
    {next : Except EngineError Unit → Dialogue (Except Error α × Caches)}
    {next' : Except EngineError Unit → Dialogue (Except Error β × Caches)}
    (h : ∀ reply, InStep R (next reply) (next' reply)) :
    InStep R (.execute request next) (.execute request next')

namespace Session

variable {α β γ δ : Type}

/-- Two sessions go in step from whatever is kept. -/
def InStep (R : α → β → Prop) (s : Session α) (s' : Session β) : Prop :=
  ∀ caches, Dialogue.InStep R (s.run caches) (s'.run caches)

namespace InStep

variable {R : α → β → Prop}

/-- A session goes in step with itself. -/
theorem refl (s : Session α) : s.InStep (· = ·) s := by
  intro caches
  generalize s.run caches = d
  induction d with
  | done result =>
    obtain ⟨outcome, kept⟩ := result
    cases outcome with
    | error e => exact .left e kept _
    | ok a => exact .done kept rfl
  | fetch request next ih => exact .fetch request ih
  | execute request next ih => exact .execute request ih

theorem ofExcept {x : Except Error α} {y : Except Error β}
    (h : ∀ a b, x = .ok a → y = .ok b → R a b) :
    (Session.ofExcept x).InStep R (Session.ofExcept y) := by
  intro caches
  cases x with
  | error e => exact .left e caches _
  | ok a =>
    cases y with
    | error e => exact .right e caches _
    | ok b => exact .done caches (h a b rfl rfl)

theorem pure {a : α} {b : β} (h : R a b) :
    (Pure.pure a : Session α).InStep R (Pure.pure b : Session β) :=
  fun caches => .done caches h

theorem bind {T : γ → δ → Prop} {s : Session α} {s' : Session β} {f : α → Session γ}
    {g : β → Session δ} (h : s.InStep R s') (hnext : ∀ a b, R a b → (f a).InStep T (g b)) :
    (s >>= f).InStep T (s' >>= g) := by
  intro caches
  rw [run_bind, run_bind]
  generalize s.run caches = d, s'.run caches = d', h caches = hd
  induction hd with
  | done kept hR => exact hnext _ _ hR kept
  | left e kept d => exact .left e kept _
  | right e kept d => exact .right e kept _
  | fetch request _ ih => exact .fetch request ih
  | execute request _ ih => exact .execute request ih

/-- Doing the same for members that are related goes in step if each time does. -/
theorem mapM {P : γ → δ → Prop} {f : γ → Session α} {g : δ → Session β} {l : List γ} {l' : List δ}
    (h : List.Forall₂ P l l') (hf : ∀ c d, P c d → (f c).InStep R (g d)) :
    (l.mapM f).InStep (List.Forall₂ R) (l'.mapM g) := by
  induction h with
  | nil => exact .pure .nil
  | cons hP _ ih =>
    rw [List.mapM_cons, List.mapM_cons]
    exact .bind (hf _ _ hP) fun a b hR => .bind ih fun as bs hall => .pure (.cons hR hall)

end InStep

end Session

/-! ## What is seen of a run -/

/-- What is seen of a statement that was sent, apart from the values of its parameters. -/
structure Outline where
  returnsRows : Bool
  sender : Option Handle
  sql : String
  arity : Nat
  deriving DecidableEq

/-- The outline of a statement that was sent. -/
def Sent.outline (sent : Sent) : Outline where
  returnsRows := match sent with
    | .fetch _ => true
    | .execute _ => false
  sender := sent.request.sender
  sql := sent.request.query.sql
  arity := sent.request.query.params.length

namespace Played

variable {α β : Type}

/-- The outlines of what was sent, in order. -/
def outlines (p : Played α) : List Outline := p.sent.map Sent.outline

/-- A run fails before it has sent anything but statements on schemas, and these are what another run
starts with. -/
structure StopsShort (p : Played (Except Error α × Caches)) (q : Played (Except Error β × Caches)) :
    Prop where
  failed : ∃ e, p.result.1 = .error e
  schema : ∀ sent ∈ p.sent, sent.IsSchema
  starts : p.sent <+: q.sent

/-- The same after statements on schemas that both runs have sent. -/
theorem StopsShort.append {p : Played (Except Error α × Caches)}
    {q : Played (Except Error β × Caches)} (h : p.StopsShort q) {first : List Sent}
    (hfirst : ∀ sent ∈ first, sent.IsSchema) :
    StopsShort { p with sent := first ++ p.sent } { q with sent := first ++ q.sent } where
  failed := h.failed
  schema sent hsent := (List.mem_append.1 hsent).elim (hfirst sent) (h.schema sent)
  starts := (List.prefix_append_right_inj first).2 h.starts

/-- Two runs send the same up to the values of parameters, unless one stops short. -/
def Parallel (p : Played (Except Error α × Caches)) (q : Played (Except Error β × Caches)) : Prop :=
  p.outlines = q.outlines ∨ p.StopsShort q ∨ q.StopsShort p

end Played

/-- What dialogues that go in step come to with the same replies: the same was sent and the same is
left over, unless one of them has failed. -/
theorem Dialogue.InStep.play {α β : Type} {R : α → β → Prop}
    {d : Dialogue (Except Error α × Caches)} {d' : Dialogue (Except Error β × Caches)}
    (h : InStep R d d') (replies : List Reply) :
    (∃ a b caches sent unused, R a b ∧ d.play replies = ⟨(.ok a, caches), sent, unused⟩ ∧
        d'.play replies = ⟨(.ok b, caches), sent, unused⟩) ∨
      ((∃ e, (d.play replies).result.1 = .error e) ∧ (d.play replies).sent <+: (d'.play replies).sent) ∨
      ((∃ e, (d'.play replies).result.1 = .error e) ∧
        (d'.play replies).sent <+: (d.play replies).sent) := by
  induction h generalizing replies with
  | done caches hR => exact .inl ⟨_, _, caches, [], replies, hR, rfl, rfl⟩
  | left e caches d => exact .inr (.inl ⟨⟨e, rfl⟩, List.nil_prefix⟩)
  | right e caches d => exact .inr (.inr ⟨⟨e, rfl⟩, List.nil_prefix⟩)
  | fetch request _ ih =>
    rw [Dialogue.play, Dialogue.play]
    rcases ih (Reply.toFetch replies) replies.tail with
      ⟨a, b, caches, sent, unused, hR, hd, hd'⟩ | ⟨hfail, hsent⟩ | ⟨hfail, hsent⟩
    · rw [hd, hd']
      exact .inl ⟨a, b, caches, _, unused, hR, rfl, rfl⟩
    · exact .inr (.inl ⟨hfail, List.cons_prefix_cons.2 ⟨rfl, hsent⟩⟩)
    · exact .inr (.inr ⟨hfail, List.cons_prefix_cons.2 ⟨rfl, hsent⟩⟩)
  | execute request _ ih =>
    rw [Dialogue.play, Dialogue.play]
    rcases ih (Reply.toExecute replies) replies.tail with
      ⟨a, b, caches, sent, unused, hR, hd, hd'⟩ | ⟨hfail, hsent⟩ | ⟨hfail, hsent⟩
    · rw [hd, hd']
      exact .inl ⟨a, b, caches, _, unused, hR, rfl, rfl⟩
    · exact .inr (.inl ⟨hfail, List.cons_prefix_cons.2 ⟨rfl, hsent⟩⟩)
    · exact .inr (.inr ⟨hfail, List.cons_prefix_cons.2 ⟨rfl, hsent⟩⟩)

/-- What is sent on recorded replies is what can be sent. -/
theorem Dialogue.Sends.of_play {α : Type} {p : Sent → Prop} {d : Dialogue α} (h : d.Sends p)
    (replies : List Reply) : ∀ sent ∈ (d.play replies).sent, p sent := by
  induction d generalizing replies with
  | done a => exact List.forall_mem_nil _
  | fetch request next ih | execute request next ih =>
    rw [play]
    exact List.forall_mem_cons.2 ⟨h.1, ih _ (h.2 _) _⟩

namespace Session

variable {α β γ δ : Type}

/-- A session that goes on with a second one, on recorded replies. -/
theorem play_bind (s : Session α) (f : α → Session β) (caches : Caches) (replies : List Reply) :
    (s >>= f).play caches replies =
      match s.play caches replies with
      | ⟨(.ok a, kept), sent, unused⟩ =>
        let second := (f a).play kept unused
        { second with sent := sent ++ second.sent }
      | ⟨(.error e, kept), sent, unused⟩ => ⟨(.error e, kept), sent, unused⟩ := by
  unfold play
  rw [run_bind, Dialogue.play_bind]
  rcases (s.run caches).play replies with ⟨⟨e | a, kept⟩, sent, unused⟩
  · show Played.mk _ (sent ++ []) _ = _
    rw [List.append_nil]
    rfl
  · rfl

/-- Two sessions have parallel runs, from whatever is kept and on all replies. -/
def Parallel (s : Session α) (s' : Session β) : Prop :=
  ∀ caches replies, (s.play caches replies).Parallel (s'.play caches replies)

/-- What the first part of a session sends is sent first. -/
theorem sent_prefix_bind (s : Session α) (f : α → Session β) (caches : Caches)
    (replies : List Reply) : (s.play caches replies).sent <+: ((s >>= f).play caches replies).sent := by
  rw [play_bind]
  rcases s.play caches replies with ⟨⟨e | a, kept⟩, sent, unused⟩
  · exact List.prefix_rfl
  · exact List.prefix_append _ _

/-- Where the first part of a session fails, nothing more is sent. -/
theorem play_bind_of_error {s : Session α} (f : α → Session β) {caches : Caches}
    {replies : List Reply} (h : ∃ e, (s.play caches replies).result.1 = .error e) :
    (∃ e, ((s >>= f).play caches replies).result.1 = .error e) ∧
      ((s >>= f).play caches replies).sent = (s.play caches replies).sent := by
  obtain ⟨e, he⟩ := h
  rw [play_bind]
  rcases hplay : s.play caches replies with ⟨⟨e' | a, kept⟩, sent, unused⟩
  · exact ⟨⟨e', rfl⟩, rfl⟩
  · rw [hplay] at he
    cases he

theorem play_discard (s : Session α) (caches : Caches) (replies : List Reply) :
    (discard s : Session Unit).play caches replies =
      let played := s.play caches replies
      ⟨(played.result.1.map fun _ => (), played.result.2), played.sent, played.unused⟩ := by
  have hdiscard : (discard s : Session Unit) = s >>= fun _ => pure () := by
    show (fun _ => ()) <$> s = _
    rw [map_eq_pure_bind]
  rw [hdiscard, play_bind]
  rcases s.play caches replies with ⟨⟨e | a, kept⟩, sent, unused⟩
  · rfl
  · show Played.mk _ (sent ++ []) _ = _
    rw [List.append_nil]
    rfl

/-- Asking for rows is to send the one statement. -/
theorem run_rows {sender : Handle} {statement : Statement} {query : Query}
    (h : statement.query = .ok query) (caches : Caches) :
    (rows sender statement).run caches = .fetch ⟨some sender, statement, query, h⟩ fun reply =>
      .done (reply.mapError (.statement query.sql query.params), caches) := by
  have hof : Request.of sender statement = .ok ⟨some sender, statement, query, h⟩ := by
    unfold Request.of
    split
    · next query' hquery' =>
      cases h.symm.trans hquery'
      rfl
    · next e he => cases h.symm.trans he
  unfold rows
  rw [hof]
  refine congrArg (Dialogue.fetch _) (funext fun reply => ?_)
  cases reply <;> rfl

theorem outlines_rows_bind {sender : Handle} {statement : Statement} {query : Query}
    (h : statement.query = .ok query) (read : List Row → Except Error α) (caches : Caches)
    (replies : List Reply) :
    ((rows sender statement >>= fun result => ofExcept (read result)).play caches replies).outlines
      = [⟨true, some sender, query.sql, query.params.length⟩] := by
  unfold play
  rw [run_bind, run_rows h, Dialogue.fetch_bind, Dialogue.play]
  cases Reply.toFetch replies with
  | error e => rfl
  | ok result =>
    show Played.outlines (Played.after _ (((ofExcept (read result)).run caches).play _)) = _
    cases read result <;> rfl

namespace Parallel

theorem ofExcept (x : Except Error α) (y : Except Error β) :
    (Session.ofExcept x).Parallel (Session.ofExcept y) := by
  intro caches replies
  left
  cases x <;> cases y <;> rfl

/-- A session that fails after statements on schemas stops short of one that goes in step with it. -/
theorem stopsShort_bind {s : Session α} {s' : Session β} (f : α → Session γ) (g : β → Session δ)
    {caches : Caches} {replies : List Reply} (hs : s.Sends Sent.IsSchema)
    (hfail : ∃ e, (s.play caches replies).result.1 = .error e)
    (hsent : (s.play caches replies).sent <+: (s'.play caches replies).sent) :
    ((s >>= f).play caches replies).StopsShort ((s' >>= g).play caches replies) := by
  obtain ⟨hfailed, hsame⟩ := play_bind_of_error f hfail
  refine ⟨hfailed, ?_, ?_⟩
  · rw [hsame]
    exact (hs caches).of_play replies
  · rw [hsame]
    exact hsent.trans (sent_prefix_bind s' g caches replies)

/-- It does not matter for this what is made of the results. -/
theorem discard {s : Session α} {s' : Session β} (h : s.Parallel s') :
    (Functor.discard s : Session Unit).Parallel (Functor.discard s') := by
  intro caches replies
  rw [play_discard, play_discard]
  rcases h caches replies with houtlines | ⟨⟨e, he⟩, hschema, hstarts⟩ | ⟨⟨e, he⟩, hschema, hstarts⟩
  · exact .inl houtlines
  · exact .inr (.inl ⟨⟨e, congrArg (Except.map _) he⟩, hschema, hstarts⟩)
  · exact .inr (.inr ⟨⟨e, congrArg (Except.map _) he⟩, hschema, hstarts⟩)

/-- Sessions that go in step, on schemas, and then go on with parallel ones. -/
theorem of_inStep {R : α → β → Prop} {s : Session α} {s' : Session β} {f : α → Session γ}
    {g : β → Session δ} (h : s.InStep R s') (hs : s.Sends Sent.IsSchema)
    (hs' : s'.Sends Sent.IsSchema) (hnext : ∀ a b, R a b → (f a).Parallel (g b)) :
    (s >>= f).Parallel (s' >>= g) := by
  intro caches replies
  rcases (h caches).play replies with
    ⟨a, b, kept, sent, unused, hR, hd, hd'⟩ | ⟨hfail, hsent⟩ | ⟨hfail, hsent⟩
  · have hschema : ∀ x ∈ sent, x.IsSchema := by
      have hplayed := (hs caches).of_play replies
      rwa [hd] at hplayed
    -- the second parts go on with the same replies
    rw [play_bind, play_bind, show s.play caches replies = _ from hd,
      show s'.play caches replies = _ from hd']
    rcases hnext a b hR kept unused with houtlines | hshort | hshort
    · left
      show (sent ++ _).map Sent.outline = (sent ++ _).map Sent.outline
      rw [List.map_append, List.map_append]
      exact congrArg _ houtlines
    · exact .inr (.inl (hshort.append hschema))
    · exact .inr (.inr (hshort.append hschema))
  · exact .inr (.inl (stopsShort_bind f g hs hfail hsent))
  · exact .inr (.inr (stopsShort_bind g f hs' hfail hsent))

/-- Two statements of a handle that look the same up to values, and what is read from the replies. -/
theorem rows (sender : Handle) {statement statement' : Statement} (h : statement.Alike statement')
    (read : List Row → Except Error α) (read' : List Row → Except Error β) :
    (Session.rows sender statement >>= fun result => Session.ofExcept (read result)).Parallel
      (Session.rows sender statement' >>= fun result => Session.ofExcept (read' result)) := by
  obtain ⟨query, query', hquery, hquery', hsql, harity⟩ := h
  intro caches replies
  left
  rw [outlines_rows_bind hquery, outlines_rows_bind hquery', hsql, harity]

end Parallel

end Session

end RecordMapping

import RecordMapping.Session.Basic

/-!
# Dialogues with recorded replies

An engine can be stood in for by a list of replies: each statement takes the next one. What was
sent and what is left over can then be looked at.
-/

namespace RecordMapping

/-- A recorded reply. -/
inductive Reply where
  | rows (rows : List Row)
  /-- The number of rows that a statement affected. Nothing depends on it. -/
  | count
  | failure (error : EngineError)

namespace Reply

/-- What a statement that returns rows receives from a list of replies. -/
def toFetch : List Reply → Except EngineError (List Row)
  | [] => .error (.root "unscripted statement")
  | .rows result :: _ => .ok result
  | .count :: _ => .error (.root "reply is not rows")
  | .failure e :: _ => .error e

/-- What a statement that returns no rows receives from a list of replies. -/
def toExecute : List Reply → Except EngineError Unit
  | [] => .error (.root "unscripted statement")
  | .rows _ :: _ => .error (.root "reply is not a count")
  | .count :: _ => .ok ()
  | .failure e :: _ => .error e

end Reply

/-- A statement that was sent, by the way it was sent. -/
inductive Sent where
  | fetch (request : Request)
  | execute (request : Request)

/-- What was sent. -/
def Sent.request : Sent → Request
  | .fetch request => request
  | .execute request => request

/-- The outcome of a dialogue with recorded replies. -/
structure Played (α : Type) where
  result : α
  /-- The statements, in the order in which they were sent. -/
  sent : List Sent
  /-- The replies that were not used. -/
  unused : List Reply

/-- Adds a statement in front of those that were sent. -/
def Played.after {α : Type} (first : Sent) (p : Played α) : Played α :=
  { p with sent := first :: p.sent }

/-- Runs a dialogue on recorded replies. -/
def Dialogue.play {α : Type} : Dialogue α → List Reply → Played α
  | done a, replies => ⟨a, [], replies⟩
  | fetch request next, replies =>
    ((next (Reply.toFetch replies)).play replies.tail).after (.fetch request)
  | execute request next, replies =>
    ((next (Reply.toExecute replies)).play replies.tail).after (.execute request)

/-- A dialogue that goes on with a second one sends what the first sends, and the second goes on
with the replies that the first has left. -/
theorem Dialogue.play_bind {α β : Type} (d : Dialogue α) (f : α → Dialogue β)
    (replies : List Reply) :
    (d >>= f).play replies =
      let first := d.play replies
      let second := (f first.result).play first.unused
      ⟨second.result, first.sent ++ second.sent, second.unused⟩ := by
  induction d generalizing replies with
  | done a => rfl
  | fetch request next ih =>
    rw [fetch_bind, play, play, ih]
    rfl
  | execute request next ih =>
    rw [execute_bind, play, play, ih]
    rfl

/-- Runs a session on recorded replies, from what is kept at its start. -/
def Session.play {α : Type} (s : Session α) (caches : Caches) (replies : List Reply) :
    Played (Except Error α × Caches) :=
  Dialogue.play (s.run caches) replies

end RecordMapping

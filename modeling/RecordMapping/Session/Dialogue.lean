import RecordMapping.Sql.Statement

/-!
# Dialogues with an engine

An operation that talks to an engine is a dialogue: it is done with a result, or it sends a
statement and goes on with the reply. Nothing is assumed about the replies, so what holds of a
dialogue holds for every engine.
-/

namespace RecordMapping

/-- What tells the handles of tables apart. -/
abbrev Handle := Nat

/-- A statement with what is sent for it. -/
structure Request where
  /-- The handle that sends the statement, unless it is sent for no handle. -/
  sender : Option Handle
  statement : Statement
  query : Query
  built : statement.query = .ok query

/-- The course of an operation, as it depends on the replies of the engine. -/
inductive Dialogue (α : Type) where
  | done (result : α)
  /-- Sends a statement that returns rows. -/
  | fetch (request : Request) (next : Except EngineError (List Row) → Dialogue α)
  /-- Sends a statement that returns none. -/
  | execute (request : Request) (next : Except EngineError Unit → Dialogue α)

namespace Dialogue

variable {α β : Type}

/-- Goes on with a second dialogue, which depends on the result of the first. -/
def bind : Dialogue α → (α → Dialogue β) → Dialogue β
  | done a, f => f a
  | fetch request next, f => fetch request fun reply => (next reply).bind f
  | execute request next, f => execute request fun reply => (next reply).bind f

instance : Monad Dialogue where
  pure := done
  bind := bind

@[simp] theorem pure_eq_done (a : α) : (pure a : Dialogue α) = done a := rfl

@[simp] theorem done_bind (a : α) (f : α → Dialogue β) : (done a >>= f) = f a := rfl

@[simp] theorem fetch_bind (request : Request) (next : Except EngineError (List Row) → Dialogue α)
    (f : α → Dialogue β) :
    (fetch request next >>= f) = fetch request fun reply => next reply >>= f := rfl

@[simp] theorem execute_bind (request : Request) (next : Except EngineError Unit → Dialogue α)
    (f : α → Dialogue β) :
    (execute request next >>= f) = execute request fun reply => next reply >>= f := rfl

/-- Going on with nothing but the result changes nothing. -/
theorem bind_done (d : Dialogue α) : d.bind done = d := by
  induction d with
  | done a => rfl
  | fetch request next ih => exact congrArg (fetch request) (funext ih)
  | execute request next ih => exact congrArg (execute request) (funext ih)

/-- It does not matter how three dialogues in a row are grouped. -/
theorem bind_bind {γ : Type} (d : Dialogue α) (f : α → Dialogue β) (g : β → Dialogue γ) :
    (d.bind f).bind g = d.bind fun a => (f a).bind g := by
  induction d with
  | done a => rfl
  | fetch request next ih => exact congrArg (fetch request) (funext ih)
  | execute request next ih => exact congrArg (execute request) (funext ih)

instance : LawfulMonad Dialogue :=
  LawfulMonad.mk' Dialogue bind_done (fun _ _ => rfl) bind_bind

end Dialogue

end RecordMapping

import Mathlib.Algebra.GroupWithZero.Nat
import Mathlib.Data.List.Forall2
import RecordMapping.Proofs.Session.Trace

/-!
# Before and after a session

What holds before a session, after it has given a result, and after it has failed (`Session.Meets`).
All three speak of the events so far, which end with those of the session, and of what is kept. The
rules go by the parts of a session, and one of them is for a session that does the same for each
member of a list (`Session.Meets.mapM`). How much a session sends is counted in the same way
(`Session.SendsAtMost`).
-/

namespace RecordMapping

/-- What is said of the events so far and of what is kept. -/
abbrev Assertion := List Event → Caches → Prop

namespace Session

variable {α β : Type}

/-- Wherever `P` holds, the session gives only results after which `Q` holds, and fails only with
errors after which `F` holds. -/
structure Meets (P : Assertion) (s : Session α) (Q : α → Assertion) (F : Error → Assertion) :
    Prop where
  given : ∀ {past caches events a caches'}, P past caches →
    s.Runs caches events (.ok a) caches' → Q a (past ++ events) caches'
  failed : ∀ {past caches events e caches'}, P past caches →
    s.Runs caches events (.error e) caches' → F e (past ++ events) caches'

variable {P I : Assertion} {Q : α → Assertion} {F : Error → Assertion} {s : Session α}

/-- What is kept up by a session holds after it, however it ends. -/
theorem Keeps.meets (h : s.Keeps I) : s.Meets I (fun _ => I) fun _ => I where
  given hpre hruns := h hpre hruns
  failed hpre hruns := h hpre hruns

namespace Meets

theorem keeps (h : s.Meets I (fun _ => I) fun _ => I) : s.Keeps I := by
  intro past caches events outcome caches' hpre hruns
  cases outcome with
  | ok a => exact h.given hpre hruns
  | error e => exact h.failed hpre hruns

/-- A run from the start, where no events have come before. -/
theorem of_runs (h : s.Meets P Q F) {caches caches' : Caches} {events : List Event}
    {outcome : Except Error α} (hpre : P [] caches) (hruns : s.Runs caches events outcome caches') :
    (∃ a, outcome = .ok a ∧ Q a events caches') ∨ ∃ e, outcome = .error e ∧ F e events caches' := by
  cases outcome with
  | ok a => exact .inl ⟨a, rfl, h.given hpre hruns⟩
  | error e => exact .inr ⟨e, rfl, h.failed hpre hruns⟩

/-- More may be asked before a session, and less said after it. -/
theorem mono (h : s.Meets P Q F) {P' : Assertion} {Q' : α → Assertion} {F' : Error → Assertion}
    (hpre : ∀ past caches, P' past caches → P past caches)
    (hpost : ∀ a past caches, Q a past caches → Q' a past caches)
    (hfail : ∀ e past caches, F e past caches → F' e past caches) : s.Meets P' Q' F' where
  given hbefore hruns := hpost _ _ _ (h.given (hpre _ _ hbefore) hruns)
  failed hbefore hruns := hfail _ _ _ (h.failed (hpre _ _ hbefore) hruns)

theorem ofExcept {x : Except Error α}
    (hok : ∀ a, x = .ok a → ∀ past caches, P past caches → Q a past caches)
    (herror : ∀ e, x = .error e → ∀ past caches, P past caches → F e past caches) :
    (Session.ofExcept x).Meets P Q F where
  given := by
    intro past caches events a caches' hpre hruns
    obtain ⟨rfl, ha, rfl⟩ := runs_ofExcept.1 hruns
    rw [List.append_nil]
    exact hok a ha.symm past _ hpre
  failed := by
    intro past caches events e caches' hpre hruns
    obtain ⟨rfl, he, rfl⟩ := runs_ofExcept.1 hruns
    rw [List.append_nil]
    exact herror e he.symm past _ hpre

theorem pure {a : α} (h : ∀ past caches, P past caches → Q a past caches) :
    (Pure.pure a : Session α).Meets P Q F := by
  refine ofExcept (x := .ok a) ?_ ?_
  · rintro _ ⟨⟩
    exact h
  · rintro _ ⟨⟩

/-- What holds between two parts is what the second one starts from, on a result of the first. -/
theorem bind {f : α → Session β} {M : α → Assertion} {Q : β → Assertion} (hs : s.Meets P M F)
    (hf : ∀ a, s.Gives a → (f a).Meets (M a) Q F) : (s >>= f).Meets P Q F where
  given := by
    intro past caches events b caches' hpre hruns
    rcases runs_bind.1 hruns with ⟨_, he, _⟩ | ⟨first, a, between, second, rfl, hfirst, hsecond⟩
    · cases he
    · rw [← List.append_assoc]
      exact (hf a ⟨_, _, _, hfirst⟩).given (hs.given hpre hfirst) hsecond
  failed := by
    intro past caches events e caches' hpre hruns
    rcases runs_bind.1 hruns with ⟨_, he, hfirst⟩ | ⟨first, a, between, second, rfl, hfirst, hsecond⟩
    · cases he
      exact hs.failed hpre hfirst
    · rw [← List.append_assoc]
      exact (hf a ⟨_, _, _, hfirst⟩).failed (hs.given hpre hfirst) hsecond

/-- What is said of the events so far, and stays true as more of them follow, holds across a
session. -/
theorem frame (h : s.Meets P Q F) {R : List Event → Prop}
    (hR : ∀ past more, R past → R (past ++ more)) :
    s.Meets (fun past caches => P past caches ∧ R past)
      (fun a past caches => Q a past caches ∧ R past)
      (fun e past caches => F e past caches ∧ R past) where
  given hpre hruns := ⟨h.given hpre.1 hruns, hR _ _ hpre.2⟩
  failed hpre hruns := ⟨h.failed hpre.1 hruns, hR _ _ hpre.2⟩

/-- What follows from all that holds before a session may be taken as given. -/
theorem of_entails {p : Prop} (hp : ∀ past caches, P past caches → p) (h : p → s.Meets P Q F) :
    s.Meets P Q F where
  given hpre hruns := (h (hp _ _ hpre)).given hpre hruns
  failed hpre hruns := (h (hp _ _ hpre)).failed hpre hruns

/-- Doing the same for each member of a list keeps up what each time keeps up, and what is said of
each result holds of all of them in the end. -/
theorem mapM {f : α → Session β} {R : α → β → List Event → Prop}
    (hR : ∀ a b past more, R a b past → R a b (past ++ more)) {l : List α}
    (hf : ∀ a ∈ l, (f a).Meets I (fun b past caches => I past caches ∧ R a b past) F) :
    (l.mapM f).Meets I
      (fun bs past caches => I past caches ∧ List.Forall₂ (fun a b => R a b past) l bs) F := by
  induction l with
  | nil => exact pure fun past caches h => ⟨h, .nil⟩
  | cons a rest ih =>
    rw [List.mapM_cons]
    refine bind (hf a List.mem_cons_self) fun b _ => ?_
    have hrest := (ih fun a' ha' => hf a' (List.mem_cons_of_mem a ha')).frame
      fun past more => hR a b past more
    refine bind (hrest.mono (fun _ _ h => h) (fun _ _ _ h => h) fun _ _ _ h => h.1) fun bs _ => ?_
    refine pure fun past caches h => ?_
    obtain ⟨⟨hI, hbs⟩, hb⟩ := h
    exact ⟨hI, .cons hb hbs⟩

end Meets

/-! ## How much is sent -/

/-- A session sends so many statements at most, whatever is replied to them. -/
def SendsAtMost (n : Nat) (s : Session α) : Prop :=
  ∀ ⦃caches events outcome caches'⦄, s.Runs caches events outcome caches' → events.length ≤ n

namespace SendsAtMost

theorem mono {m n : Nat} (h : s.SendsAtMost m) (hle : m ≤ n) : s.SendsAtMost n :=
  fun _ _ _ _ hruns => Nat.le_trans (h hruns) hle

theorem ofExcept (x : Except Error α) : (Session.ofExcept x).SendsAtMost 0 := by
  intro caches events outcome caches' hruns
  obtain ⟨rfl, _, _⟩ := runs_ofExcept.1 hruns
  exact Nat.le_refl 0

/-- What the second part sends is counted on results of the first. -/
theorem bind {m n : Nat} {f : α → Session β} (hs : s.SendsAtMost m)
    (hf : ∀ a, s.Gives a → (f a).SendsAtMost n) : (s >>= f).SendsAtMost (m + n) := by
  intro caches events outcome caches' hruns
  rcases runs_bind.1 hruns with ⟨_, _, hfirst⟩ | ⟨first, a, _, second, rfl, hfirst, hsecond⟩
  · exact Nat.le_add_right_of_le (hs hfirst)
  · rw [List.length_append]
    exact Nat.add_le_add (hs hfirst) (hf a ⟨_, _, _, hfirst⟩ hsecond)

theorem mapM {f : α → Session β} {cost : α → Nat} {l : List α}
    (hf : ∀ a ∈ l, (f a).SendsAtMost (cost a)) : (l.mapM f).SendsAtMost (l.map cost).sum := by
  induction l with
  | nil => exact ofExcept (.ok [])
  | cons a rest ih =>
    rw [List.mapM_cons, List.map_cons, List.sum_cons]
    refine bind (hf a List.mem_cons_self) fun b _ => ?_
    exact bind (n := 0) (ih fun a' ha' => hf a' (List.mem_cons_of_mem a ha'))
      fun bs _ => ofExcept (.ok (b :: bs))

end SendsAtMost

end Session

end RecordMapping

/-!
# Things with names

Records, rows and the like are lists of named things, in an order that matters. A thing is looked
up by the first place that has its name. Inserting keeps the place of a name that is there
already, and so keeps names distinct.
-/

namespace RecordMapping

/-- Things with names, in order. -/
abbrev Named (α : Type) := List (String × α)

namespace Named

variable {α : Type}

/-- The first thing with a given name. -/
def get? : Named α → String → Option α
  | [], _ => none
  | (n, a) :: rest, name => if n = name then some a else get? rest name

/-- Whether there is a thing with a given name. -/
def contains (l : Named α) (name : String) : Bool := (l.get? name).isSome

/-- The names, in order. -/
def names (l : Named α) : List String := l.map Prod.fst

/-- Puts a thing in the place of the first one with its name, or at the end. -/
def insert (name : String) (a : α) : Named α → Named α
  | [] => [(name, a)]
  | (n, b) :: rest => if n = name then (name, a) :: rest else (n, b) :: insert name a rest

/-- Takes the first thing with a given name out; the others keep their order. -/
def take (name : String) : Named α → Option α × Named α
  | [] => (none, [])
  | (n, a) :: rest =>
    if n = name then (some a, rest) else ((take name rest).1, (n, a) :: (take name rest).2)

/-- The list without the first thing with a given name. -/
def erase (name : String) (l : Named α) : Named α := (take name l).2

/-- The things of a list, inserted one after the other. -/
def ofPairs (pairs : List (String × α)) : Named α :=
  pairs.foldl (fun l (name, a) => insert name a l) []

/-! ## What the operations do -/

@[simp] theorem get?_nil (name : String) : get? ([] : Named α) name = none := rfl

theorem get?_cons (n : String) (a : α) (l : Named α) (name : String) :
    get? ((n, a) :: l) name = if n = name then some a else get? l name := rfl

@[simp] theorem names_nil : names ([] : Named α) = [] := rfl

@[simp] theorem names_cons (n : String) (a : α) (l : Named α) :
    names ((n, a) :: l) = n :: names l := rfl

/-- A name has the thing that was inserted under it, and other names keep theirs. -/
theorem get?_insert (name other : String) (a : α) (l : Named α) :
    get? (insert name a l) other = if name = other then some a else get? l other := by
  induction l with
  | nil => rfl
  | cons p rest ih =>
    obtain ⟨n, b⟩ := p
    by_cases hn : n = name
    · subst hn
      rw [insert, if_pos rfl, get?_cons, get?_cons]
      split <;> rfl
    · rw [insert, if_neg hn, get?_cons, get?_cons, ih]
      by_cases ho : n = other
      · have : ¬name = other := fun h => hn (ho.trans h.symm)
        rw [if_pos ho, if_neg this, if_pos ho]
      · rw [if_neg ho, if_neg ho]

/-- Inserting leaves the names as they are, or adds a name at the end. -/
theorem names_insert (name : String) (a : α) (l : Named α) :
    names (insert name a l) = if name ∈ names l then names l else names l ++ [name] := by
  induction l with
  | nil => rfl
  | cons p rest ih =>
    obtain ⟨n, b⟩ := p
    by_cases hn : n = name
    · subst hn
      simp [insert]
    · have : ¬name = n := fun h => hn h.symm
      rw [insert, if_neg hn, names_cons, names_cons, ih]
      simp only [List.mem_cons, this, false_or]
      split <;> rfl

/-- What is taken out is what is looked up. -/
theorem take_fst (name : String) (l : Named α) : (take name l).1 = get? l name := by
  induction l with
  | nil => rfl
  | cons p rest ih =>
    obtain ⟨n, a⟩ := p
    rw [take, get?_cons]
    split
    · rfl
    · exact ih

/-- Taking a thing out leaves the other names alone. -/
theorem get?_erase_of_ne {name other : String} (h : name ≠ other) (l : Named α) :
    get? (erase name l) other = get? l other := by
  induction l with
  | nil => rfl
  | cons p rest ih =>
    obtain ⟨n, a⟩ := p
    rw [erase] at ih ⊢
    rw [take, get?_cons]
    by_cases hn : n = name
    · rw [if_pos hn, if_neg (fun ho => h (hn.symm.trans ho))]
    · rw [if_neg hn, get?_cons, ih]

end Named

end RecordMapping

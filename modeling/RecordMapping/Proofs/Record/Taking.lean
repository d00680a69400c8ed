import RecordMapping.Proofs.Record.Reading

/-!
# Rows with several columns of one name

A row may have several columns of one name: a column of the table, and the object of a joined table
beside it. They are taken out one after the other, in the order of the row, so what a field reads
depends on how many of that name were taken before it (`decode_eq_gather_drawn`).
-/

namespace RecordMapping

namespace Named

variable {α : Type}

/-- All things with a given name, in order. -/
def all (l : Named α) (name : String) : List α := (l.filter (·.1 = name)).map Prod.snd

@[simp] theorem all_nil (name : String) : all ([] : Named α) name = [] := rfl

theorem all_cons (n : String) (a : α) (l : Named α) (name : String) :
    all ((n, a) :: l) name = if n = name then a :: all l name else all l name := by
  unfold all
  by_cases hn : n = name
  · rw [if_pos hn, List.filter_cons_of_pos (by simpa using hn), List.map_cons]
  · rw [if_neg hn, List.filter_cons_of_neg (by simpa using hn)]

theorem all_append (l l' : Named α) (name : String) :
    all (l ++ l') name = all l name ++ all l' name := by
  unfold all
  rw [List.filter_append, List.map_append]

theorem get?_eq_head?_all (l : Named α) (name : String) : l.get? name = (l.all name).head? := by
  induction l with
  | nil => rfl
  | cons p rest ih =>
    obtain ⟨n, a⟩ := p
    rw [get?_cons, all_cons]
    split
    · rfl
    · exact ih

theorem length_all (l : Named α) (name : String) : (l.all name).length = l.names.count name := by
  induction l with
  | nil => rfl
  | cons p rest ih =>
    obtain ⟨n, a⟩ := p
    rw [all_cons, names_cons, List.count_cons]
    by_cases hn : n = name
    · simp [hn, ih]
    · simp [hn, ih]

/-- Taking a thing out leaves the later ones of its name, and all of other names. -/
theorem all_erase (name other : String) (l : Named α) :
    (erase name l).all other = if name = other then (l.all other).tail else l.all other := by
  induction l with
  | nil => simp [erase, take]
  | cons p rest ih =>
    obtain ⟨n, a⟩ := p
    rw [erase] at ih ⊢
    rw [take]
    by_cases hn : n = name
    · subst hn
      rw [if_pos rfl, all_cons]
      by_cases ho : n = other
      · rw [if_pos ho, if_pos ho, List.tail_cons]
      · rw [if_neg ho, if_neg ho]
    · rw [if_neg hn, all_cons, all_cons, ih]
      by_cases ho : n = other
      · have hne : name ≠ other := fun h => hn (ho.trans h.symm)
        rw [if_pos ho, if_neg hne, if_pos ho, if_neg hne]
      · rw [if_neg ho, if_neg ho]

/-- What is left when things with the given names are taken out, one after the other. -/
def eraseAll (names : List String) (l : Named α) : Named α :=
  names.foldl (fun l name => erase name l) l

theorem eraseAll_append (first second : List String) (l : Named α) :
    eraseAll (first ++ second) l = eraseAll second (eraseAll first l) :=
  List.foldl_append

/-- As many things of a name are gone as were taken out under it. -/
theorem all_eraseAll (names : List String) (l : Named α) (name : String) :
    (eraseAll names l).all name = (l.all name).drop (names.count name) := by
  induction names generalizing l with
  | nil => rfl
  | cons n rest ih =>
    rw [eraseAll, List.foldl_cons, ← eraseAll, ih, all_erase, List.count_cons]
    by_cases hn : n = name
    · rw [if_pos hn, hn, beq_self_eq_true, if_pos rfl, ← List.drop_one, List.drop_drop,
        Nat.add_comm]
    · rw [if_neg hn, if_neg (by simpa using hn), Nat.add_zero]

/-- The next thing of a name is the one after those that were taken out under it. -/
theorem get?_eraseAll (names : List String) (l : Named α) (name : String) :
    (eraseAll names l).get? name = (l.all name)[names.count name]? := by
  rw [get?_eq_head?_all, all_eraseAll, List.head?_drop]

end Named

/-! ## What fields take out of a row -/

/-- The row that is left when columns of the given names are taken out, one after the other. -/
def Row.without (row : Row) (names : List String) : Row :=
  { row with columns := row.columns.eraseAll names }

theorem Row.without_without (row : Row) (first second : List String) :
    (row.without first).without second = row.without (first ++ second) :=
  congrArg (Row.mk row.index) (Named.eraseAll_append first second row.columns).symm

theorem Row.take_eq (row : Row) (name : String) :
    row.take name = (row.get? name, row.without [name]) :=
  Prod.ext (Named.take_fst name row.columns) rfl

/-- The column that a name means after columns of the given names were taken out. -/
def Row.drawn (row : Row) (taken : List String) (name : String) : Option Datum :=
  (row.columns.all name)[taken.count name]?

theorem Row.get?_without (row : Row) (taken : List String) (name : String) :
    (row.without taken).get? name = row.drawn taken name :=
  Named.get?_eraseAll taken row.columns name

/-- The names under which a field takes columns out of a row, in order: that of its column, and its
own if it has an object. -/
def takenBy (readers : Readers) (field : FieldSpec) : List String :=
  if readers.contains field.name then [field.column, field.name] else [field.column]

/-- The value of a field with a reader, by what was taken as its object. An object in text is read,
and anything else counts as none. -/
def objectValue (name : String) (read : Json → Except Error Record) (object : Option Datum) :
    Except Error (Option Value) :=
  match object with
  | some (.text (some text)) => (readText name read text).map some
  | _ => .ok none

/-- The value of a field whose column and object are given. -/
def rowValue (readers : Readers) (field : FieldSpec) (physical object : Option Datum) :
    Except Error (Option Value) :=
  match readers.get? field.name with
  | some read => objectValue field.name read object
  | none =>
    match physical with
    | some d => field.load d
    | none => .ok none

/-- A field takes its columns out, and reads what it took. -/
theorem decodeField_eq (readers : Readers) (field : FieldSpec) (row : Row) :
    decodeField readers field row
      = (rowValue readers field (row.get? field.column)
          ((row.without [field.column]).get? field.name)).map
          (·, row.without (takenBy readers field)) := by
  unfold decodeField rowValue takenBy Named.contains
  rw [Row.take_eq]
  cases hread : readers.get? field.name with
  | none =>
    cases row.get? field.column <;> rfl
  | some read =>
    simp only [Row.take_eq, Row.without_without, Option.isSome_some, if_true]
    generalize (row.without [field.column]).get? field.name = object
    rcases object with _ | d
    · rfl
    · -- only text is read as an object
      cases d with
      | text text? =>
        cases text? with
        | none => rfl
        | some text =>
          show (readText field.name read text).map _ = ((readText field.name read text).map _).map _
          cases readText field.name read text <;> rfl
      | boolean _ | int32 _ | int64 _ | uint32 _ | uint64 _ | float _ | double _ | binary _ => rfl

/-- The names under which columns are taken out before a field is read: that of the identifier, and
those of the fields before it. -/
def takenBefore (readers : Readers) (fields : List FieldSpec) (field : FieldSpec) : List String :=
  idName :: (fields.takeWhile (·.name ≠ field.name)).flatMap (takenBy readers)

/-- The value of a field of a row, by what is taken out before it. -/
def drawnValue (readers : Readers) (fields : List FieldSpec) (row : Row) (field : FieldSpec) :
    Except Error (Option Value) :=
  rowValue readers field (row.drawn (takenBefore readers fields field) field.column)
    (row.drawn (takenBefore readers fields field ++ [field.column]) field.name)

theorem takeWhile_name_ne {before : List FieldSpec} {field : FieldSpec} {rest : List FieldSpec}
    (h : (specNames (before ++ field :: rest)).Nodup) :
    (before ++ field :: rest).takeWhile (·.name ≠ field.name) = before := by
  have hbefore : ∀ f ∈ before, decide (f.name ≠ field.name) = true := by
    intro f hf
    rw [specNames, List.map_append, List.nodup_append] at h
    refine decide_eq_true (h.2.2 f.name (List.mem_map_of_mem hf) field.name ?_)
    exact List.mem_cons_self
  rw [List.takeWhile_append_of_pos hbefore, List.takeWhile_cons_of_neg (by simp), List.append_nil]

/-- Reading the fields of a row one after the other asks each for what is left for it. -/
theorem decodeFields_eq_gather_drawn (readers : Readers) (row : Row) (before : List FieldSpec)
    {rest : List FieldSpec} (hnodup : (specNames (before ++ rest)).Nodup) (record : Record) :
    decodeFields readers rest (row.without (idName :: before.flatMap (takenBy readers))) record
      = gather (drawnValue readers (before ++ rest) row) rest record := by
  induction rest generalizing before record with
  | nil => rfl
  | cons field rest ih =>
    have hvalue : rowValue readers field
        ((row.without (idName :: before.flatMap (takenBy readers))).get? field.column)
        (((row.without (idName :: before.flatMap (takenBy readers))).without
          [field.column]).get? field.name)
        = drawnValue readers (before ++ field :: rest) row field := by
      rw [Row.without_without, Row.get?_without, Row.get?_without, drawnValue, takenBefore,
        takeWhile_name_ne hnodup]
    rw [decodeFields, gather, decodeField_eq, hvalue]
    cases drawnValue readers (before ++ field :: rest) row field with
    | error e => rfl
    | ok value =>
      -- the field joins those before it, and has taken its names from the row
      have happend : before ++ field :: rest = (before ++ [field]) ++ rest := by simp
      rw [happend] at hnodup ⊢
      have := ih (before ++ [field]) hnodup (assign field value record)
      rw [List.flatMap_append, List.flatMap_singleton] at this
      refine Eq.trans ?_ this
      show decodeFields readers rest ((row.without _).without _) _ = _
      rw [Row.without_without]
      rfl

/-- A row is read by its identifier and by what each field draws from it. -/
theorem decode_eq_gather_drawn (fields : FieldSet) (embedded : List Embedded) (row : Row) :
    decode fields embedded row
      = gather (drawnValue (Embedded.readers embedded) fields.specs row) fields.specs
          (assignId ((row.get? idName).bind Datum.integer?) []) := by
  have := decodeFields_eq_gather_drawn (Embedded.readers embedded) row [] fields.nodup
    (assignId ((row.get? idName).bind Datum.integer?) [])
  rw [List.nil_append, List.flatMap_nil] at this
  rw [← this]
  unfold decode
  rw [Row.take_eq]

/-- A row cannot be read because of one of its fields. -/
theorem gather_eq_error {value : FieldSpec → Except Error (Option Value)} {fields : List FieldSpec}
    {start : Record} {e : Error} (h : gather value fields start = .error e) :
    ∃ f ∈ fields, value f = .error e := by
  induction fields generalizing start with
  | nil => cases h
  | cons field rest ih =>
    rw [gather] at h
    cases hvalue : value field with
    | error e' =>
      rw [hvalue] at h
      cases h
      exact ⟨field, List.mem_cons_self, hvalue⟩
    | ok v =>
      rw [hvalue] at h
      obtain ⟨f, hf, hfvalue⟩ := ih h
      exact ⟨f, List.mem_cons_of_mem field hf, hfvalue⟩

end RecordMapping

import RecordMapping.Proofs.Session.Parallel
import RecordMapping.Proofs.Table.Agreement
import RecordMapping.Proofs.Table.Writing

/-!
# Operations on values of the same kinds

Two operations that differ only in values, and in these not by kind, send statements of the same text
with equally many parameters, on all replies (`Operation.parallel_of_sameKinds`): what a record
requires of a table depends on the kinds of its values, and so do the shapes of the statements that
write it or that it filters. A value may be refused where another one of its kind is not. Then the
operation fails before its own statement.
-/

namespace RecordMapping

/-! ## What a record calls for -/

/-- The type that values of a kind have by themselves. -/
def Kind.type? : Kind → Option FieldType
  | .null | .record _ => none
  | .integer | .number => some .number
  | .text _ => some .string
  | .boolean => some .boolean
  | .date => some .date
  | .object => some .object
  | .array => some .array

theorem FieldType.ofValue?_eq_type? (v : Value) : ofValue? v = v.kind.type? := by
  cases v <;> rfl

/-- Records with the same kinds call for the same fields. -/
theorem FieldSet.deduce_congr {a b : Record} (h : List.Forall₂ SameKind a b) {x y : FieldSet}
    (hx : deduce a = .ok x) (hy : deduce b = .ok y) : x = y := by
  obtain ⟨specs, hspecs, hx⟩ := bind_eq_ok.1 hx
  obtain ⟨specs', hspecs', hy⟩ := bind_eq_ok.1 hy
  cases hx
  cases hy
  have hall : List.Forall₂ (· = ·) specs specs' := by
    refine forall₂_of_mapM h ?_ hspecs hspecs'
    rintro ⟨name, v⟩ ⟨_, w⟩ spec spec' ⟨rfl, hkind⟩ hspec hspec'
    rw [eq_calledFor?_of_deduceSpec hspec, eq_calledFor?_of_deduceSpec hspec', calledFor?, calledFor?,
      FieldType.ofValue?_eq_type?, FieldType.ofValue?_eq_type?, hkind]
  rw [List.forall₂_eq_eq_eq] at hall
  rw [hall]

theorem Table.requiredFor_congr {t : Table} {a b : Record} (h : a.kinds = b.kinds)
    {x y : FieldSet} (hx : t.requiredFor a = .ok x) (hy : t.requiredFor b = .ok y) : x = y := by
  obtain ⟨deduced, hdeduced, rfl⟩ := map_eq_ok.1 hx
  obtain ⟨deduced', hdeduced', rfl⟩ := map_eq_ok.1 hy
  refine congrArg _ (FieldSet.deduce_congr ?_ hdeduced hdeduced')
  refine List.rel_filter ?_ (Record.kinds_eq_iff.1 h)
  rintro ⟨name, v⟩ ⟨_, w⟩ ⟨rfl, _⟩
  exact Iff.rfl

/-! ## What is written -/

/-- Records with the same kinds have the same names. -/
theorem Record.contains_congr {a b : Record} (h : a.kinds = b.kinds) (name : String) :
    a.contains name = b.contains name := by
  have hsame := kinds_eq_iff.1 h
  clear h
  unfold Named.contains
  induction hsame with
  | nil => rfl
  | @cons p q _ _ hpair _ ih =>
    obtain ⟨n, v⟩ := p
    obtain ⟨_, w⟩ := q
    obtain ⟨rfl, _⟩ := hpair
    rw [Named.get?_cons, Named.get?_cons]
    split
    · rfl
    · exact ih

/-- Values for the same columns, which all have physical ones. -/
structure WrittenAlike (x y : Named Param) : Prop where
  names : x.names = y.names
  data : ∃ data data', Param.data (x.map Prod.snd) = .ok data ∧
    Param.data (y.map Prod.snd) = .ok data' ∧ data.length = data'.length

theorem names_of_stores {given : List (FieldSpec × Value)} {stored : Named Datum}
    (h : List.Forall₂ Stores given stored) :
    stored.names = (given.map Prod.fst).map FieldSpec.column := by
  induction h with
  | nil => rfl
  | cons hstores _ ih => rw [Named.names_cons, ih, hstores.1, List.map_cons, List.map_cons]

/-- Records with the same kinds are written to the same columns. -/
theorem writtenAlike_encode {fields : FieldSet} {a b : Record} (h : a.kinds = b.kinds)
    {x y : Named Param} (hx : encode fields a = .ok x) (hy : encode fields b = .ok y) :
    WrittenAlike x y := by
  obtain ⟨stored, hstored, hxnames, hxdata⟩ := exists_stored_of_encode hx
  obtain ⟨stored', hstored', hynames, hydata⟩ := exists_stored_of_encode hy
  have hnames : stored.names = stored'.names := by
    rw [names_of_stores hstored, names_of_stores hstored', FieldSet.map_fst_given,
      FieldSet.map_fst_given]
    simp only [Record.contains_congr h]
  refine ⟨hxnames.symm.trans (hnames.trans hynames), _, _, hxdata, hydata, ?_⟩
  have hlength := congrArg List.length hnames
  rwa [Named.names, Named.names, List.length_map, List.length_map,
    ← List.length_map Prod.snd, ← List.length_map Prod.snd] at hlength

namespace WrittenAlike

variable {x y : Named Param}

theorem insert (h : WrittenAlike x y) (table : String) :
    (Statement.insert ⟨table, x⟩).Alike (.insert ⟨table, y⟩) := by
  obtain ⟨data, data', hdata, hdata', hlength⟩ := h.data
  exact ⟨_, _, Insert.query_eq hdata, Insert.query_eq hdata', by rw [h.names], hlength⟩

/-- The identifiers of the rows may differ. -/
theorem update (h : WrittenAlike x y) (table : String) (n n' : Int64) :
    (Statement.update ⟨table, x, [hasId n]⟩).Alike (.update ⟨table, y, [hasId n']⟩) := by
  obtain ⟨data, data', hdata, hdata', hlength⟩ := h.data
  refine ⟨_, _, Update.query_eq hdata, Update.query_eq hdata', by rw [h.names], ?_⟩
  rw [List.length_append, List.length_append, hlength]
  rfl

theorem isEmpty_eq (h : WrittenAlike x y) : x.isEmpty = y.isEmpty := by
  have hlength := congrArg List.length h.names
  rw [Named.names, Named.names, List.length_map, List.length_map] at hlength
  cases x <;> cases y <;> simp_all

end WrittenAlike

namespace Table

variable {t : Table} {a b : Record}

/-! ## Writes -/

/-- Preparing to write records with the same kinds goes in step. -/
theorem inStep_prepare (h : a.kinds = b.kinds) :
    (t.prepare a).InStep (fun p q => p.1 = q.1 ∧ WrittenAlike p.2 q.2) (t.prepare b) := by
  refine .bind (.ofExcept fun x y hx hy => requiredFor_congr h hx hy) ?_
  rintro required _ rfl
  refine .bind (.refl (t.ensure required)) ?_
  rintro fields _ rfl
  refine .bind (.ofExcept fun x y hx hy => writtenAlike_encode h hx hy) ?_
  exact fun x y hxy => .pure ⟨rfl, hxy⟩

theorem parallel_insert (h : a.kinds = b.kinds) : (t.insert a).Parallel (t.insert b) := by
  rw [insert, insert]
  refine .of_inStep (inStep_prepare h) (t.sends_prepare a) (t.sends_prepare b) ?_
  rintro ⟨fields, x⟩ ⟨_, y⟩ ⟨rfl, hwritten⟩
  exact .rows t.handle (hwritten.insert t.name) _ _

/-- Rows are looked up by identifier in the same way. -/
theorem parallel_findRow (n n' : Int64) : (t.findRow n).Parallel (t.findRow n') := by
  refine .of_inStep (.refl t.live) t.sends_live t.sends_live ?_
  rintro live _ rfl
  cases live with
  | none => exact .ofExcept (.ok none) (.ok none)
  | some fields =>
    have hid : Filter.AlikeAll [hasId n] [hasId n'] := .cons (.equal _ _ ⟨_, rfl⟩ ⟨_, rfl⟩) .nil
    exact .rows t.handle (Select.Alike.of_filters hid).statement _ _

theorem parallel_update {id id' : Value} (hid : id.lookupId?.isSome = id'.lookupId?.isSome)
    (h : a.kinds = b.kinds) : (t.update id a).Parallel (t.update id' b) := by
  cases hn : id.lookupId? with
  | none =>
    cases hn' : id'.lookupId? with
    | none =>
      rw [update_eq_pure hn, update_eq_pure hn']
      exact .ofExcept (.ok none) (.ok none)
    | some n' => simp [hn, hn'] at hid
  | some n =>
    cases hn' : id'.lookupId? with
    | none => simp [hn, hn'] at hid
    | some n' =>
      rw [update_eq hn, update_eq hn']
      refine .of_inStep (inStep_prepare h) (t.sends_prepare a) (t.sends_prepare b) ?_
      rintro ⟨fields, x⟩ ⟨_, y⟩ ⟨rfl, hwritten⟩
      show (t.updateRow n fields x).Parallel (t.updateRow n' fields y)
      unfold updateRow
      rw [← hwritten.isEmpty_eq]
      split
      · exact parallel_findRow n n'
      · exact .rows t.handle (hwritten.update t.name n n') _ _

/-! ## Lists -/

/-- Lists for which the statements are alike. -/
theorem parallel_listing {lookup : Session (Option FieldSet)} (hlookup : lookup.Sends Sent.IsSchema)
    {plan plan' : FieldSet → Session (Statement × List Embedded)}
    (hplan : ∀ fields, (plan fields).InStep (fun p q => p.1.Alike q.1) (plan' fields))
    (hsends : ∀ fields, (plan fields).Sends Sent.IsSchema)
    (hsends' : ∀ fields, (plan' fields).Sends Sent.IsSchema) :
    (t.listing lookup plan).Parallel (t.listing lookup plan') := by
  refine .of_inStep (.refl lookup) hlookup hlookup ?_
  rintro live _ rfl
  cases live with
  | none => exact .ofExcept (.ok []) (.ok [])
  | some fields =>
    refine .of_inStep (hplan fields) (hsends fields) (hsends' fields) fun p q halike => ?_
    exact .rows t.handle halike _ _

/-- What is asked by filters with the same kinds differs in identifiers alone. -/
theorem rel_condition? (h : a.kinds = b.kinds) {asked asked' : Asked}
    (ha : Record.asked? a = some asked) (hb : Record.asked? b = some asked') (column : String) :
    Option.Rel Filter.Alike (asked.condition? column) (asked'.condition? column) := by
  have halike : Filter.AlikeAll (asked.condition? idName).toList
      (asked'.condition? idName).toList :=
    (Clause.alike_compile h (Clause.compile_of_asked ha .empty)
      (Clause.compile_of_asked hb .empty)).predicates
  cases asked <;> cases asked'
  case anything.anything => exact .none
  case noIdentifier.noIdentifier => exact .some (.isNull none column)
  case identifier.identifier => exact .some (.equal none column ⟨_, rfl⟩ ⟨_, rfl⟩)
  all_goals
    -- conditions on the identifier that are not alike
    rcases halike with _ | ⟨⟨⟩, _⟩

/-- Conditions that stand for references differ in identifiers alone. -/
theorem rel_localReference {j j' : ReferenceJoin} (h : Clause.JoinsAlike j j')
    {condition condition' : Option Filter} (hj : t.localReference j = .ok condition)
    (hj' : t.localReference j' = .ok condition') : Option.Rel Filter.Alike condition condition' := by
  obtain ⟨asked, hasked, rfl⟩ := localReference_eq_ok_iff.1 hj
  obtain ⟨asked', hasked', rfl⟩ := localReference_eq_ok_iff.1 hj'
  rw [h.1]
  exact rel_condition? h.2 hasked hasked' j'.field.column

theorem inStep_findPlan (h : a.kinds = b.kinds) (fields : FieldSet) :
    (t.findPlan a fields).InStep (fun p q => p.1.Alike q.1) (t.findPlan b fields) := by
  refine .bind (.ofExcept fun x y hx hy => Clause.alike_compile h hx hy) fun clause clause' hclause => ?_
  refine .bind (.ofExcept fun x y hx hy => forall₂_of_mapM hclause.joins
    (fun j j' c c' hj hc hc' => rel_localReference hj hc hc') hx hy) fun conditions conditions' hall => ?_
  have hreferences : Filter.AlikeAll (conditions.filterMap id) (conditions'.filterMap id) :=
    Filter.alikeAll_iff.2 (List.rel_filterMap (fun _ _ hc => hc) hall)
  exact .pure (Select.Alike.of_filters (hclause.predicates.append hreferences)).statement

end Table

/-! ## Relational queries -/

namespace Plan

variable {registry : Registry}

/-- Planning along the same reference, with filters of the same kinds, goes in step. -/
theorem inStep_join (depth : Nat) (owner : String) {j j' : ReferenceJoin}
    (h : Clause.JoinsAlike j j') :
    (join registry depth owner j).InStep PlannedJoin.Alike (join registry depth owner j') := by
  induction depth generalizing owner j j' with
  | zero =>
    intro caches
    exact .left _ caches _
  | succ depth ih =>
    obtain ⟨field, filter⟩ := j
    obtain ⟨_, filter'⟩ := j'
    obtain ⟨rfl, hkinds⟩ := h
    refine .bind (.refl (Session.ofExcept (registry.resolve owner field))) ?_
    rintro target _ rfl
    refine .bind (.refl target.schema) ?_
    rintro fields _ rfl
    refine .bind (.ofExcept fun x y hx hy => Clause.alike_compile hkinds hx hy) ?_
    intro clause clause' hclause
    refine .bind (.mapM hclause.joins fun _ _ hbelow => ih target.name hbelow) ?_
    intro joins joins' hjoins
    exact .pure (.mk field target.name fields hclause.predicates (PlannedJoin.alikeAll_iff.2 hjoins))

theorem inStep_make {a b : Record} (h : a.kinds = b.kinds) (table : String) (fields : FieldSet) :
    (make registry table fields a).InStep Alike (make registry table fields b) := by
  refine .bind (.ofExcept fun x y hx hy => Clause.alike_compile h hx hy) fun clause clause' hclause => ?_
  refine .bind (.mapM hclause.joins fun _ _ hbelow => inStep_join maxDepth table hbelow) ?_
  intro joins joins' hjoins
  exact .pure ⟨rfl, rfl, hclause.predicates, PlannedJoin.alikeAll_iff.2 hjoins⟩

end Plan

theorem Table.inStep_relatedPlan {t : Table} {a b : Record} (registry : Registry)
    (h : a.kinds = b.kinds) (fields : FieldSet) :
    (t.relatedPlan registry a fields).InStep (fun p q => p.1.Alike q.1)
      (t.relatedPlan registry b fields) := by
  refine .bind (R := fun x y => x.select.Alike y.select) (.bind (Plan.inStep_make h t.name fields)
    fun plan plan' hplan => .pure hplan.select) ?_
  exact fun x y hselect => .pure hselect.statement

/-! ## Operations -/

/-- The same operation on the same table, with records that have the same kinds. -/
inductive Operation.SameKinds : Operation → Operation → Prop where
  | insert (t : Table) {a b : Record} (h : a.kinds = b.kinds) : SameKinds (.insert t a) (.insert t b)
  | update (t : Table) {id id' : Value} (hid : id.lookupId?.isSome = id'.lookupId?.isSome)
    {a b : Record} (h : a.kinds = b.kinds) : SameKinds (.update t id a) (.update t id' b)
  | find (t : Table) {a b : Record} (h : a.kinds = b.kinds) : SameKinds (.find t a) (.find t b)
  | findRelated (t : Table) (registry : Registry) {a b : Record} (h : a.kinds = b.kinds) :
    SameKinds (.findRelated t registry a) (.findRelated t registry b)

/-- Operations on values of the same kinds send the same texts in the same order, each with equally
many parameters, whatever is kept and whatever is replied; unless one of them fails before it sends
its own statement. -/
theorem Operation.parallel_of_sameKinds {o o' : Operation} (h : o.SameKinds o') (caches : Caches)
    (replies : List Reply) :
    (o.session.play caches replies).Parallel (o'.session.play caches replies) := by
  cases h with
  | insert t h => exact (Table.parallel_insert h).discard caches replies
  | update t hid h => exact (Table.parallel_update hid h).discard caches replies
  | @find t a b h =>
    refine Session.Parallel.discard ?_ caches replies
    rw [Table.find, Table.find]
    exact Table.parallel_listing t.sends_live (Table.inStep_findPlan h) (t.sends_findPlan a)
      (t.sends_findPlan b)
  | @findRelated t registry a b h =>
    refine Session.Parallel.discard ?_ caches replies
    rw [Table.findRelated, Table.findRelated]
    exact Table.parallel_listing t.sends_live (Table.inStep_relatedPlan registry h)
      (t.sends_relatedPlan registry a) (t.sends_relatedPlan registry b)

/-- The columns of the letters, with those that are declared for them. -/
def Table.lettersColumns : List ColumnInfo :=
  ⟨idName, "INTEGER", true⟩ :: letters.declared.specs.map fun field =>
    ⟨field.column, field.type.storageClass.keyword, false⟩

theorem Operation.parallel_of_sameKinds_letters :
    let filter : Record := [("title", .text "50%"), ("to", .integer 5)]
    let filter' : Record := [("title", .text "%' OR ''='"), ("to", .integer 6)]
    let replies : List Reply := [.rows (Table.lettersColumns.map ColumnInfo.row), .rows []]
    let played := (Operation.find Table.letters filter).session.play (fun _ => none) replies
    let played' := (Operation.find Table.letters filter').session.play (fun _ => none) replies
    filter.kinds = filter'.kinds ∧ played.sent.length = 2 ∧ played.outlines = played'.outlines := by
  intro filter filter' replies played played'
  have hkinds : filter.kinds = filter'.kinds := rfl
  have hok : played.result.1.toOption.isSome = true := by decide +kernel
  have hok' : played'.result.1.toOption.isSome = true := by decide +kernel
  refine ⟨hkinds, by decide +kernel, ?_⟩
  rcases parallel_of_sameKinds (.find Table.letters hkinds) (fun _ => none) replies with h | h | h
  · exact h
  · obtain ⟨e, he⟩ := h.failed
    rw [he] at hok
    cases hok
  · obtain ⟨e, he⟩ := h.failed
    rw [he] at hok'
    cases hok'

end RecordMapping

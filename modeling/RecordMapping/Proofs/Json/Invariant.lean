import RecordMapping.Proofs.Json.Parser

/-!
# The documents that are read

A document that is read from a text has the keys of its objects in order, and is nested no deeper
than a document may be that is read (`fits_of_parse`). Each step of the machine keeps this of the
arrays and objects that are still open.
-/

namespace RecordMapping

/-! ## Members -/

theorem Members.eq_or_mem_of_mem_insert {members : Members} {key : String} {value : Json}
    {member : String × Json} (h : member ∈ insert key value members) :
    member = (key, value) ∨ member ∈ members := by
  induction members with
  | nil => exact .inl (List.mem_singleton.1 h)
  | cons first rest ih =>
    obtain ⟨k, v⟩ := first
    rw [insert] at h
    split at h
    · rcases List.mem_cons.1 h with h | h
      · exact .inl h
      · exact .inr (List.mem_cons_of_mem (k, v) h)
    split at h
    · exact List.mem_cons.1 h
    · rcases List.mem_cons.1 h with h | h
      · exact .inr (h ▸ List.mem_cons_self)
      · exact (ih h).imp_right (List.mem_cons_of_mem (k, v))

/-- Inserting keeps the keys in ascending order. -/
theorem Members.pairwise_names_insert {members : Members} (key : String) (value : Json)
    (h : (Named.names members).Pairwise (· < ·)) :
    (Named.names (insert key value members)).Pairwise (· < ·) := by
  induction members with
  | nil => exact List.pairwise_singleton _ _
  | cons first rest ih =>
    obtain ⟨k, v⟩ := first
    rw [Named.names_cons, List.pairwise_cons] at h
    rw [insert]
    split
    · next hk => exact List.pairwise_cons.2 ⟨hk ▸ h.1, h.2⟩
    split
    · next hlt =>
      rw [Named.names_cons, Named.names_cons]
      refine List.pairwise_cons.2 ⟨?_, List.pairwise_cons.2 h⟩
      intro k' hk'
      rcases List.mem_cons.1 hk' with rfl | hk'
      · exact hlt
      · exact String.lt_trans hlt (h.1 k' hk')
    · next hne hle =>
      have hlt : k < key :=
        String.not_le.1 fun h => hne (String.le_antisymm h (String.not_lt.1 hle))
      refine List.pairwise_cons.2 ⟨?_, ih h.2⟩
      intro k' hk'
      obtain ⟨member, hmember, rfl⟩ := List.mem_map.1 hk'
      rcases eq_or_mem_of_mem_insert hmember with rfl | hmember
      · exact hlt
      · exact h.1 member.1 (List.mem_map_of_mem hmember)

namespace Json

/-! ## Parts of documents -/

theorem orderedItems_iff {items : List Json} :
    OrderedItems items ↔ ∀ item ∈ items, item.Ordered := by
  induction items with
  | nil => simp [OrderedItems]
  | cons item rest ih => rw [OrderedItems, ih, List.forall_mem_cons]

theorem orderedMembers_iff {members : List (String × Json)} :
    OrderedMembers members ↔ ∀ member ∈ members, member.2.Ordered := by
  induction members with
  | nil => simp [OrderedMembers]
  | cons member rest ih => rw [OrderedMembers, ih, List.forall_mem_cons]

theorem depthItems_le_iff {items : List Json} {n : Nat} :
    depthItems items ≤ n ↔ ∀ item ∈ items, item.depth ≤ n := by
  induction items with
  | nil => simp [depthItems]
  | cons item rest ih => rw [depthItems, Nat.max_le, ih, List.forall_mem_cons]

theorem depthMembers_le_iff {members : List (String × Json)} {n : Nat} :
    depthMembers members ≤ n ↔ ∀ member ∈ members, member.2.depth ≤ n := by
  induction members with
  | nil => simp [depthMembers]
  | cons member rest ih => rw [depthMembers, Nat.max_le, ih, List.forall_mem_cons]

/-- Documents that can be read inside so many open arrays and objects. -/
structure Fits (json : Json) (opened : Nat) : Prop where
  ordered : json.Ordered
  shallow : opened + json.depth ≤ mostOpen

theorem fits_array_iff {items : List Json} {opened : Nat} :
    (array items).Fits opened ↔ opened < mostOpen ∧ ∀ item ∈ items, item.Fits (opened + 1) := by
  constructor
  · rintro ⟨hordered, hshallow⟩
    rw [Ordered, orderedItems_iff] at hordered
    rw [depth] at hshallow
    refine ⟨by omega, ?_⟩
    intro item hitem
    have hdepth := depthItems_le_iff.1 (Nat.le_refl (depthItems items)) item hitem
    exact ⟨hordered item hitem, by omega⟩
  · rintro ⟨hopen, hitems⟩
    have hdepth : depthItems items ≤ mostOpen - (opened + 1) := by
      refine depthItems_le_iff.2 ?_
      intro item hitem
      have := (hitems item hitem).shallow
      omega
    refine ⟨orderedItems_iff.2 fun item hitem => (hitems item hitem).ordered, ?_⟩
    rw [depth]
    omega

theorem fits_object_iff {members : Members} {opened : Nat} :
    (object members).Fits opened ↔ opened < mostOpen ∧ (Named.names members).Pairwise (· < ·) ∧
      ∀ member ∈ members, member.2.Fits (opened + 1) := by
  constructor
  · rintro ⟨⟨hnames, hordered⟩, hshallow⟩
    rw [orderedMembers_iff] at hordered
    rw [depth] at hshallow
    refine ⟨by omega, hnames, ?_⟩
    intro member hmember
    have hdepth := depthMembers_le_iff.1 (Nat.le_refl (depthMembers members)) member hmember
    exact ⟨hordered member hmember, by omega⟩
  · rintro ⟨hopen, hnames, hmembers⟩
    have hdepth : depthMembers members ≤ mostOpen - (opened + 1) := by
      refine depthMembers_le_iff.2 ?_
      intro member hmember
      have := (hmembers member hmember).shallow
      omega
    refine ⟨⟨hnames, orderedMembers_iff.2 fun member hmember => (hmembers member hmember).ordered⟩,
      ?_⟩
    rw [depth]
    omega

/-! ## The machine -/

/-- What has been read of an open array or object. -/
def Frame.collected : Frame → Json
  | .array items => .array items
  | .object members _ => .object members

/-- Open arrays and objects that fit into each other as far as they have been read. -/
def StackFits : List Frame → Prop
  | [] => True
  | frame :: rest => frame.collected.Fits rest.length ∧ StackFits rest

namespace ParseState

/-- What has been read fits. -/
def Sound : ParseState → Prop
  | .value stack => stack.length ≤ mostOpen ∧ StackFits stack
  | .firstItem stack | .firstKey stack => stack.length < mostOpen ∧ StackFits stack
  | .afterItem items stack => (Json.array items).Fits stack.length ∧ StackFits stack
  | .key members stack | .colon members _ stack | .afterMember members stack =>
    (Json.object members).Fits stack.length ∧ StackFits stack
  | .complete json => json.Fits 0

end ParseState

theorem sound_deliver {json : Json} {stack : List Frame} (hjson : json.Fits stack.length)
    (hstack : StackFits stack) : (deliver json stack).Sound := by
  match stack with
  | [] => exact hjson
  | .array items :: rest =>
    obtain ⟨hitems, hrest⟩ := hstack
    obtain ⟨hopen, hitems⟩ := fits_array_iff.1 hitems
    exact ⟨fits_array_iff.2 ⟨hopen, List.forall_mem_cons.2 ⟨hjson, hitems⟩⟩, hrest⟩
  | .object members key :: rest =>
    obtain ⟨hmembers, hrest⟩ := hstack
    obtain ⟨hopen, hnames, hmembers⟩ := fits_object_iff.1 hmembers
    refine ⟨fits_object_iff.2 ⟨hopen, members.pairwise_names_insert key json hnames, ?_⟩, hrest⟩
    intro member hmember
    rcases Members.eq_or_mem_of_mem_insert hmember with rfl | hmember
    · exact hjson
    · exact hmembers member hmember

theorem sound_startValue {stack : List Frame} {token : Token} {state : ParseState}
    (h : startValue stack token = some state) (hopen : stack.length ≤ mostOpen)
    (hstack : StackFits stack) : state.Sound := by
  have hscalar : ∀ json : Json, json.Ordered → json.depth = 0 → (deliver json stack).Sound := by
    intro json hordered hdepth
    exact sound_deliver ⟨hordered, by omega⟩ hstack
  cases token with
  | null | bool _ | number _ | string _ =>
    cases h
    exact hscalar _ trivial rfl
  | openArray | openObject =>
    rw [startValue] at h
    split at h
    · next hlt =>
      cases h
      exact ⟨hlt, hstack⟩
    · cases h
  | closeArray | closeObject | comma | colon => cases h

theorem sound_startMember {members : Members} {stack : List Frame} {token : Token}
    {state : ParseState} (h : startMember members stack token = some state)
    (hmembers : (object members).Fits stack.length) (hstack : StackFits stack) : state.Sound := by
  cases token with
  | string key =>
    cases h
    exact ⟨hmembers, hstack⟩
  | openArray | closeArray | openObject | closeObject | comma | colon | null | bool _ | number _ =>
    cases h

/-- A step keeps what has been read fit. -/
theorem sound_parseStep {state state' : ParseState} {token : Token}
    (h : parseStep state token = some state') (hstate : state.Sound) : state'.Sound := by
  unfold parseStep at h
  split at h
  · -- a value
    exact sound_startValue h hstate.1 hstate.2
  · -- an empty array
    cases h
    exact sound_deliver (fits_array_iff.2 ⟨hstate.1, by simp⟩) hstate.2
  · -- the first item
    exact sound_startValue h hstate.1 ⟨fits_array_iff.2 ⟨hstate.1, by simp⟩, hstate.2⟩
  · -- the next item
    cases h
    exact ⟨(fits_array_iff.1 hstate.1).1, hstate⟩
  · -- the end of an array
    cases h
    obtain ⟨hopen, hitems⟩ := fits_array_iff.1 hstate.1
    refine sound_deliver (fits_array_iff.2 ⟨hopen, ?_⟩) hstate.2
    intro item hitem
    exact hitems item (List.mem_reverse.1 hitem)
  · -- an empty object
    cases h
    exact sound_deliver (fits_object_iff.2 ⟨hstate.1, .nil, by simp⟩) hstate.2
  · -- the first key
    exact sound_startMember h (fits_object_iff.2 ⟨hstate.1, .nil, by simp⟩) hstate.2
  · -- a key
    exact sound_startMember h hstate.1 hstate.2
  · -- the value of a key
    cases h
    exact ⟨(fits_object_iff.1 hstate.1).1, hstate⟩
  · -- the next member
    cases h
    exact hstate
  · -- the end of an object
    cases h
    exact sound_deliver hstate.1 hstate.2
  · -- no other token may stand there
    cases h

/-- What is read is fit. -/
theorem fits_of_parseTokens {state : ParseState} {tokens : List Token} {json : Json}
    (h : parseTokens state tokens = some json) (hstate : state.Sound) : json.Fits 0 := by
  induction tokens generalizing state with
  | nil =>
    cases state with
    | complete =>
      cases h
      exact hstate
    | _ => cases h
  | cons token rest ih =>
    rw [parseTokens_cons] at h
    obtain ⟨state', hstep, hrest⟩ := Option.bind_eq_some_iff.1 h
    exact ih hrest (sound_parseStep hstep hstate)

/-- A document that is read from a text has its keys in order, and is not nested too deeply. -/
theorem fits_of_parse {text : String} {json : Json} (h : parse text = some json) :
    json.Fits 0 := by
  obtain ⟨tokens, -, htokens⟩ := Option.bind_eq_some_iff.1 h
  exact fits_of_parseTokens htokens ⟨Nat.zero_le _, trivial⟩

end Json

end RecordMapping

import RecordMapping.Json.Parser
import RecordMapping.Proofs.Json.Lexer

/-!
# Documents read back from their text

A document whose objects have their keys in order, and that is not nested too deeply, is read back
from its text with the same structure, its numbers read anew (`parse_text`). So it is read back as
it is if and only if this is so for each of its numbers (`parse_text_eq_self_iff`).
-/

namespace RecordMapping

/-- A key that comes after all others is added at the end. -/
theorem Members.insert_of_lt {members : Members} {key : String} {value : Json}
    (h : ∀ k ∈ Named.names members, k < key) :
    insert key value members = members ++ [(key, value)] := by
  induction members with
  | nil => rfl
  | cons member rest ih =>
    obtain ⟨k, v⟩ := member
    have hk : k < key := h k List.mem_cons_self
    have hne : key ≠ k := by
      rintro rfl
      exact String.lt_irrefl key hk
    rw [insert, if_neg hne, if_neg (String.lt_asymm hk),
      ih fun k' hk' => h k' (List.mem_cons_of_mem k hk'), List.cons_append]

/-- Where keys are in order, each is added at the end of those before it. -/
theorem Members.insert_last {before rest : Members} {key : String} {value : Json}
    (h : (Named.names (before ++ (key, value) :: rest)).Pairwise (· < ·)) :
    before.insert key value = before ++ [(key, value)] := by
  refine insert_of_lt ?_
  intro k hk
  rw [Named.names, List.map_append, List.pairwise_append] at h
  exact h.2.2 k hk key List.mem_cons_self

namespace Json

/-! ## Structure -/

mutual
/-- Whether all objects of a document have their keys in ascending order. -/
def Ordered : Json → Prop
  | .array items => OrderedItems items
  | .object members => (Named.names members).Pairwise (· < ·) ∧ OrderedMembers members
  | _ => True
/-- The same for the items of an array. -/
def OrderedItems : List Json → Prop
  | [] => True
  | item :: rest => Ordered item ∧ OrderedItems rest
/-- The same for the values of the members of an object. -/
def OrderedMembers : List (String × Json) → Prop
  | [] => True
  | (_, value) :: rest => Ordered value ∧ OrderedMembers rest
end

mutual
/-- How deep arrays and objects nest in a document. -/
def depth : Json → Nat
  | .array items => depthItems items + 1
  | .object members => depthMembers members + 1
  | _ => 0
/-- The depth of the items of an array. -/
def depthItems : List Json → Nat
  | [] => 0
  | item :: rest => max (depth item) (depthItems rest)
/-- The depth of the members of an object. -/
def depthMembers : List (String × Json) → Nat
  | [] => 0
  | (_, value) :: rest => max (depth value) (depthMembers rest)
end

/-! ## Tokens of parts -/

theorem itemTokens_cons {item : Json} {rest : List Json} (hrest : rest ≠ []) :
    itemTokens (item :: rest) = tokens item ++ .comma :: itemTokens rest := by
  obtain ⟨next, more, rfl⟩ := List.exists_cons_of_ne_nil hrest
  rw [itemTokens]
  exact hrest

theorem memberTokens_cons {key : String} {value : Json} {rest : List (String × Json)}
    (hrest : rest ≠ []) :
    memberTokens ((key, value) :: rest)
      = .string key :: .colon :: tokens value ++ .comma :: memberTokens rest := by
  obtain ⟨next, more, rfl⟩ := List.exists_cons_of_ne_nil hrest
  rw [memberTokens]
  exact hrest

/-! ## Reading tokens -/

theorem parseTokens_cons (state : ParseState) (token : Token) (rest : List Token) :
    parseTokens state (token :: rest) = (parseStep state token).bind (parseTokens · rest) := by
  cases state <;> rfl

/-- A step of the machine. -/
theorem parseTokens_step {state state' : ParseState} {token : Token}
    (h : parseStep state token = some state') (rest : List Token) :
    parseTokens state (token :: rest) = parseTokens state' rest := by
  rw [parseTokens_cons, h, Option.bind_some]

/-- The first item of an array is read like any other one. -/
theorem parseTokens_firstItem {items : List Json} (hitems : items ≠ []) (stack : List Frame)
    (rest : List Token) :
    parseTokens (.firstItem stack) (itemTokens items ++ rest)
      = parseTokens (.value (.array [] :: stack)) (itemTokens items ++ rest) := by
  obtain ⟨item, items, rfl⟩ := List.exists_cons_of_ne_nil hitems
  cases items <;> cases item <;> rfl

/-- The first member of an object is read like any other one. -/
theorem parseTokens_firstKey {members : List (String × Json)} (hmembers : members ≠ [])
    (stack : List Frame) (rest : List Token) :
    parseTokens (.firstKey stack) (memberTokens members ++ rest)
      = parseTokens (.key [] stack) (memberTokens members ++ rest) := by
  obtain ⟨member, members, rfl⟩ := List.exists_cons_of_ne_nil hmembers
  cases members <;> rfl

mutual
/-- The tokens of a document are read as this document, inside any open arrays and objects that
leave it enough room. -/
theorem parseTokens_tokens (json : Json) (hordered : json.Ordered) (stack : List Frame)
    (hdepth : stack.length + json.depth ≤ mostOpen) (rest : List Token) :
    parseTokens (.value stack) (tokens json ++ rest) = parseTokens (deliver json stack) rest := by
  match json with
  | .null | .bool _ | .number _ | .string _ => rfl
  | .array [] =>
    rw [depth] at hdepth
    have hopen : parseStep (.value stack) .openArray = some (.firstItem stack) :=
      if_pos (by omega)
    rw [tokens, List.append_assoc, List.cons_append, parseTokens_step hopen]
    rfl
  | .array (item :: items) =>
    -- the state for a first item differs only in that the array may end there
    rw [Ordered] at hordered
    rw [depth] at hdepth
    have hopen : parseStep (.value stack) .openArray = some (.firstItem stack) :=
      if_pos (by omega)
    rw [tokens, List.append_assoc, List.cons_append, parseTokens_step hopen, List.singleton_append,
      parseTokens_firstItem (List.cons_ne_nil item items),
      parseTokens_itemTokens (item :: items) (List.cons_ne_nil item items) hordered [] stack
        (by omega)]
    rfl
  | .object [] =>
    rw [depth] at hdepth
    have hopen : parseStep (.value stack) .openObject = some (.firstKey stack) :=
      if_pos (by omega)
    rw [tokens, List.append_assoc, List.cons_append, parseTokens_step hopen]
    rfl
  | .object (member :: members) =>
    rw [Ordered] at hordered
    rw [depth] at hdepth
    have hopen : parseStep (.value stack) .openObject = some (.firstKey stack) :=
      if_pos (by omega)
    rw [tokens, List.append_assoc, List.cons_append, parseTokens_step hopen, List.singleton_append,
      parseTokens_firstKey (List.cons_ne_nil member members),
      parseTokens_memberTokens (member :: members) (List.cons_ne_nil member members) hordered.2 []
        hordered.1 stack (by omega)]
    rfl
/-- The items of an array are added to those that were read before. -/
theorem parseTokens_itemTokens (items : List Json) (hitems : items ≠ [])
    (hordered : OrderedItems items) (before : List Json) (stack : List Frame)
    (hdepth : stack.length + 1 + depthItems items ≤ mostOpen) (rest : List Token) :
    parseTokens (.value (.array before :: stack)) (itemTokens items ++ .closeArray :: rest)
      = parseTokens (deliver (.array (before.reverse ++ items)) stack) rest := by
  match items with
  | [] => exact absurd rfl hitems
  | [item] =>
    rw [OrderedItems] at hordered
    rw [depthItems] at hdepth
    have hclose : parseStep (.afterItem (item :: before) stack) .closeArray
        = some (deliver (.array (item :: before).reverse) stack) := rfl
    rw [itemTokens, parseTokens_tokens item hordered.1 (.array before :: stack)
      (by rw [List.length_cons]; omega), deliver, parseTokens_step hclose, List.reverse_cons]
  | item :: next :: more =>
    rw [OrderedItems] at hordered
    rw [depthItems] at hdepth
    have hcomma : parseStep (.afterItem (item :: before) stack) .comma
        = some (.value (.array (item :: before) :: stack)) := rfl
    rw [itemTokens_cons (List.cons_ne_nil next more), List.append_assoc,
      parseTokens_tokens item hordered.1 (.array before :: stack)
        (by rw [List.length_cons]; omega), deliver, List.cons_append, parseTokens_step hcomma,
      parseTokens_itemTokens (next :: more) (List.cons_ne_nil next more) hordered.2
        (item :: before) stack (by omega) rest, List.reverse_cons, List.append_assoc,
      List.singleton_append]
/-- The members of an object are added after those that were read before, if their keys come
later. -/
theorem parseTokens_memberTokens (members : List (String × Json)) (hmembers : members ≠ [])
    (hordered : OrderedMembers members) (before : Members)
    (hkeys : (Named.names (before ++ members)).Pairwise (· < ·)) (stack : List Frame)
    (hdepth : stack.length + 1 + depthMembers members ≤ mostOpen) (rest : List Token) :
    parseTokens (.key before stack) (memberTokens members ++ .closeObject :: rest)
      = parseTokens (deliver (.object (before ++ members)) stack) rest := by
  match members with
  | [] => exact absurd rfl hmembers
  | [(key, value)] =>
    rw [OrderedMembers] at hordered
    rw [depthMembers] at hdepth
    have hclose : parseStep (.afterMember (before ++ [(key, value)]) stack) .closeObject
        = some (deliver (.object (before ++ [(key, value)])) stack) := rfl
    have hkey : parseTokens (.key before stack)
        (memberTokens [(key, value)] ++ .closeObject :: rest)
          = parseTokens (.value (.object before key :: stack))
            (tokens value ++ .closeObject :: rest) := rfl
    rw [hkey, parseTokens_tokens value hordered.1 (.object before key :: stack)
      (by rw [List.length_cons]; omega), deliver, Members.insert_last hkeys,
      parseTokens_step hclose]
  | (key, value) :: next :: more =>
    rw [OrderedMembers] at hordered
    rw [depthMembers] at hdepth
    have hcomma : parseStep (.afterMember (before ++ [(key, value)]) stack) .comma
        = some (.key (before ++ [(key, value)]) stack) := rfl
    have hkey : parseTokens (.key before stack)
        (memberTokens ((key, value) :: next :: more) ++ .closeObject :: rest)
          = parseTokens (.value (.object before key :: stack))
            (tokens value ++ .comma :: (memberTokens (next :: more) ++ .closeObject :: rest)) := by
      rw [memberTokens_cons (List.cons_ne_nil next more), List.append_assoc]
      rfl
    have hsplit : before ++ (key, value) :: next :: more
        = before ++ [(key, value)] ++ next :: more := by simp
    rw [hkey, parseTokens_tokens value hordered.1 (.object before key :: stack)
      (by rw [List.length_cons]; omega), deliver, Members.insert_last hkeys,
      parseTokens_step hcomma, hsplit]
    rw [hsplit] at hkeys
    exact parseTokens_memberTokens (next :: more) (List.cons_ne_nil next more) hordered.2
      (before ++ [(key, value)]) hkeys stack (by omega) rest
end

/-! ## Reading text -/

mutual
/-- A document with its numbers read anew from their texts. -/
def reread : Json → Option Json
  | .number n => (readNumber (numberText n).toList).map .number
  | .array items => (rereadItems items).map .array
  | .object members => (rereadMembers members).map .object
  | json => some json
/-- The items of an array with their numbers read anew. -/
def rereadItems : List Json → Option (List Json)
  | [] => some []
  | item :: rest => (reread item).bind fun item => (rereadItems rest).map (item :: ·)
/-- The members of an object with their numbers read anew. -/
def rereadMembers : List (String × Json) → Option (List (String × Json))
  | [] => some []
  | (key, value) :: rest =>
    (reread value).bind fun value => (rereadMembers rest).map ((key, value) :: ·)
end

theorem rereadItems_cons (item : Json) (rest : List Json) :
    rereadItems (item :: rest)
      = item.reread.bind fun item => (rereadItems rest).map (item :: ·) := by
  rw [rereadItems]

theorem rereadMembers_cons (key : String) (value : Json) (rest : List (String × Json)) :
    rereadMembers ((key, value) :: rest)
      = value.reread.bind fun value => (rereadMembers rest).map ((key, value) :: ·) := by
  rw [rereadMembers]

theorem rereadItems_ne_nil {item : Json} {rest items : List Json}
    (h : rereadItems (item :: rest) = some items) : items ≠ [] := by
  obtain ⟨item', -, h⟩ := Option.bind_eq_some_iff.1 h
  obtain ⟨rest', -, rfl⟩ := Option.map_eq_some_iff.1 h
  exact List.cons_ne_nil item' rest'

theorem rereadMembers_ne_nil {member : String × Json} {rest members : List (String × Json)}
    (h : rereadMembers (member :: rest) = some members) : members ≠ [] := by
  obtain ⟨value, -, h⟩ := Option.bind_eq_some_iff.1 h
  obtain ⟨rest', -, rfl⟩ := Option.map_eq_some_iff.1 h
  exact List.cons_ne_nil (member.1, value) rest'

mutual
/-- Reading the numbers anew leaves the tokens of the document as they are, but for the numbers. -/
theorem mapM_reread_tokens (json : Json) :
    (tokens json).mapM Token.reread = json.reread.map tokens := by
  match json with
  | .null | .bool _ | .string _ => rfl
  | .number n =>
    show (Option.bind (Option.map _ _) _) = _
    rw [reread]
    cases readNumber (numberText n).toList <;> rfl
  | .array items =>
    rw [tokens, List.cons_append, List.mapM_cons, List.mapM_append, mapM_reread_itemTokens, reread]
    cases rereadItems items <;> rfl
  | .object members =>
    rw [tokens, List.cons_append, List.mapM_cons, List.mapM_append, mapM_reread_memberTokens,
      reread]
    cases rereadMembers members <;> rfl
theorem mapM_reread_itemTokens (items : List Json) :
    (itemTokens items).mapM Token.reread = (rereadItems items).map itemTokens := by
  match items with
  | [] => rfl
  | [item] =>
    rw [itemTokens, mapM_reread_tokens, rereadItems]
    cases item.reread <;> rfl
  | item :: next :: more =>
    rw [itemTokens_cons (List.cons_ne_nil next more), List.mapM_append, List.mapM_cons,
      mapM_reread_tokens, mapM_reread_itemTokens (next :: more), rereadItems_cons item]
    cases item.reread with
    | none => rfl
    | some item' =>
      cases hrest : rereadItems (next :: more) with
      | none => rfl
      | some rest => exact congrArg some (itemTokens_cons (rereadItems_ne_nil hrest)).symm
theorem mapM_reread_memberTokens (members : List (String × Json)) :
    (memberTokens members).mapM Token.reread = (rereadMembers members).map memberTokens := by
  match members with
  | [] => rfl
  | [(key, value)] =>
    rw [memberTokens, List.mapM_cons, List.mapM_cons, mapM_reread_tokens, rereadMembers]
    cases value.reread <;> rfl
  | (key, value) :: next :: more =>
    rw [memberTokens_cons (List.cons_ne_nil next more), List.cons_append, List.cons_append,
      List.mapM_cons, List.mapM_cons, List.mapM_append, List.mapM_cons, mapM_reread_tokens,
      mapM_reread_memberTokens (next :: more), rereadMembers_cons key value]
    cases value.reread with
    | none => rfl
    | some value' =>
      cases hrest : rereadMembers (next :: more) with
      | none => rfl
      | some rest => exact congrArg some (memberTokens_cons (rereadMembers_ne_nil hrest)).symm
end

mutual
/-- Reading the numbers anew keeps the structure: the keys stay in order and nesting as deep. -/
theorem structure_of_reread {json json' : Json} (h : json.reread = some json') :
    (json.Ordered → json'.Ordered) ∧ json'.depth = json.depth := by
  match json with
  | .null | .bool _ | .string _ =>
    cases h
    exact ⟨id, rfl⟩
  | .number n =>
    obtain ⟨n', -, rfl⟩ := Option.map_eq_some_iff.1 h
    exact ⟨fun _ => trivial, rfl⟩
  | .array items =>
    obtain ⟨items', hitems, rfl⟩ := Option.map_eq_some_iff.1 h
    obtain ⟨hordered, hdepth⟩ := structure_of_rereadItems hitems
    exact ⟨hordered, congrArg (· + 1) hdepth⟩
  | .object members =>
    obtain ⟨members', hmembers, rfl⟩ := Option.map_eq_some_iff.1 h
    obtain ⟨hnames, hordered, hdepth⟩ := structure_of_rereadMembers hmembers
    refine ⟨?_, congrArg (· + 1) hdepth⟩
    rintro ⟨hkeys, hvalues⟩
    exact ⟨hnames ▸ hkeys, hordered hvalues⟩
theorem structure_of_rereadItems {items items' : List Json} (h : rereadItems items = some items') :
    (OrderedItems items → OrderedItems items') ∧ depthItems items' = depthItems items := by
  match items with
  | [] =>
    cases h
    exact ⟨id, rfl⟩
  | item :: rest =>
    obtain ⟨item', hitem, h⟩ := Option.bind_eq_some_iff.1 h
    obtain ⟨rest', hrest, rfl⟩ := Option.map_eq_some_iff.1 h
    obtain ⟨hordered, hdepth⟩ := structure_of_reread hitem
    obtain ⟨horderedRest, hdepthRest⟩ := structure_of_rereadItems hrest
    refine ⟨fun h => ⟨hordered h.1, horderedRest h.2⟩, ?_⟩
    rw [depthItems, depthItems, hdepth, hdepthRest]
theorem structure_of_rereadMembers {members members' : List (String × Json)}
    (h : rereadMembers members = some members') :
    Named.names members' = Named.names members ∧
      (OrderedMembers members → OrderedMembers members') ∧
      depthMembers members' = depthMembers members := by
  match members with
  | [] =>
    cases h
    exact ⟨rfl, id, rfl⟩
  | (key, value) :: rest =>
    obtain ⟨value', hvalue, h⟩ := Option.bind_eq_some_iff.1 h
    obtain ⟨rest', hrest, rfl⟩ := Option.map_eq_some_iff.1 h
    obtain ⟨hordered, hdepth⟩ := structure_of_reread hvalue
    obtain ⟨hnames, horderedRest, hdepthRest⟩ := structure_of_rereadMembers hrest
    refine ⟨congrArg (key :: ·) hnames, fun h => ⟨hordered h.1, horderedRest h.2⟩, ?_⟩
    rw [depthMembers, depthMembers, hdepth, hdepthRest]
end

/-- The text of a document is read as this document with its numbers read anew. -/
theorem parse_text {json : Json} (hordered : json.Ordered) (hdepth : json.depth ≤ mostOpen) :
    parse (text json) = json.reread := by
  rw [parse, lex_text, mapM_reread_tokens]
  cases hreread : json.reread with
  | none => rfl
  | some json' =>
    obtain ⟨hordered', hdepth'⟩ := structure_of_reread hreread
    have hparse := parseTokens_tokens json' (hordered' hordered) []
      (by rw [List.length_nil, Nat.zero_add, hdepth']; exact hdepth) []
    rw [List.append_nil] at hparse
    exact hparse

/-- The text of a number is read as a number, if it can be read. -/
theorem number_of_parse_text {n : JsonNumber} {json : Json}
    (h : parse (text (.number n)) = some json) : ∃ m, json = .number m := by
  have hordered : (number n).Ordered := trivial
  rw [parse_text hordered (Nat.zero_le _)] at h
  obtain ⟨m, _, hm⟩ := Option.map_eq_some_iff.1 h
  exact ⟨m, hm.symm⟩

/-- A list of which each member is kept. -/
theorem mapM_eq_some_self {α : Type} {f : α → Option α} {l : List α} :
    l.mapM f = some l ↔ ∀ a ∈ l, f a = some a := by
  induction l with
  | nil => simp
  | cons a l ih =>
    rw [List.mapM_cons, List.forall_mem_cons, ← ih]
    cases f a <;> cases l.mapM f <;> simp

/-- A document is read back from its text if each of its numbers is; integers are. -/
theorem parse_text_eq_self_iff {json : Json} (hordered : json.Ordered)
    (hdepth : json.depth ≤ mostOpen) :
    parse (text json) = some json ↔ ∀ x finite, Token.number (.real x finite) ∈ tokens json →
      readNumber (numberText (.real x finite)).toList = some (.real x finite) := by
  constructor
  · intro h x finite hmem
    rw [parse_text hordered hdepth] at h
    have htokens := mapM_reread_tokens json
    rw [h, Option.map_some, mapM_eq_some_self] at htokens
    obtain ⟨n, hn, hnumber⟩ := Option.map_eq_some_iff.1 (htokens _ hmem)
    rwa [Token.number.inj hnumber] at hn
  · intro h
    have htokens : (tokens json).mapM Token.reread = some (tokens json) := by
      refine mapM_eq_some_self.2 ?_
      intro token htoken
      match token with
      | .number (.integer i inRange) =>
        rw [Token.reread, readNumber_numberText_integer]
        rfl
      | .number (.real x finite) =>
        rw [Token.reread, h x finite htoken]
        rfl
      | .openArray | .closeArray | .openObject | .closeObject | .comma | .colon | .null | .bool _
      | .string _ => rfl
    have hparse := parseTokens_tokens json hordered [] (by simpa using hdepth) []
    rw [List.append_nil] at hparse
    rw [parse, lex_text, htokens]
    exact hparse

end Json

end RecordMapping

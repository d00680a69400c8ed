import RecordMapping.Named
import RecordMapping.Numeric.Binary

/-!
# JSON documents

Objects and arrays of a record are JSON documents. A number in a document is an integer if it was
written as one and lies in the range that signed and unsigned 64-bit integers cover together;
otherwise it is a finite double-precision number. The members of an object are kept in the order
of their keys, one for each key.
-/

namespace RecordMapping

/-- A number of a document. -/
inductive JsonNumber where
  | integer (value : Int)
      (inRange : -9223372036854775808 ≤ value ∧ value < 18446744073709551616)
  | real (value : Binary64) (finite : value.isFinite = true)
  deriving DecidableEq

/-- A JSON document. -/
inductive Json where
  | null
  | bool (value : Bool)
  | number (value : JsonNumber)
  | string (value : String)
  | array (items : List Json)
  | object (members : List (String × Json))

/-- The members of an object: pairs of key and value, in ascending order of the keys. -/
abbrev Members := Named Json

namespace JsonNumber

/-- An integer of the 64-bit range. -/
def ofInt64 (i : Int64) : JsonNumber :=
  .integer i.toInt ⟨by have := i.le_toInt; omega, by have := i.toInt_lt; omega⟩

/-- An integer in the range of documents. -/
def ofInt? (i : Int) : Option JsonNumber :=
  if h : -9223372036854775808 ≤ i ∧ i < 18446744073709551616 then some (.integer i h) else none

/-- A finite number. -/
def ofReal? (x : Binary64) : Option JsonNumber :=
  if h : x.isFinite = true then some (.real x h) else none

/-- The number as a signed 64-bit integer, if it was written as an integer and fits. -/
def toInt64? : JsonNumber → Option Int64
  | .integer i _ => int64? i
  | .real .. => none

/-- The nearest double-precision number. -/
def toBinary64 : JsonNumber → Binary64
  | .integer i _ => .ofInt i
  | .real x _ => x

/-- Two numbers of the same kind and value. An integer and a double-precision number differ. -/
def same : JsonNumber → JsonNumber → Bool
  | .integer i _, .integer j _ => i == j
  | .real x _, .real y _ => x.sameNumber y
  | _, _ => false

end JsonNumber

namespace Members

/-- Puts a value under a key, in place of an earlier one. -/
def insert (key : String) (value : Json) : Members → Members
  | [] => [(key, value)]
  | (k, v) :: rest =>
    if key = k then (key, value) :: rest
    else if key < k then (key, value) :: (k, v) :: rest
    else (k, v) :: insert key value rest

/-- A key has the value that it was given last. -/
theorem get?_insert (members : Members) (key other : String) (value : Json) :
    Named.get? (insert key value members) other =
      if key = other then some value else Named.get? members other := by
  induction members with
  | nil => rfl
  | cons member rest ih =>
    obtain ⟨k, v⟩ := member
    rw [insert]
    by_cases hk : key = k
    · subst hk
      rw [if_pos rfl, Named.get?_cons, Named.get?_cons]
      split <;> rfl
    · rw [if_neg hk]
      by_cases hlt : key < k
      · rw [if_pos hlt, Named.get?_cons]
      · rw [if_neg hlt, Named.get?_cons, Named.get?_cons, ih]
        by_cases ho : k = other
        · rw [if_pos ho, if_neg (fun h => hk (h.trans ho.symm)), if_pos ho]
        · rw [if_neg ho, if_neg ho]

/-- The members with the given pairs, the last of each key. -/
def ofList (pairs : List (String × Json)) : Members :=
  pairs.foldl (fun members (key, value) => insert key value members) []

end Members

namespace Json

mutual
/-- Two documents with the same structure and the same numbers. -/
def same : Json → Json → Bool
  | .null, .null => true
  | .bool a, .bool b => a == b
  | .number a, .number b => a.same b
  | .string a, .string b => a == b
  | .array a, .array b => sameItems a b
  | .object a, .object b => sameMembers a b
  | _, _ => false
/-- Two arrays with the same items. -/
def sameItems : List Json → List Json → Bool
  | [], [] => true
  | a :: as, b :: bs => same a b && sameItems as bs
  | _, _ => false
/-- Two objects with the same keys and values. -/
def sameMembers : List (String × Json) → List (String × Json) → Bool
  | [], [] => true
  | (k, a) :: as, (l, b) :: bs => k == l && same a b && sameMembers as bs
  | _, _ => false
end

/-- An integer document. -/
def ofInt64 (i : Int64) : Json := .number (.ofInt64 i)

/-- The number as a document, or null where documents have no such number. -/
def ofBinary64 (x : Binary64) : Json :=
  match JsonNumber.ofReal? x with
  | some n => .number n
  | none => .null

end Json

end RecordMapping

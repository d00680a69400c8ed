/-!
# Searching text

Two searches that names and declared types need: whether a text contains another, and the last
place where a text can be cut in two at a delimiter of two equal characters.
-/

namespace RecordMapping.Text

/-! ## Containing -/

/-- Whether `part` stands somewhere in a list. -/
def containsList (part : List Char) : List Char → Bool
  | [] => part.isEmpty
  | c :: rest => part.isPrefixOf (c :: rest) || containsList part rest

/-- Whether `part` stands somewhere in `text`. -/
def contains (text part : String) : Bool := containsList part.toList text.toList

/-- Searching finds exactly the lists that stand somewhere in another one. -/
theorem containsList_iff {part cs : List Char} : containsList part cs = true ↔ part <:+: cs := by
  induction cs with
  | nil => simp [containsList]
  | cons c rest ih =>
    rw [containsList, Bool.or_eq_true, ih, List.isPrefixOf_iff_prefix, List.infix_cons_iff]

/-! ## Cutting -/

/-- Cuts a list at the last place where the character `d` stands twice in a row, leaving both
out. -/
def splitLastList (d : Char) : List Char → Option (List Char × List Char)
  | [] => none
  | c :: rest =>
    match splitLastList d rest with
    | some (front, back) => some (c :: front, back)
    | none => if c = d ∧ rest.head? = some d then some ([], rest.tail) else none

/-- Cuts a text at the last place where the character `d` stands twice in a row. -/
def splitLast (d : Char) (text : String) : Option (String × String) :=
  (splitLastList d text.toList).map fun (front, back) => (String.ofList front, String.ofList back)

/-- Where a list is cut, the character does stand twice in a row. -/
theorem eq_append_of_splitLastList {d : Char} {cs front back : List Char}
    (h : splitLastList d cs = some (front, back)) : cs = front ++ d :: d :: back := by
  induction cs generalizing front with
  | nil => cases h
  | cons c rest ih =>
    rw [splitLastList] at h
    cases hr : splitLastList d rest with
    | some p =>
      simp only [hr, Option.some.injEq, Prod.mk.injEq] at h
      obtain ⟨rfl, rfl⟩ := h
      rw [List.cons_append, ← ih hr]
    | none =>
      simp only [hr, Option.ite_none_right_eq_some, Option.some.injEq, Prod.mk.injEq] at h
      obtain ⟨⟨rfl, hd⟩, rfl, rfl⟩ := h
      obtain ⟨back, rfl⟩ := List.head?_eq_some_iff.1 hd
      rfl

/-- A list is cut where the character stands twice in a row for the last time. -/
theorem splitLastList_append {d : Char} (front : List Char) {back : List Char}
    (h : splitLastList d (d :: back) = none) :
    splitLastList d (front ++ d :: d :: back) = some (front, back) := by
  induction front with
  | nil =>
    rw [List.nil_append, splitLastList, h]
    simp
  | cons c front ih => rw [List.cons_append, splitLastList, ih]

end RecordMapping.Text

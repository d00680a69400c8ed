import RecordMapping.Sql.Param

/-!
# SQL text and expressions

A statement is written as a sequence of pieces: fixed text, and bound values. Its text shows a
question mark for each bound value, and its parameters are the bound values themselves, so both
come from one sequence and the parameters are in the order of their marks.
-/

namespace RecordMapping

/-- A piece of a statement. -/
inductive Piece where
  | text (s : String)
  | bind (value : Param)
  deriving DecidableEq

/-- A statement or a part of one. -/
abbrev Pieces := List Piece

namespace Pieces

/-- The text of a piece. -/
def pieceText : Piece → String
  | .text s => s
  | .bind _ => "?"

/-- The text of a statement. -/
def text (pieces : Pieces) : String := String.join (pieces.map pieceText)

/-- The value that a piece binds. -/
def bound? : Piece → Option Param
  | .text _ => none
  | .bind value => some value

/-- The bound values of a statement, in order. -/
def params (pieces : Pieces) : List Param := pieces.filterMap bound?

/-- The parameters of two parts are those of the first, then those of the second. -/
@[simp] theorem params_append (a b : Pieces) : params (a ++ b) = params a ++ params b :=
  List.filterMap_append

@[simp] theorem params_nil : params [] = [] := rfl

@[simp] theorem params_text (s : String) (rest : Pieces) :
    params (.text s :: rest) = params rest := rfl

@[simp] theorem params_bind (value : Param) (rest : Pieces) :
    params (.bind value :: rest) = value :: params rest := rfl

/-- Parts with a text between them. -/
def separated (separator : String) (parts : List Pieces) : Pieces :=
  List.intercalate [.text separator] parts

end Pieces

/-- A name in double quotes; a quote inside it is doubled. -/
def identifier (name : String) : String :=
  String.ofList ('"' :: name.toList.flatMap (fun c => if c = '"' then ['"', '"'] else [c]) ++ ['"'])

/-- A column of a table, or of an alias of one. -/
structure ColumnRef where
  table : String
  column : String
  deriving DecidableEq

/-- A column with its table in front. -/
def ColumnRef.text (c : ColumnRef) : String := identifier c.table ++ "." ++ identifier c.column

/-- An expression. -/
inductive Expr where
  | value (value : Param)
  | column (column : ColumnRef)
  | equalsValue (column : ColumnRef) (value : Param)
  | equalsColumn (left right : ColumnRef)
  | like (column : ColumnRef) (pattern : String)
  | isNull (column : ColumnRef)
  | and (left right : Expr)
  /-- A JSON object with the given members. Keys are bound values too. -/
  | jsonObject (members : List (String × Expr))
  /-- Null if the column is null, else the value of the expression. -/
  | unlessNull (column : ColumnRef) (expr : Expr)

namespace Expr

/-- Whether an expression is a conjunction. -/
def isAnd : Expr → Bool
  | .and .. => true
  | _ => false

mutual
/-- The pieces of an expression. A conjunction stands in parentheses where it is the right part of
another one. -/
def pieces : Expr → Pieces
  | .value p => [.bind p]
  | .column c => [.text c.text]
  | .equalsValue c p => [.text (c.text ++ " = "), .bind p]
  | .equalsColumn c d => [.text (c.text ++ " = " ++ d.text)]
  | .like c pattern => [.text (c.text ++ " LIKE "), .bind (.string (some pattern))]
  | .isNull c => [.text (c.text ++ " IS NULL")]
  | .and l r =>
    if r.isAnd then l.pieces ++ .text " AND (" :: r.pieces ++ [.text ")"]
    else l.pieces ++ .text " AND " :: r.pieces
  | .jsonObject members =>
    .text "json_object(" :: Pieces.separated ", " (memberPieces members) ++ [.text ")"]
  | .unlessNull c e =>
    .text ("(CASE WHEN (" ++ c.text ++ " IS NULL) THEN NULL ELSE ") :: e.pieces ++ [.text " END)"]
/-- The pieces of the members of a JSON object, each a key and an expression. -/
def memberPieces : List (String × Expr) → List Pieces
  | [] => []
  | (key, e) :: rest =>
    (.bind (.string (some key)) :: .text ", " :: e.pieces) :: memberPieces rest
end

end Expr

end RecordMapping

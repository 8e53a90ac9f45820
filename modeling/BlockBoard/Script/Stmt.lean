import BlockBoard.Script.Expr
import BlockBoard.Text.Blank
/-!
# Statements of a program

- `Stmt`: a statement.
- `Stmt.lines`: its lines; the lines of a suite stand one level deeper than the line that opens it.
- `indent`: a text with every line one level deeper.
-/

namespace BlockBoard

/-- One level of indentation. -/
def indentation : String := "    "

/-- A statement. -/
inductive Stmt where
  /-- An expression for its effect. -/
  | expr (e : Expr)
  /-- The statement that does nothing. -/
  | pass
  | ifElse (condition : Expr) (body : List Stmt) (otherwise : Option (List Stmt))
  | repeatTimes (times : Expr) (body : List Stmt)

/-- A line one level deeper; an empty line stays empty. -/
def indentLine (l : String) : String := if l.isEmpty then l else indentation ++ l

/-- Lines, each with its line end. -/
def unlines (ls : List String) : String := String.join (ls.map (· ++ "\n"))

/-- A text with every line one level deeper. -/
def indent (code : String) : String := unlines ((lines code).map indentLine)

namespace Stmt

mutual

/-- The lines of a statement. -/
def lines : Stmt → List String
  | .expr e => [e.fragment.code]
  | .pass => ["pass"]
  | .ifElse c body otherwise =>
    ("if " ++ c.code ++ ":") :: (suiteLines body).map indentLine ++
      match otherwise with
      | none => []
      | some other => "else:" :: (suiteLines other).map indentLine
  | .repeatTimes n body =>
    ("for _ in range(" ++ n.code ++ "):") :: (suiteLines body).map indentLine

/-- The lines of statements in a row. -/
def suiteLines : List Stmt → List String
  | [] => []
  | s :: r => s.lines ++ suiteLines r

end

/-- Statements in a row, as text. -/
def text (ss : List Stmt) : String := unlines (suiteLines ss)

end Stmt

end BlockBoard

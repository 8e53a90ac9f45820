/-!
# Blank characters

The characters of Unicode's White_Space property, and trimming by them.

- `trimBlank`, `trimBlankEnd`: a text without the blanks at its ends.
- `lines`: the lines of a text, each without its line end.
-/

namespace BlockBoard

/-- Whether a character has the White_Space property. -/
def isBlank (c : Char) : Bool :=
  let n := c.toNat
  (9 ≤ n && n ≤ 13) || n == 0x20 || n == 0x85 || n == 0xA0 || n == 0x1680 ||
    (0x2000 ≤ n && n ≤ 0x200A) || n == 0x2028 || n == 0x2029 || n == 0x202F || n == 0x205F ||
    n == 0x3000

/-- A list of characters without the blanks at its end. -/
def dropBlankEnd (s : List Char) : List Char := (s.reverse.dropWhile isBlank).reverse

/-- A list of characters without the blanks at either end. -/
def dropBlanks (s : List Char) : List Char := dropBlankEnd (s.dropWhile isBlank)

/-- A text without the blanks at its end. -/
def trimBlankEnd (s : String) : String := String.ofList (dropBlankEnd s.toList)

/-- A text without the blanks at either end. -/
def trimBlank (s : String) : String := String.ofList (dropBlanks s.toList)

/-- The pieces of a list between the places where a separator stands; there is always at least one
piece. -/
def piecesAt {α : Type} [BEq α] (sep : α) : List α → List (List α)
  | [] => [[]]
  | c :: r =>
    if c == sep then [] :: piecesAt sep r
    else match piecesAt sep r with
      | [] => [[c]]
      | p :: ps => (c :: p) :: ps

/-- A line without the carriage return at its end, if it has one. -/
def dropReturn (l : List Char) : List Char :=
  if l.getLast? = some '\r' then l.dropLast else l

/-- The lines of a list of characters. A line ends with a newline, which may have a carriage return
before it; what follows the last newline is a line only if it is not empty, and keeps its carriage
return. -/
def linesOf (s : List Char) : List (List Char) :=
  let pieces := piecesAt '\n' s
  let last := pieces.getLast?.getD []
  pieces.dropLast.map dropReturn ++ if last.isEmpty then [] else [last]

/-- The lines of a text. -/
def lines (s : String) : List String := (linesOf s.toList).map String.ofList

end BlockBoard

import BlockBoard.Script.Expr
/-!
# Tokens of an expression

The board reads a program as Python does: the text is first cut into tokens, each as long as it can
be, and the tokens are then grouped. This module is the first half, for the tokens that expressions
are made of. It accepts less than Python where a program never needs more: numerals are decimal,
names are of ASCII letters, and a text has the escapes that are written here.

- `Script.scanText`: the rest of a text after its opening quote, with the characters it stands for.
- `Script.scan?`: the first token of a piece of code.
- `Script.tokens?`: all of its tokens.
-/

namespace BlockBoard

namespace Script

/-- A token. Binary operators stand for themselves, the words among them too; a minus sign is the
token of subtraction also where it is a sign. -/
inductive Token where
  | name (n : String)
  | number (n : String)
  | text (s : String)
  | operator (op : BinaryOp)
  | notWord
  | opening | closing
  | openingBracket | closingBracket
  | comma | dot
  deriving DecidableEq, Repr

/-! ## Words and numerals -/

/-- Whether a character can begin a name. -/
def isNameStart (c : Char) : Bool := c.isAlpha || c == '_'

/-- Whether a character can stand in a name. -/
def isNameChar (c : Char) : Bool := c.isAlphanum || c == '_'

/-- The words that are no names, those of expressions apart. -/
def reservedWords : List String :=
  ["as", "assert", "async", "await", "break", "class", "continue", "def", "del", "elif", "else",
    "except", "finally", "for", "from", "global", "if", "import", "in", "is", "lambda", "nonlocal",
    "pass", "raise", "return", "try", "while", "with", "yield"]

/-- The token of a word. -/
def wordToken? (w : String) : Option Token :=
  if w = "and" then some (.operator .and)
  else if w = "or" then some (.operator .or)
  else if w = "not" then some .notWord
  else if w ∈ reservedWords then none
  else some (.name w)

/-- Whether what follows a numeral would belong to it, or to a name that no numeral may touch. -/
def touchesNumeral : List Char → Bool
  | [] => false
  | c :: _ => isNameChar c || c == '.'

/-- Whether an integer starts with a zero that it does not consist of. -/
def hasLeadingZero : List Char → Bool
  | '0' :: _ :: _ => true
  | _ => false

/-- A numeral: digits, and after a point more digits. -/
def scanNumber? (cs : List Char) : Option (Token × List Char) :=
  let whole := cs.takeWhile Char.isDigit
  match cs.dropWhile Char.isDigit with
  | '.' :: r =>
    let fraction := r.takeWhile Char.isDigit
    let rest := r.dropWhile Char.isDigit
    if fraction.isEmpty || touchesNumeral rest then none
    else some (.number (String.ofList (whole ++ '.' :: fraction)), rest)
  | rest =>
    if hasLeadingZero whole || touchesNumeral rest then none
    else some (.number (String.ofList whole), rest)

/-! ## Texts -/

/-- The value of a hexadecimal digit. -/
def hexDigit? (c : Char) : Option Nat :=
  if c.isDigit then some (c.toNat - '0'.toNat)
  else if 'a' ≤ c ∧ c ≤ 'f' then some (c.toNat - 'a'.toNat + 10)
  else if 'A' ≤ c ∧ c ≤ 'F' then some (c.toNat - 'A'.toNat + 10)
  else none

/-- The character that a backslash and one more character stand for. -/
def escaped? (c : Char) : Option Char :=
  if c = '\\' then some '\\'
  else if c = '"' then some '"'
  else if c = 'n' then some '\n'
  else if c = 'r' then some '\r'
  else if c = 't' then some '\t'
  else none

/-- One more character in front of a text that has been read. -/
def inFront (c : Char) (read : Option (List Char × List Char)) : Option (List Char × List Char) :=
  read.map fun (s, rest) => (c :: s, rest)

/-- The rest of a text in double quotes after the opening one: the characters that it stands for, and
what follows its closing quote. A text does not go beyond its line. -/
def scanText : List Char → Option (List Char × List Char)
  | [] => none
  | '"' :: r => some ([], r)
  | '\\' :: 'x' :: a :: b :: r => do
    let high ← hexDigit? a
    let low ← hexDigit? b
    inFront (Char.ofNat (16 * high + low)) (scanText r)
  | '\\' :: c :: r => do inFront (← escaped? c) (scanText r)
  | c :: r =>
    if c = '\\' ∨ c = '\n' ∨ c = '\r' ∨ c.toNat = 0 then none else inFront c (scanText r)

/-! ## All tokens -/

/-- An operator or a delimiter, the longest one. -/
def scanSymbol? : List Char → Option (Token × List Char)
  | '*' :: '*' :: r => some (.operator .power, r)
  | '/' :: '/' :: r => some (.operator .floorDivide, r)
  | '=' :: '=' :: r => some (.operator .equal, r)
  | '!' :: '=' :: r => some (.operator .notEqual, r)
  | '<' :: '=' :: r => some (.operator .lessEqual, r)
  | '>' :: '=' :: r => some (.operator .greaterEqual, r)
  | '+' :: r => some (.operator .add, r)
  | '-' :: r => some (.operator .subtract, r)
  | '*' :: r => some (.operator .multiply, r)
  | '/' :: r => some (.operator .divide, r)
  | '%' :: r => some (.operator .modulo, r)
  | '<' :: r => some (.operator .less, r)
  | '>' :: r => some (.operator .greater, r)
  | '(' :: r => some (.opening, r)
  | ')' :: r => some (.closing, r)
  | '[' :: r => some (.openingBracket, r)
  | ']' :: r => some (.closingBracket, r)
  | ',' :: r => some (.comma, r)
  | '.' :: r => some (.dot, r)
  | _ => none

/-- The first token, and what follows it. Three quotes in a row would begin another kind of text. -/
def scan? : List Char → Option (Token × List Char)
  | '"' :: '"' :: '"' :: _ => none
  | '"' :: r => (scanText r).map fun (s, rest) => (.text (String.ofList s), rest)
  | c :: r =>
    if c.isDigit then scanNumber? (c :: r)
    else if isNameStart c then
      (wordToken? (String.ofList ((c :: r).takeWhile isNameChar))).map
        fun t => (t, (c :: r).dropWhile isNameChar)
    else scanSymbol? (c :: r)
  | [] => none

/-- The tokens of a piece of code, with spaces between them or none. -/
def tokens? (cs : List Char) : Option (List Token) :=
  match cs with
  | [] => some []
  | c :: r =>
    if c = ' ' then tokens? r
    else match scan? (c :: r) with
      | some (t, rest) =>
        if rest.length < (c :: r).length then (tokens? rest).map (t :: ·) else none
      | none => none
termination_by cs.length
decreasing_by
  · exact Nat.lt_succ_self _
  · assumption

@[simp] theorem tokens?_nil : tokens? [] = some [] := by rw [tokens?]

@[simp] theorem tokens?_space (r : List Char) : tokens? (' ' :: r) = tokens? r := by
  rw [tokens?]; simp

/-- The first token comes first, provided that it takes something away. -/
theorem tokens?_of_scan {cs rest : List Char} {t : Token} (hs : scan? cs = some (t, rest))
    (hne : cs.head? ≠ some ' ') (hlt : rest.length < cs.length) :
    tokens? cs = (tokens? rest).map (t :: ·) := by
  cases cs with
  | nil => simp at hlt
  | cons c r =>
    have hc : c ≠ ' ' := by simpa using hne
    rw [tokens?]
    simp only [if_neg hc, hs, if_pos hlt]

end Script

end BlockBoard

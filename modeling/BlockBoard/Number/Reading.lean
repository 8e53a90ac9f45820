import BlockBoard.Number.Decimal
/-!
# Reading numbers that people type

- `readNumber?`: a number with an optional sign, point and exponent, or the name of an infinity or
  of what is no number.
-/

namespace BlockBoard

/-- A sign and the rest. -/
def splitSign : List Char → Bool × List Char
  | '-' :: r => (true, r)
  | '+' :: r => (false, r)
  | r => (false, r)

/-- The exponent of a numeral: nothing, or an `e` of either case, a sign and digits up to the end. -/
def readExponent? : List Char → Option Int
  | [] => some 0
  | c :: r =>
    if c == 'e' || c == 'E' then
      let (negative, ds) := splitSign r
      if ds.isEmpty || !ds.all Char.isDigit then none
      else some (if negative then -(digitsValue ds : Int) else digitsValue ds)
    else none

/-- An unsigned numeral: digits with an optional point among or beside them, at least one digit, and
an optional exponent. -/
def readDecimal? (s : List Char) : Option Decimal :=
  let whole := s.takeWhile Char.isDigit
  let (fraction, rest) := match s.dropWhile Char.isDigit with
    | '.' :: r => (r.takeWhile Char.isDigit, r.dropWhile Char.isDigit)
    | r => ([], r)
  if whole.isEmpty && fraction.isEmpty then none
  else (readExponent? rest).map fun e =>
    ⟨digitsValue (whole ++ fraction), e - fraction.length⟩

/-- A number as a person may type it, rounded to the closest double. -/
def readNumber? (s : String) : Option Binary64 :=
  let (negative, r) := splitSign s.toList
  let name := String.ofList (r.map Char.toLower)
  if name == "inf" || name == "infinity" then some (.infinity negative)
  else if name == "nan" then some .nan
  else (readDecimal? r).map (Decimal.toBinary64 negative)

end BlockBoard

import BlockBoard.Number.Decimal
import BlockBoard.Text.Visible
/-!
# Texts and numbers in messages

How a value is shown in a message so that it can be told where it ends: texts in quotes with what
cannot be seen escaped, numbers with a point.
-/

namespace BlockBoard

/-- A number in lowercase hexadecimal. -/
def hexText (n : Nat) : String := String.ofList (Nat.toDigits 16 n)

/-- A character as it is shown in a quoted text. -/
def shownChar (c : Char) : String :=
  if c = '"' then "\\\""
  else if c = '\\' then "\\\\"
  else if c = '\n' then "\\n"
  else if c = '\r' then "\\r"
  else if c = '\t' then "\\t"
  else if c.toNat = 0 then "\\0"
  else if isVisible c then c.toString
  else "\\u\x7b" ++ hexText c.toNat ++ "\x7d"

/-- A text in quotes. -/
def shown (s : String) : String := "\"" ++ String.join (s.toList.map shownChar) ++ "\""

/-- Numbers as plain text: the fewest digits that read back, the larger on a tie, never with an
exponent. -/
def plainNumber : Decimal.Layout :=
  { tie := .up, positional := none, fraction := false, plus := false }

/-- Numbers in messages: the fewest digits that read back, the larger on a tie; exponents of the
leading digit from -4 to 15 are written positionally, with `.0` after an integer. -/
def shownNumber : Decimal.Layout :=
  { tie := .up, positional := some (-4, 15), fraction := true, plus := false }

end BlockBoard

import BlockBoard.Json.Basic
/-!
# Writing JSON

Two forms of one document: `Json.compact` without blanks, `Json.pretty` with two blanks for each
level and one item a line.
-/

namespace BlockBoard

namespace Json

/-- A lowercase hexadecimal digit. -/
def hexDigit (n : Nat) : Char := Nat.digitChar (n % 16)

/-- A character as it is written inside a string. -/
def escapeChar (c : Char) : List Char :=
  if c = '"' then ['\\', '"']
  else if c = '\\' then ['\\', '\\']
  else if c = '\n' then ['\\', 'n']
  else if c = '\r' then ['\\', 'r']
  else if c = '\t' then ['\\', 't']
  else if c = '\x08' then ['\\', 'b']
  else if c = '\x0c' then ['\\', 'f']
  else if c.toNat < 0x20 then ['\\', 'u', '0', '0', hexDigit (c.toNat / 16), hexDigit c.toNat]
  else [c]

/-- A text in quotes. -/
def quote (s : String) : String := "\"" ++ String.ofList (s.toList.flatMap escapeChar) ++ "\""

/-- A number as it was written. -/
def Number.written (n : Number) : String :=
  (if n.negative then "-" else "") ++ String.ofList n.whole ++
    (if n.fraction.isEmpty then "" else "." ++ String.ofList n.fraction) ++
    match n.exponent with
    | none => ""
    | some e => "e" ++ (if e < 0 then "-" else "+") ++ decimalText e.natAbs

/-- A whole number as a document. -/
def ofInt (n : Int) : Json := .number ⟨decide (n < 0), Nat.toDigits 10 n.natAbs, [], none⟩

/-- A natural number as a document. -/
def ofNat (n : Nat) : Json := .number ⟨false, Nat.toDigits 10 n, [], none⟩

/-- The number that a decimal is written as in a document: exponents of the leading digit from -5 to
15 are written positionally, with `.0` after an integer, and all others with a signed exponent. -/
def Number.ofDecimal (negative : Bool) (d : Decimal) : Number :=
  let ds := Nat.toDigits 10 d.digits
  let point := d.pointPlace
  let e := point - 1
  if d.digits = 0 then ⟨negative, ['0'], ['0'], none⟩
  else if -5 ≤ e ∧ e ≤ 15 then
    if 0 ≤ d.exponent then ⟨negative, ds ++ List.replicate d.exponent.toNat '0', ['0'], none⟩
    else if 0 < point then ⟨negative, ds.take point.toNat, ds.drop point.toNat, none⟩
    else ⟨negative, ['0'], List.replicate (-point).toNat '0' ++ ds, none⟩
  else ⟨negative, ds.take 1, ds.drop 1, some e⟩

/-- A double as a document: the fewest digits that read back, the even one on a tie. What is not
finite has no number and is written as null. -/
def ofBinary64 (x : Binary64) : Json :=
  if x.isFinite then .number (.ofDecimal x.signBit (.shortest .even x)) else .null

/-- A string of a document; one that is no text is written empty. -/
def quoted (s : Option String) : String := quote (s.getD "")

mutual

/-- A document without blanks. -/
def compact : Json → String
  | .null => "null"
  | .boolean b => if b then "true" else "false"
  | .number n => n.written
  | .string s => quoted s
  | .array [] => "[]"
  | .array (v :: r) => "[" ++ v.compact ++ compactItems r ++ "]"
  | .object [] => "\x7b\x7d"
  | .object ((k, v) :: r) => "\x7b" ++ quoted k ++ ":" ++ v.compact ++ compactMembers r ++ "\x7d"

/-- Items after the first one. -/
def compactItems : List Json → String
  | [] => ""
  | v :: r => "," ++ v.compact ++ compactItems r

/-- Members after the first one. -/
def compactMembers : List (Option String × Json) → String
  | [] => ""
  | (k, v) :: r => "," ++ quoted k ++ ":" ++ v.compact ++ compactMembers r

end

/-- A line end and the blanks of a level. -/
def newLine (level : Nat) : String := "\n" ++ String.ofList (List.replicate (2 * level) ' ')

mutual

/-- A document with one item a line, from a level on. -/
def prettyAt (level : Nat) : Json → String
  | .null => "null"
  | .boolean b => if b then "true" else "false"
  | .number n => n.written
  | .string s => quoted s
  | .array [] => "[]"
  | .array (v :: r) =>
    "[" ++ newLine (level + 1) ++ v.prettyAt (level + 1) ++ prettyItems (level + 1) r ++
      newLine level ++ "]"
  | .object [] => "\x7b\x7d"
  | .object ((k, v) :: r) =>
    "\x7b" ++ newLine (level + 1) ++ quoted k ++ ": " ++ v.prettyAt (level + 1) ++
      prettyMembers (level + 1) r ++ newLine level ++ "\x7d"

/-- Items after the first one. -/
def prettyItems (level : Nat) : List Json → String
  | [] => ""
  | v :: r => "," ++ newLine level ++ v.prettyAt level ++ prettyItems level r

/-- Members after the first one. -/
def prettyMembers (level : Nat) : List (Option String × Json) → String
  | [] => ""
  | (k, v) :: r =>
    "," ++ newLine level ++ quoted k ++ ": " ++ v.prettyAt level ++ prettyMembers level r

end

/-- A document with one item a line. -/
def pretty (v : Json) : String := v.prettyAt 0

end Json

end BlockBoard

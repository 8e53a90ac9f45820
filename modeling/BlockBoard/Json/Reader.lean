import BlockBoard.Json.Basic
/-!
# Reading JSON

A recursive-descent reader over characters. Each part of the grammar takes the characters from its
start on and gives back what it read together with the characters after it; nothing means a syntax
error. Fuel bounds the nesting: a level costs at most two and takes at least one character.

- `Json.ofText?`: the document that a whole text holds.
-/

namespace BlockBoard

namespace Json

/-- The four characters that may stand between tokens. -/
def isSpace (c : Char) : Bool := c == ' ' || c == '\n' || c == '\t' || c == '\r'

/-- The text from its next token on. -/
def skipSpace (s : List Char) : List Char := s.dropWhile isSpace

/-- The rest of a text that starts with a given word. -/
def word? : List Char → List Char → Option (List Char)
  | [], r => some r
  | c :: w, d :: r => if c == d then word? w r else none
  | _ :: _, [] => none

/-- The value of a hexadecimal digit of either case. -/
def hexDigit? (c : Char) : Option Nat :=
  if '0' ≤ c && c ≤ '9' then some (c.toNat - 48)
  else if 'a' ≤ c && c ≤ 'f' then some (c.toNat - 87)
  else if 'A' ≤ c && c ≤ 'F' then some (c.toNat - 55)
  else none

/-- A code unit from four hexadecimal digits. -/
def codeUnit? (a b c d : Char) : Option Nat := do
  let a ← hexDigit? a
  let b ← hexDigit? b
  let c ← hexDigit? c
  let d ← hexDigit? d
  return ((a * 16 + b) * 16 + c) * 16 + d

/-- The character that a one-letter escape stands for. -/
def escaped? : Char → Option Char
  | '"' => some '"'
  | '\\' => some '\\'
  | '/' => some '/'
  | 'b' => some '\x08'
  | 'f' => some '\x0c'
  | 'n' => some '\n'
  | 'r' => some '\r'
  | 't' => some '\t'
  | _ => none

/-- What has been read of a string: a finished piece, or a code unit that still needs its second
half. -/
inductive StringPart where
  | char (c : Char)
  | unit (n : Nat)
  deriving DecidableEq

/-- The parts of a string up to its closing quote, and the rest. Control characters have to be
escaped. -/
def stringParts? : List Char → Option (List StringPart × List Char)
  | [] => none
  | '"' :: r => some ([], r)
  | '\\' :: 'u' :: a :: b :: c :: d :: r => do
    let n ← codeUnit? a b c d
    let (ps, rest) ← stringParts? r
    return (.unit n :: ps, rest)
  | '\\' :: e :: r => do
    let c ← escaped? e
    let (ps, rest) ← stringParts? r
    return (.char c :: ps, rest)
  | c :: r =>
    if c == '\\' || c.toNat < 0x20 then none
    else do
      let (ps, rest) ← stringParts? r
      return (.char c :: ps, rest)

/-- The characters that string parts spell. A code unit that is one half of a surrogate pair needs
the other half right after it. -/
def spell? : List StringPart → Option (List Char)
  | [] => some []
  | .char c :: r => (spell? r).map (c :: ·)
  | .unit n :: r =>
    if n < 0xD800 || 0xE000 ≤ n then (spell? r).map (Char.ofNat n :: ·)
    else match r with
      | .unit m :: r' =>
        if n < 0xDC00 && 0xDC00 ≤ m && m < 0xE000 then
          (spell? r').map (Char.ofNat (0x10000 + (n - 0xD800) * 0x400 + (m - 0xDC00)) :: ·)
        else none
      | _ => none

/-- A string after its opening quote. -/
def string? (s : List Char) : Option (Option String × List Char) := do
  let (ps, rest) ← stringParts? s
  return ((spell? ps).map String.ofList, rest)

/-- The exponent of a number, if one follows: a sign and at least one digit. -/
def exponent? : List Char → Option (Option Int × List Char)
  | c :: r =>
    if c == 'e' || c == 'E' then
      let (negative, t) := match r with
        | '-' :: t => (true, t)
        | '+' :: t => (false, t)
        | t => (false, t)
      let ds := t.takeWhile Char.isDigit
      if ds.isEmpty then none
      else
        let e : Int := digitsValue ds
        some (some (if negative then -e else e), t.dropWhile Char.isDigit)
    else some (none, c :: r)
  | [] => some (none, [])

/-- The fraction of a number, if a point follows: at least one digit. -/
def fraction? : List Char → Option (List Char × List Char)
  | '.' :: r =>
    let ds := r.takeWhile Char.isDigit
    if ds.isEmpty then none else some (ds, r.dropWhile Char.isDigit)
  | r => some ([], r)

/-- The digits before the point: a zero, or digits that do not start with one. -/
def whole? (s : List Char) : Option (List Char × List Char) :=
  let ds := s.takeWhile Char.isDigit
  let rest := s.dropWhile Char.isDigit
  match ds with
  | [] => none
  | '0' :: _ :: _ => none
  | _ => some (ds, rest)

/-- A number. -/
def number? (s : List Char) : Option (Number × List Char) := do
  let (negative, t) := match s with
    | '-' :: t => (true, t)
    | t => (false, t)
  let (whole, t) ← whole? t
  let (fraction, t) ← fraction? t
  let (exponent, t) ← exponent? t
  return (⟨negative, whole, fraction, exponent⟩, t)

mutual

/-- A value, with blanks allowed before it. -/
def value? : Nat → List Char → Option (Json × List Char)
  | 0, _ => none
  | fuel + 1, s =>
    match skipSpace s with
    | 'n' :: r => (word? "ull".toList r).map (.null, ·)
    | 't' :: r => (word? "rue".toList r).map (.boolean true, ·)
    | 'f' :: r => (word? "alse".toList r).map (.boolean false, ·)
    | '"' :: r => (string? r).map fun (t, rest) => (.string t, rest)
    | '[' :: r =>
      match skipSpace r with
      | ']' :: rest => some (.array [], rest)
      | r => (items? fuel r).map fun (vs, rest) => (.array vs, rest)
    | '{' :: r =>
      match skipSpace r with
      | '}' :: rest => some (.object [], rest)
      | r => (members? fuel r).map fun (ms, rest) => (.object ms, rest)
    | r => (number? r).map fun (n, rest) => (.number n, rest)

/-- The items of an array, of which there is at least one, and its closing bracket. -/
def items? : Nat → List Char → Option (List Json × List Char)
  | 0, _ => none
  | fuel + 1, s => do
    let (v, r) ← value? fuel s
    match skipSpace r with
    | ',' :: r => do
      let (vs, rest) ← items? fuel r
      return (v :: vs, rest)
    | ']' :: rest => return ([v], rest)
    | _ => none

/-- The members of an object, of which there is at least one, and its closing brace. -/
def members? : Nat → List Char → Option (List (Option String × Json) × List Char)
  | 0, _ => none
  | fuel + 1, s =>
    match skipSpace s with
    | '"' :: r => do
      let (k, r) ← string? r
      match skipSpace r with
      | ':' :: r => do
        let (v, r) ← value? fuel r
        match skipSpace r with
        | ',' :: r => do
          let (ms, rest) ← members? fuel r
          return ((k, v) :: ms, rest)
        | '}' :: rest => return ([(k, v)], rest)
        | _ => none
      | _ => none
    | _ => none

end

/-- The document that a text holds, with nothing but blanks after it. -/
def ofText? (s : String) : Option Json := do
  let cs := s.toList
  let (v, rest) ← value? (2 * cs.length + 2) cs
  if (skipSpace rest).isEmpty then some v else none

end Json

end BlockBoard

import BlockBoard.Number.Reading
import BlockBoard.Settings.Toml.Basic
/-!
# Reading configuration documents

A reader for TOML, line by line. Each part of the grammar takes the characters from its start on and
gives back what it read together with the characters after it; nothing means a syntax error.

- `Toml.ofText?`: the table that a text denotes.
-/

namespace BlockBoard

namespace Toml

/-! ## Blanks, comments and line ends -/

/-- A blank or a tab. -/
def isGap (c : Char) : Bool := c == ' ' || c == '\t'

/-- The text from the next character that is no gap on. -/
def skipGaps (s : List Char) : List Char := s.dropWhile isGap

/-- Whether a character may not stand in a document by itself. -/
def isControl (c : Char) : Bool := (c.toNat < 0x20 && c != '\t') || c.toNat == 0x7f

/-- The text after a line end, if there is one. -/
def lineEnd? : List Char → Option (List Char)
  | '\n' :: r => some r
  | '\r' :: '\n' :: r => some r
  | _ => none

/-- The text after a comment, if one begins here. -/
def skipComment : List Char → List Char
  | '#' :: r => r.dropWhile fun c => !isControl c
  | r => r

/-- The text after the rest of a line: gaps and a comment, and then the line end or the end of the
text. -/
def endOfLine? (s : List Char) : Option (List Char) :=
  match skipComment (skipGaps s) with
  | [] => some []
  | r => lineEnd? r

/-- The text from the next item of an array or of a table in braces on. -/
def skipLines : Nat → List Char → List Char
  | 0, s => s
  | fuel + 1, s =>
    let s := skipComment (skipGaps s)
    match lineEnd? s with
    | some r => skipLines fuel r
    | none => s

/-! ## Strings -/

/-- The value of a hexadecimal digit. -/
def hexDigit? (c : Char) : Option Nat :=
  if c.isDigit then some (c.toNat - 48)
  else if 'a' ≤ c && c ≤ 'f' then some (c.toNat - 87)
  else if 'A' ≤ c && c ≤ 'F' then some (c.toNat - 55)
  else none

/-- The character given by so many hexadecimal digits. -/
def coded? (width : Nat) (s : List Char) : Option (Char × List Char) := do
  if s.length < width then none
  else
    let n ← (s.take width).foldlM (fun n c => (hexDigit? c).map (16 * n + ·)) 0
    if n.isValidChar then some (Char.ofNat n, s.drop width) else none

/-- The character after a backslash. -/
def escaped? : List Char → Option (Char × List Char)
  | [] => none
  | c :: r =>
    match c with
    | 'b' => some ('\x08', r)
    | 't' => some ('\t', r)
    | 'n' => some ('\n', r)
    | 'f' => some ('\x0c', r)
    | 'r' => some ('\r', r)
    | 'e' => some ('\x1b', r)
    | '"' => some ('"', r)
    | '\\' => some ('\\', r)
    | 'x' => coded? 2 r
    | 'u' => coded? 4 r
    | 'U' => coded? 8 r
    | _ => none

/-- The rest of a string in double quotes. -/
def basic? : Nat → List Char → Option (List Char × List Char)
  | 0, _ => none
  | fuel + 1, s =>
    match s with
    | [] => none
    | '"' :: r => some ([], r)
    | '\\' :: r => do
      let (c, r) ← escaped? r
      let (cs, rest) ← basic? fuel r
      return (c :: cs, rest)
    | c :: r => do
      if isControl c then none
      else
        let (cs, rest) ← basic? fuel r
        return (c :: cs, rest)

/-- The rest of a string in single quotes, in which nothing is escaped. -/
def literal? : List Char → Option (List Char × List Char)
  | [] => none
  | '\'' :: r => some ([], r)
  | c :: r =>
    if isControl c then none
    else (literal? r).map fun (cs, rest) => (c :: cs, rest)

/-- A text after its first line end, if it starts with one. -/
def skipLineEnd (s : List Char) : List Char := (lineEnd? s).getD s

/-- The quotes that end a string of several lines: three, with up to two more that belong to it. -/
def closing? (q : Char) (s : List Char) : Option (List Char × List Char) :=
  let n := ((s.take 5).takeWhile (· == q)).length
  if n < 3 then none else some (List.replicate (n - 3) q, s.drop n)

/-- The text after a backslash at the end of a line, without the blanks and line ends that follow. -/
def skipFold? (s : List Char) : Option (List Char) :=
  (lineEnd? (skipGaps s)).map fun r =>
    r.dropWhile fun c => isGap c || c == '\n' || c == '\r'

/-- The rest of a string of several lines. -/
def multiLine? (q : Char) (escapes : Bool) : Nat → List Char → Option (List Char × List Char)
  | 0, _ => none
  | fuel + 1, s =>
    match closing? q s with
    | some done => some done
    | none =>
      match s with
      | [] => none
      | c :: r =>
        if escapes && c == '\\' then
          match skipFold? r with
          | some r => multiLine? q escapes fuel r
          | none => do
            let (c, r) ← escaped? r
            let (cs, rest) ← multiLine? q escapes fuel r
            return (c :: cs, rest)
        else
          match lineEnd? (c :: r) with
          | some r => (multiLine? q escapes fuel r).map fun (cs, rest) => ('\n' :: cs, rest)
          | none =>
            if isControl c then none
            else (multiLine? q escapes fuel r).map fun (cs, rest) => (c :: cs, rest)

/-- A string of any kind, if one begins here. -/
def string? : List Char → Option (List Char × List Char)
  | '"' :: '"' :: '"' :: r => multiLine? '"' true (r.length + 1) (skipLineEnd r)
  | '\'' :: '\'' :: '\'' :: r => multiLine? '\'' false (r.length + 1) (skipLineEnd r)
  | '"' :: r => basic? (r.length + 1) r
  | '\'' :: r => literal? r
  | _ => none

/-! ## Keys -/

/-- Whether a character may stand in a key without quotes. -/
def isKeyChar (c : Char) : Bool := c.isAlphanum || c == '_' || c == '-'

/-- One part of a key. -/
def simpleKey? : List Char → Option (String × List Char)
  | '"' :: r => (basic? (r.length + 1) r).map fun (cs, rest) => (String.ofList cs, rest)
  | '\'' :: r => (literal? r).map fun (cs, rest) => (String.ofList cs, rest)
  | s =>
    let cs := s.takeWhile isKeyChar
    if cs.isEmpty then none else some (String.ofList cs, s.drop cs.length)

/-- A key: parts with points between them. -/
def key? : Nat → List Char → Option (List String × List Char)
  | 0, _ => none
  | fuel + 1, s => do
    let (k, r) ← simpleKey? (skipGaps s)
    match skipGaps r with
    | '.' :: r =>
      let (ks, rest) ← key? fuel r
      return (k :: ks, rest)
    | r => return ([k], r)

/-! ## Numbers, truth values and dates -/

/-- Digits with single underscores between them, without those. -/
def grouped? (isDigit : Char → Bool) : List Char → Option (List Char)
  | [] => none
  | [c] => if isDigit c then some [c] else none
  | c :: '_' :: r => if isDigit c then (grouped? isDigit r).map (c :: ·) else none
  | c :: r => if isDigit c then (grouped? isDigit r).map (c :: ·) else none

/-- The value of digits of a base. -/
def valueIn (base : Nat) (ds : List Char) : Nat :=
  ds.foldl (fun n c => base * n + (hexDigit? c).getD 0) 0

/-- An unsigned number of another base. -/
def based? : List Char → Option Nat
  | '0' :: 'x' :: r => (grouped? (fun c => (hexDigit? c).isSome) r).map (valueIn 16)
  | '0' :: 'o' :: r => (grouped? (fun c => '0' ≤ c && c ≤ '7') r).map (valueIn 8)
  | '0' :: 'b' :: r => (grouped? (fun c => c == '0' || c == '1') r).map (valueIn 2)
  | _ => none

/-- The digits of a decimal integer, which do not start with a superfluous zero. -/
def whole? (s : List Char) : Option (List Char) :=
  match grouped? Char.isDigit s with
  | some ('0' :: _ :: _) => none
  | r => r

/-- The digits after the point of a number, if it has one. -/
def fraction? : List Char → Option (List Char)
  | [] => some []
  | '.' :: r => grouped? Char.isDigit r
  | _ => none

/-- The exponent of a number after its letter. -/
def exponent? (s : List Char) : Option Int :=
  let (negative, ds) := splitSign s
  (grouped? Char.isDigit ds).map fun ds =>
    if negative then -(digitsValue ds : Int) else digitsValue ds

/-- An unsigned number with a point or an exponent. -/
def unsignedDecimal? (s : List Char) : Option Decimal := do
  let mantissa := s.takeWhile fun c => c != 'e' && c != 'E'
  let e ← match s.drop mantissa.length with
    | [] => some 0
    | _ :: r => exponent? r
  let digits := mantissa.takeWhile (· != '.')
  let whole ← whole? digits
  let fraction ← fraction? (mantissa.drop digits.length)
  return ⟨digitsValue (whole ++ fraction), e - fraction.length⟩

/-- A double, if it is not beyond all of them. -/
def finite? (x : Binary64) : Option Toml := if x.isFinite then some (.decimal x) else none

/-- An integer, if 128 bits can hold it. -/
def bounded? (n : Int) : Option Toml :=
  if -Int.ofNat (Nat.pow 2 127) ≤ n ∧ n < Int.ofNat (Nat.pow 2 128) then some (.integer n) else none

/-- A number of any kind. -/
def number? (s : List Char) : Option Toml :=
  match based? s with
  | some n => bounded? n
  | none =>
    let (negative, r) := splitSign s
    if r = "inf".toList then some (.decimal (.infinity negative))
    else if r = "nan".toList then some (.decimal .nan)
    else match whole? r with
      | some ds => bounded? (if negative then -(digitsValue ds : Int) else digitsValue ds)
      | none => (unsignedDecimal? r).bind fun d => finite? (d.toBinary64 negative)

/-- Two digits within bounds, and the rest. -/
def pair? (least most : Nat) : List Char → Option (Nat × List Char)
  | a :: b :: r =>
    if a.isDigit && b.isDigit && least ≤ digitsValue [a, b] && digitsValue [a, b] ≤ most then
      some (digitsValue [a, b], r)
    else none
  | _ => none

/-- The text after a given character. -/
def after? (c : Char) : List Char → Option (List Char)
  | d :: r => if c == d then some r else none
  | [] => none

/-- The number of days in a month. -/
def monthDays (year : Nat) : Nat → Nat
  | 2 => if year % 4 = 0 ∧ (year % 100 ≠ 0 ∨ year % 400 = 0) then 29 else 28
  | 4 | 6 | 9 | 11 => 30
  | _ => 31

/-- The text after a date. -/
def date? (s : List Char) : Option (List Char) := do
  let (century, s) ← pair? 0 99 s
  let (year, s) ← pair? 0 99 s
  let (month, s) ← pair? 1 12 (← after? '-' s)
  let (_, s) ← pair? 1 (monthDays (100 * century + year) month) (← after? '-' s)
  return s

/-- The text after a time of day. Seconds may be left out. -/
def time? (s : List Char) : Option (List Char) := do
  let (_, s) ← pair? 0 23 s
  let (_, s) ← pair? 0 59 (← after? ':' s)
  match s with
  | ':' :: r =>
    let (_, s) ← pair? 0 60 r
    match s with
    | '.' :: r => if (r.headD ' ').isDigit then some (r.dropWhile Char.isDigit) else none
    | s => some s
  | s => some s

/-- Whether a text is the distance from Coordinated Universal Time, or nothing. -/
def isOffset : List Char → Bool
  | [] | ['Z'] | ['z'] => true
  | c :: r =>
    (c == '+' || c == '-') && ((do
      let (_, r) ← pair? 0 23 r
      let (_, r) ← pair? 0 59 (← after? ':' r)
      if r.isEmpty then some () else none : Option Unit).isSome)

/-- Whether a text is a date, a time of day, or both. -/
def isDateTime (s : List Char) : Bool :=
  time? s == some [] ||
    match date? s with
    | none => false
    | some [] => true
    | some (c :: r) => (c == 'T' || c == 't' || c == ' ') && ((time? r).map isOffset).getD false

/-- Whether a character may stand in a value without quotes. -/
def isScalarChar (c : Char) : Bool := isKeyChar c || c == '+' || c == '.' || c == ':'

/-- The characters of a value without quotes. A date and a time may have a blank between them. -/
def scalarChars (s : List Char) : List Char :=
  let cs := s.takeWhile isScalarChar
  match s.drop cs.length with
  | ' ' :: d :: r =>
    if d.isDigit && date? cs == some [] then cs ++ ' ' :: (d :: r).takeWhile isScalarChar else cs
  | _ => cs

/-- The value of characters without quotes. -/
def scalar? (cs : List Char) : Option Toml :=
  if cs = "true".toList then some (.boolean true)
  else if cs = "false".toList then some (.boolean false)
  else if isDateTime cs then some .dateTime
  else number? cs

/-! ## Values -/

mutual

/-- A value. -/
def value? : Nat → List Char → Option (Toml × List Char)
  | 0, _ => none
  | fuel + 1, s =>
    match s with
    | '[' :: r => (items? fuel r).map fun (vs, rest) => (.array vs, rest)
    | '{' :: r => (entries? fuel [] r).map fun (t, rest) => (.table .inline t, rest)
    | c :: r =>
      if c == '"' || c == '\'' then
        (string? (c :: r)).map fun (cs, rest) => (.text (String.ofList cs), rest)
      else
        let cs := scalarChars (c :: r)
        (scalar? cs).map fun v => (v, (c :: r).drop cs.length)
    | [] => none

/-- The items of an array and its closing bracket. -/
def items? : Nat → List Char → Option (List Toml × List Char)
  | 0, _ => none
  | fuel + 1, s =>
    match skipLines (s.length + 1) s with
    | ']' :: rest => some ([], rest)
    | s => do
      let (v, r) ← value? fuel s
      match skipLines (r.length + 1) r with
      | ',' :: r =>
        let (vs, rest) ← items? fuel r
        return (v :: vs, rest)
      | ']' :: rest => return ([v], rest)
      | _ => none

/-- The entries of a table in braces and its closing brace. -/
def entries? : Nat → TomlTable → List Char → Option (TomlTable × List Char)
  | 0, _, _ => none
  | fuel + 1, t, s =>
    match skipLines (s.length + 1) s with
    | '}' :: rest => some (t, rest)
    | s => do
      let (path, r) ← key? (s.length + 1) s
      let r ← after? '=' r
      let (v, r) ← value? fuel (skipGaps r)
      let t ← TomlTable.assign? v path t
      match skipLines (r.length + 1) r with
      | ',' :: r => entries? fuel t r
      | '}' :: rest => return (t, rest)
      | _ => none

end

/-! ## Documents -/

/-- A line of a document. -/
inductive Line where
  | table (path : List String)
  | tables (path : List String)
  | entry (path : List String) (v : Toml)

/-- The text after a header's closing brackets and the rest of its line. -/
def closeHeader? (brackets : List Char) (s : List Char) : Option (List Char) :=
  if brackets.isPrefixOf s then endOfLine? (s.drop brackets.length) else none

/-- A line that is not empty. -/
def line? (s : List Char) : Option (Line × List Char) :=
  match s with
  | '[' :: '[' :: r => do
    let (path, r) ← key? (r.length + 1) r
    return (.tables path, ← closeHeader? [']', ']'] r)
  | '[' :: r => do
    let (path, r) ← key? (r.length + 1) r
    return (.table path, ← closeHeader? [']'] r)
  | s => do
    let (path, r) ← key? (s.length + 1) s
    let r := skipGaps (← after? '=' r)
    let (v, r) ← value? (2 * r.length + 2) r
    return (.entry path v, ← endOfLine? r)

/-- The lines of a document that are not empty. -/
def lines? : Nat → List Char → Option (List Line)
  | 0, _ => none
  | fuel + 1, s =>
    match skipComment (skipGaps s) with
    | [] => some []
    | s =>
      match lineEnd? s with
      | some r => lines? fuel r
      | none => do
        let (line, r) ← line? s
        return line :: (← lines? fuel r)

/-- The document and the path of the table that entries go to, after some lines. -/
def build? : TomlTable → List String → List Line → Option TomlTable
  | t, _, [] => some t
  | t, _, .table path :: r => do build? (← t.open? path) path r
  | t, _, .tables path :: r => do build? (← t.append? path) path r
  | t, current, .entry path v :: r => do
    build? (← TomlTable.within? (TomlTable.assign? v path) current t) current r

/-- The table that a text denotes. A byte order mark before it is passed over. -/
def ofText? (s : String) : Option TomlTable := do
  let cs := match s.toList with
    | '\ufeff' :: r => r
    | r => r
  build? [] [] (← lines? (cs.length + 1) cs)

end Toml

end BlockBoard

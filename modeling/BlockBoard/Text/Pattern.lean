import BlockBoard.Number.Decimal
import BlockBoard.Text.Blank
/-!
# Patterns for names

Regular expressions over characters, which are searched for anywhere in a text. Whether a text has a
match is decided on sets of places: from the places where a part may begin, the places where it may end.

- `Pattern`: an expression.
- `Pattern.occursIn`: whether a text has a match.
- `Pattern.ofText?`: reads the usual notation.
-/

namespace BlockBoard

/-- A set of characters. -/
inductive CharSet where
  | range (first last : Char)
  | digit
  | blank
  | wordChar
  | union (sets : List CharSet)
  | complement (s : CharSet)

namespace CharSet

mutual

/-- Whether a character is in a set. Digits and the characters of words are those of ASCII. -/
def contains (c : Char) : CharSet → Bool
  | range first last => first ≤ c && c ≤ last
  | digit => c.isDigit
  | blank => isBlank c
  | wordChar => c.isAlphanum || c == '_'
  | union sets => containsAny c sets
  | complement s => !s.contains c

/-- Whether a character is in one of several sets. -/
def containsAny (c : Char) : List CharSet → Bool
  | [] => false
  | s :: r => s.contains c || containsAny c r

end

/-- The set of one character. -/
def single (c : Char) : CharSet := range c c

end CharSet

/-- A regular expression. -/
inductive Pattern where
  /-- Nothing at all. -/
  | empty
  | oneOf (s : CharSet)
  /-- The start of the text. -/
  | start
  /-- The end of the text. -/
  | finish
  | seq (p q : Pattern)
  | alt (p q : Pattern)
  /-- At least `least` times; at most `most` times, if that is limited. -/
  | times (p : Pattern) (least : Nat) (most : Option Nat)

namespace Pattern

/-! ## Matching -/

/-- Places without the repeated ones. A place is the text after it. -/
def places (ps : List (List Char)) : List (List Char) :=
  ps.foldr (fun p seen => if seen.any fun q => q.length == p.length then seen else p :: seen) []

/-- The places after a character of a set. -/
def advance (s : CharSet) (ps : List (List Char)) : List (List Char) :=
  ps.filterMap fun
    | c :: r => if s.contains c then some r else none
    | [] => none

/-- A step taken a number of times. -/
def iterate (step : List (List Char) → List (List Char)) : Nat → List (List Char) → List (List Char)
  | 0, ps => ps
  | n + 1, ps => iterate step n (step ps)

/-- The places that are reached by taking a step at most a number of times. -/
def reach (step : List (List Char) → List (List Char)) :
    Nat → List (List Char) → List (List Char)
  | 0, ps => ps
  | n + 1, ps => places (ps ++ reach step n (step ps))

/-- Where a pattern may end if it begins at one of some places, in a text of a given length. More
repetitions than the text is long reach no further places. -/
def ends (length : Nat) : Pattern → List (List Char) → List (List Char)
  | empty, ps => ps
  | oneOf s, ps => places (advance s ps)
  | start, ps => ps.filter fun p => p.length == length
  | finish, ps => ps.filter List.isEmpty
  | seq p q, ps => q.ends length (p.ends length ps)
  | alt p q, ps => places (p.ends length ps ++ q.ends length ps)
  | times p least most, ps =>
    let more := (most.map fun m => min (m - least) (length + 1)).getD (length + 1)
    reach (p.ends length) more (iterate (p.ends length) least ps)

/-- All places of a text. -/
def allPlaces : List Char → List (List Char)
  | [] => [[]]
  | c :: r => (c :: r) :: allPlaces r

/-- Whether a text has a match. -/
def occursIn (p : Pattern) (s : String) : Bool :=
  !(p.ends s.toList.length (allPlaces s.toList)).isEmpty

/-! ## Reading -/

/-- Any character but a newline. -/
def anyChar : CharSet := .complement (.single '\n')

/-- The characters with a meaning of their own, and other marks, which stand for themselves after a
backslash. -/
def isEscapable (c : Char) : Bool :=
  c.toNat < 128 && !c.isAlphanum && c != '<' && c != '>'

/-- The value of hexadecimal digits. -/
def hexValue? : List Char → Option Nat
  | [] => some 0
  | ds => ds.foldlM (fun n c =>
      if c.isDigit then some (16 * n + (c.toNat - 48))
      else if 'a' ≤ c && c ≤ 'f' then some (16 * n + (c.toNat - 87))
      else if 'A' ≤ c && c ≤ 'F' then some (16 * n + (c.toNat - 55))
      else none) 0

/-- The character with a code. -/
def charOf? (n : Nat) : Option Char := if n.isValidChar then some (Char.ofNat n) else none

/-- A character given by its code: so many digits, or any number of them in braces. -/
def codedChar? (width : Nat) : List Char → Option (Char × List Char)
  | '{' :: r => do
    let ds := r.takeWhile (· != '}')
    if ds.isEmpty then none
    else match r.drop ds.length with
      | '}' :: rest => return (← charOf? (← hexValue? ds), rest)
      | _ => none
  | r => do
    if r.length < width then none
    else return (← charOf? (← hexValue? (r.take width)), r.drop width)

/-- The set that stands after a backslash. -/
def escapedSet? : List Char → Option (CharSet × List Char)
  | [] => none
  | c :: r =>
    match c with
    | 'd' => some (.digit, r)
    | 'D' => some (.complement .digit, r)
    | 's' => some (.blank, r)
    | 'S' => some (.complement .blank, r)
    | 'w' => some (.wordChar, r)
    | 'W' => some (.complement .wordChar, r)
    | 'n' => some (.single '\n', r)
    | 't' => some (.single '\t', r)
    | 'r' => some (.single '\r', r)
    | 'f' => some (.single '\x0c', r)
    | 'v' => some (.single '\x0b', r)
    | 'a' => some (.single '\x07', r)
    | 'x' => (codedChar? 2 r).map fun (c, rest) => (.single c, rest)
    | 'u' => (codedChar? 4 r).map fun (c, rest) => (.single c, rest)
    | 'U' => (codedChar? 8 r).map fun (c, rest) => (.single c, rest)
    | c => if isEscapable c then some (.single c, r) else none

/-- The sets that have a name in brackets. -/
def namedSet? (name : String) : Option CharSet :=
  match name with
  | "alnum" => some (.union [.range '0' '9', .range 'A' 'Z', .range 'a' 'z'])
  | "alpha" => some (.union [.range 'A' 'Z', .range 'a' 'z'])
  | "ascii" => some (.range '\x00' '\x7f')
  | "blank" => some (.union [.single '\t', .single ' '])
  | "cntrl" => some (.union [.range '\x00' '\x1f', .single '\x7f'])
  | "digit" => some (.range '0' '9')
  | "graph" => some (.range '!' '~')
  | "lower" => some (.range 'a' 'z')
  | "print" => some (.range ' ' '~')
  | "punct" => some (.union [.range '!' '/', .range ':' '@', .range '[' (Char.ofNat 96),
      .range '\x7b' '~'])
  | "space" => some (.union [.range '\t' '\r', .single ' '])
  | "upper" => some (.range 'A' 'Z')
  | "word" => some .wordChar
  | "xdigit" => some (.union [.range '0' '9', .range 'A' 'F', .range 'a' 'f'])
  | _ => none

/-- A set with a name, after its opening bracket and colon. -/
def named? (s : List Char) : Option (CharSet × List Char) := do
  let (negated, s) := match s with
    | '^' :: r => (true, r)
    | r => (false, r)
  let name := s.takeWhile Char.isAlpha
  match s.drop name.length with
  | ':' :: ']' :: rest =>
    let set ← namedSet? (String.ofList name)
    return (if negated then .complement set else set, rest)
  | _ => none

/-- A character of a bracket expression that may begin or end a range, or a set after a backslash. -/
def bracketPart? : List Char → Option (CharSet × List Char)
  | [] => none
  | '\\' :: r => escapedSet? r
  | c :: r => some (.single c, r)

/-- The range from one set to another, which have to be single characters in order. -/
def rangeOf? : CharSet → CharSet → Option CharSet
  | .range a b, .range c d => if a = b ∧ c = d ∧ a ≤ c then some (.range a c) else none
  | _, _ => none

/-- The operators on sets that are not understood. -/
def isSetOperator : List Char → Bool
  | '&' :: '&' :: _ | '-' :: '-' :: _ | '~' :: '~' :: _ => true
  | _ => false

mutual

/-- The parts of a bracket expression up to the closing bracket, for at most `fuel` parts. -/
def bracketParts? : Nat → List Char → Option (List CharSet × List Char)
  | 0, _ => none
  | fuel + 1, s => do
    match s with
    | [] => none
    | ']' :: rest => return ([], rest)
    | '[' :: ':' :: r =>
      match named? r with
      | some (set, rest) => do
        let (sets, rest) ← bracketParts? fuel rest
        return (set :: sets, rest)
      | none => nestedPart? fuel (':' :: r)
    | '[' :: r => nestedPart? fuel r
    | s =>
      if isSetOperator s then none
      let (first, r) ← bracketPart? s
      match r with
      | '-' :: d :: r' =>
        if d == ']' || d == '-' then do
          let (sets, rest) ← bracketParts? fuel r
          return (first :: sets, rest)
        else do
          let (last, r') ← bracketPart? (d :: r')
          let set ← rangeOf? first last
          let (sets, rest) ← bracketParts? fuel r'
          return (set :: sets, rest)
      | r => do
        let (sets, rest) ← bracketParts? fuel r
        return (first :: sets, rest)

/-- A bracket expression inside another one, and the parts after it. -/
def nestedPart? : Nat → List Char → Option (List CharSet × List Char)
  | 0, _ => none
  | fuel + 1, s => do
    let (set, rest) ← bracket? fuel s
    let (sets, rest) ← bracketParts? fuel rest
    return (set :: sets, rest)

/-- A bracket expression after its opening bracket. A closing bracket or hyphens at its start are
members. -/
def bracket? : Nat → List Char → Option (CharSet × List Char)
  | 0, _ => none
  | fuel + 1, s => do
    let (negated, s) := match s with
      | '^' :: r => (true, r)
      | r => (false, r)
    let hyphens := s.takeWhile (· == '-')
    let s := s.drop hyphens.length
    let (opening, s) := match s with
      | ']' :: r => if hyphens.isEmpty then ([CharSet.single ']'], r) else ([], ']' :: r)
      | r => ([], r)
    let (sets, rest) ← bracketParts? fuel s
    let set := .union (hyphens.map CharSet.single ++ opening ++ sets)
    return (if negated then .complement set else set, rest)

end

/-- A count inside braces, with blanks allowed around it. -/
def count? (s : List Char) : Option (Nat × List Char) :=
  let s := s.dropWhile isBlank
  let ds := s.takeWhile Char.isDigit
  if ds.isEmpty || UInt32.size ≤ digitsValue ds then none
  else some (digitsValue ds, (s.drop ds.length).dropWhile isBlank)

/-- The bounds of a repetition after the opening brace. -/
def bounds? (s : List Char) : Option (Nat × Option Nat × List Char) := do
  let (least, s) ← count? s
  match s with
  | '}' :: rest => return (least, some least, rest)
  | ',' :: s =>
    match s.dropWhile isBlank with
    | '}' :: rest => return (least, none, rest)
    | s =>
      let (most, s) ← count? s
      match s with
      | '}' :: rest => if least ≤ most then return (least, some most, rest) else none
      | _ => none
  | _ => none

/-- A repetition may be marked as reluctant, which makes no difference to whether there is a match. -/
def skipReluctant : List Char → List Char
  | '?' :: r => r
  | r => r

/-- The repetitions after an expression. -/
def repeated? : Nat → Pattern → List Char → Option (Pattern × List Char)
  | 0, _, _ => none
  | fuel + 1, p, s =>
    match s with
    | '*' :: r => repeated? fuel (.times p 0 none) (skipReluctant r)
    | '+' :: r => repeated? fuel (.times p 1 none) (skipReluctant r)
    | '?' :: r => repeated? fuel (.times p 0 (some 1)) (skipReluctant r)
    | '{' :: r => do
      let (least, most, r) ← bounds? r
      repeated? fuel (.times p least most) (skipReluctant r)
    | r => some (p, r)

/-- The text after the opening of a group: a plain one, one that is not numbered, or one with a name. -/
def groupBody? : List Char → Option (List Char)
  | '?' :: ':' :: r => some r
  | '?' :: 'P' :: '<' :: r | '?' :: '<' :: r =>
    let name := r.takeWhile (· != '>')
    let first := name.headD ' '
    if (first.isAlpha || first == '_') &&
        name.all fun c => c.isAlphanum || c == '_' || c == '.' || c == '[' || c == ']' then
      match r.drop name.length with
      | '>' :: rest => some rest
      | _ => none
    else none
  | '?' :: _ => none
  | r => some r

mutual

/-- Alternatives, up to a closing parenthesis or the end. -/
def alternatives? : Nat → List Char → Option (Pattern × List Char)
  | 0, _ => none
  | fuel + 1, s => do
    let (p, r) ← sequence? fuel s
    match r with
    | '|' :: r => do
      let (q, rest) ← alternatives? fuel r
      return (.alt p q, rest)
    | r => return (p, r)

/-- Expressions one after the other. -/
def sequence? : Nat → List Char → Option (Pattern × List Char)
  | 0, _ => none
  | fuel + 1, s =>
    match s with
    | [] => some (.empty, [])
    | '|' :: r => some (.empty, '|' :: r)
    | ')' :: r => some (.empty, ')' :: r)
    | s => do
      let (p, r) ← atom? fuel s
      let (p, r) ← repeated? (r.length + 1) p r
      let (q, rest) ← sequence? fuel r
      return (.seq p q, rest)

/-- One expression without a repetition. -/
def atom? : Nat → List Char → Option (Pattern × List Char)
  | 0, _ => none
  | fuel + 1, s =>
    match s with
    | [] => none
    | '.' :: r => some (.oneOf anyChar, r)
    | '^' :: r => some (.start, r)
    | '$' :: r => some (.finish, r)
    | '\\' :: 'A' :: r => some (.start, r)
    | '\\' :: 'z' :: r => some (.finish, r)
    | '\\' :: r => (escapedSet? r).map fun (set, rest) => (.oneOf set, rest)
    | '[' :: r => (bracket? (2 * r.length + 2) r).map fun (set, rest) => (.oneOf set, rest)
    | '(' :: r => do
      let r ← groupBody? r
      match ← alternatives? fuel r with
      | (p, ')' :: rest) => some (p, rest)
      | _ => none
    | c :: r =>
      if c == '*' || c == '+' || c == '?' || c == '{' then none
      else some (.oneOf (.single c), r)

end

/-- How large a pattern is once its repetitions are written out. -/
def size : Pattern → Nat
  | seq p q => p.size + q.size
  | alt p q => 1 + p.size + q.size
  | times p least most => 1 + (max 1 (most.getD least)) * p.size
  | _ => 1

/-- The greatest size that is accepted. -/
def sizeLimit : Nat := 200000

/-- The pattern that a text denotes. -/
def ofText? (s : String) : Option Pattern :=
  let cs := s.toList
  match alternatives? (3 * cs.length + 3) cs with
  | some (p, []) => if p.size ≤ sizeLimit then some p else none
  | _ => none

end Pattern

end BlockBoard

import BlockBoard.Number.Decimal
/-!
# JSON documents

A document is kept as it was written: numbers as their digits, and the members of an object in
order, repeated keys included. What a number means is decided when a reader asks for it.

- `Json`: a document.
- `Json.Number.toBinary64?`, `Json.Number.toInteger?`: the two readings of a number.
- `Json.depth`: how deeply arrays and objects are nested.
-/

namespace BlockBoard

/-- A number as written: `-12.5e3` has the digits `12`, the fraction `5` and the exponent 3. -/
structure Json.Number where
  negative : Bool
  whole : List Char
  /-- The digits after the point; a point is always followed by one. -/
  fraction : List Char
  exponent : Option Int
  deriving DecidableEq, Repr

/-- A JSON document. A string is `none` when an escape in it names one half of a surrogate pair
without the other: it is well formed, but it is no text. -/
inductive Json where
  | null
  | boolean (b : Bool)
  | number (n : Json.Number)
  | string (s : Option String)
  | array (items : List Json)
  | object (members : List (Option String × Json))

namespace Json

/-- A string that is a text. -/
def text (s : String) : Json := .string (some s)

mutual

/-- The nesting of arrays and objects: none for a scalar, one for an array of scalars. -/
def depth : Json → Nat
  | .array items => 1 + depthOfItems items
  | .object members => 1 + depthOfMembers members
  | _ => 0

/-- The greatest nesting among the items of an array. -/
def depthOfItems : List Json → Nat
  | [] => 0
  | v :: r => max v.depth (depthOfItems r)

/-- The greatest nesting among the values of an object. -/
def depthOfMembers : List (Option String × Json) → Nat
  | [] => 0
  | (_, v) :: r => max v.depth (depthOfMembers r)

end

namespace Number

/-- Whether the number is written without a point and without an exponent. -/
def isWhole (n : Number) : Bool := n.fraction.isEmpty && n.exponent.isNone

/-- The largest significand that is kept while digits are read. -/
def significandLimit : Nat := UInt64.size

/-- The significand after reading some digits, and the number of digits that did not fit any more.
Once a digit does not fit, no later one is read. -/
def significandOf : Nat → List Char → Nat × Nat
  | s, [] => (s, 0)
  | s, c :: r =>
    let s' := 10 * s + digitsValue [c]
    if s' < significandLimit then significandOf s' r else (s, r.length + 1)

/-- The number closest to a power of ten that a double can hold. -/
def powerOfTen (k : Nat) : Binary64 := .nearest false (Nat.pow 10 k * Binary64.unitsPerOne) 1

/-- A significand times a power of ten, with a rounding for the significand and one for each power
that is multiplied or divided by. A product beyond the largest number is none; a quotient that has
become zero stays so. The budget counts the divisions by `10 ^ 308` that are left before any
quotient is zero. -/
def scale : Nat → Binary64 → Int → Option Binary64
  | 0, x, _ => some x
  | budget + 1, x, e =>
    if e.natAbs ≤ 308 then
      if 0 ≤ e then
        let y := x.mul (powerOfTen e.natAbs)
        if y.isFinite then some y else none
      else some (x.div (powerOfTen e.natAbs))
    else if x.isZero then some x
    else if 0 ≤ e then none
    else scale budget (x.div (powerOfTen 308)) (e + 308)

/-- The double that a number denotes, or nothing if it is too large. Digits beyond the significand
limit are dropped before the point and after it; those before it still count as powers of ten. -/
def toBinary64? (n : Number) : Option Binary64 :=
  let (s, dropped) := significandOf 0 n.whole
  let (s, droppedFraction) := significandOf s n.fraction
  let e : Int := dropped - (n.fraction.length - droppedFraction : Nat) + n.exponent.getD 0
  (scale 5 (.ofNat s) e).map fun y => if n.negative then y.neg else y

/-- The integer that a whole number denotes; negative zero is no integer. -/
def toInteger? (n : Number) : Option Int :=
  if !n.isWhole then none
  else
    let v := digitsValue n.whole
    if n.negative then if v = 0 then none else some (-(v : Int)) else some v

end Number

end Json

end BlockBoard

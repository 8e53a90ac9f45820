/-!
# Double-precision numbers

A `Binary64` is a 64-bit encoding: a sign, eleven exponent bits and fifty-two fraction bits. Every
finite number is an integer multiple of the least positive one, `2 ^ (-1074)`, so its magnitude is
kept exactly as a natural number of *units*; arithmetic is done on units and rounded once.

- `Binary64.units`: the exact magnitude of a finite number.
- `Binary64.nearest`: the number closest to a given fraction of units, ties to the even significand.
- `Binary64.le`: the order of the numbers, read off the encoding.
-/

namespace BlockBoard

/-- A double-precision number, as its encoding. -/
structure Binary64 where
  /-- Sign, exponent and fraction, from the highest bit down. -/
  bits : UInt64
  deriving DecidableEq, Repr, Inhabited

namespace Binary64

/-- The number of significands in one binade. -/
def binadeSize : Nat := Nat.pow 2 52

/-- How many units make one. -/
def unitsPerOne : Nat := Nat.pow 2 1074

/-- The encoding without its sign: finite numbers lie below this one, the infinities at it, and what
is no number above it. -/
def infinityWord : Nat := 2047 * binadeSize

/-- The encoding without its sign bit. -/
def word (x : Binary64) : Nat := x.bits.toNat % Nat.pow 2 63

/-- Whether the sign bit is set. Negative zero has it set. -/
def signBit (x : Binary64) : Bool := decide (Nat.pow 2 63 ≤ x.bits.toNat)

/-- The number with a given sign bit and word. -/
def ofWord (negative : Bool) (w : Nat) : Binary64 :=
  ⟨UInt64.ofNat (if negative then Nat.pow 2 63 + w else w)⟩

/-- Positive or negative zero. -/
def zero (negative : Bool) : Binary64 := ofWord negative 0

/-- Positive or negative infinity. -/
def infinity (negative : Bool) : Binary64 := ofWord negative infinityWord

/-- The result of an operation that has none. -/
def nan : Binary64 := ofWord false (infinityWord + binadeSize / 2)

def isFinite (x : Binary64) : Bool := decide (x.word < infinityWord)

def isNaN (x : Binary64) : Bool := decide (infinityWord < x.word)

def isInfinite (x : Binary64) : Bool := decide (x.word = infinityWord)

/-- Whether the number is a zero of either sign. -/
def isZero (x : Binary64) : Bool := decide (x.word = 0)

/-- The binade of a finite word: neighbours in binade `b` are `2 ^ b` units apart. -/
def binade (w : Nat) : Nat := w / binadeSize - 1

/-- The significand of a finite word: how many steps of its binade the magnitude is. -/
def significand (w : Nat) : Nat := if w < binadeSize then w else binadeSize + w % binadeSize

/-- The magnitude of a finite number, in units. -/
def units (x : Binary64) : Nat := significand x.word * Nat.pow 2 (binade x.word)

/-- The quotient `num / den` rounded to an integer, a half going to the even neighbour. -/
def roundHalfEven (num den : Nat) : Nat :=
  let q := num / den
  let r := num % den
  if 2 * r < den then q
  else if den < 2 * r then q + 1
  else if q % 2 = 0 then q else q + 1

/-- The word of the finite number closest to `num / den` units, or a word from `infinityWord` on if
that is beyond the largest. A significand that rounds up to the next power of two carries into the
exponent by itself. -/
def nearestWord (num den : Nat) : Nat :=
  let b := Nat.log2 (num / den) - 52
  b * binadeSize + roundHalfEven num (den * Nat.pow 2 b)

/-- The number closest to `num / den` units in magnitude. -/
def nearest (negative : Bool) (num den : Nat) : Binary64 :=
  ofWord negative (min (nearestWord num den) infinityWord)

/-- The number closest to a natural number. -/
def ofNat (n : Nat) : Binary64 := nearest false (n * unitsPerOne) 1

/-- The number closest to an integer. -/
def ofInt (n : Int) : Binary64 := nearest (decide (n < 0)) (n.natAbs * unitsPerOne) 1

/-- The number with the opposite sign. -/
def neg (x : Binary64) : Binary64 := ofWord (!x.signBit) x.word

/-- The product, rounded once. -/
def mul (x y : Binary64) : Binary64 :=
  let negative := x.signBit != y.signBit
  if x.isNaN || y.isNaN then nan
  else if x.isInfinite || y.isInfinite then
    if x.isZero || y.isZero then nan else infinity negative
  else nearest negative (x.units * y.units) unitsPerOne

/-- The quotient, rounded once. -/
def div (x y : Binary64) : Binary64 :=
  let negative := x.signBit != y.signBit
  if x.isNaN || y.isNaN then nan
  else if x.isInfinite then if y.isInfinite then nan else infinity negative
  else if y.isInfinite then zero negative
  else if y.isZero then if x.isZero then nan else infinity negative
  else nearest negative (x.units * unitsPerOne) y.units

/-- The place of a number in the order: words of one sign are ordered as their magnitudes. -/
def place (x : Binary64) : Int := if x.signBit then -(x.word : Int) else x.word

/-- Whether one number is at most another. What is no number compares with nothing. -/
def le (x y : Binary64) : Bool := !x.isNaN && !y.isNaN && decide (x.place ≤ y.place)

/-- Whether one number is below another. -/
def lt (x y : Binary64) : Bool := !x.isNaN && !y.isNaN && decide (x.place < y.place)

/-- Whether the number is an integer. The infinities are none. -/
def isIntegral (x : Binary64) : Bool := x.isFinite && decide (x.units % unitsPerOne = 0)

/-- The integer part of a finite number, toward zero. -/
def truncate (x : Binary64) : Int :=
  let n : Int := (x.units / unitsPerOne : Nat)
  if x.signBit then -n else n

end Binary64

end BlockBoard

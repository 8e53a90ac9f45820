import BlockBoard.Number.Binary64
/-!
# Decimal numerals

Reading and writing numbers in base ten, both exact in natural-number arithmetic.

- `Decimal.toBinary64`: the number closest to a decimal.
- `Decimal.shortest`: the decimal with the fewest digits that reads back as a given number, the
  nearest such one, found as the coarsest power-of-ten grid with a point in the interval of reals
  that round to the number.
- `Decimal.Layout`: where a format writes a point, an exponent and a trailing zero.
-/

namespace BlockBoard

/-- The magnitude `digits * 10 ^ exponent`. -/
structure Decimal where
  digits : Nat
  exponent : Int
  deriving DecidableEq, Repr, Inhabited

/-- The decimal digits of a natural number; none has leading zeros. -/
def decimalText (n : Nat) : String := String.ofList (Nat.toDigits 10 n)

/-- The value of a list of decimal digits, most significant first. -/
def digitsValue (ds : List Char) : Nat :=
  ds.foldl (fun n c => 10 * n + (c.toNat - '0'.toNat)) 0

namespace Decimal

/-- The number closest to a signed decimal. Exponents that put the value far outside the range of
numbers are cut off before any power of ten is formed. -/
def toBinary64 (negative : Bool) (d : Decimal) : Binary64 :=
  let magnitude : Int := d.exponent + (Nat.toDigits 10 d.digits).length
  if d.digits = 0 then .zero negative
  else if 400 < magnitude then .infinity negative
  else if magnitude < -400 then .zero negative
  else if 0 ≤ d.exponent then
    .nearest negative (d.digits * Nat.pow 10 d.exponent.toNat * Binary64.unitsPerOne) 1
  else
    .nearest negative (d.digits * Binary64.unitsPerOne) (Nat.pow 10 (-d.exponent).toNat)

/-- Which of two equally near decimals is taken. -/
inductive Tie where
  /-- The larger magnitude. -/
  | up
  /-- The one whose last digit is even. -/
  | even
  deriving DecidableEq, Repr

/-- The reals that round to a finite word, as a scaled interval: `value`, `low` and `high` count
quarters of a unit, and the ends belong to it iff the significand is even. -/
structure Interval where
  low : Nat
  value : Nat
  high : Nat
  closed : Bool

/-- The rounding interval of a finite word. Below a power of two the lower neighbour is half as far
away. -/
def Interval.ofWord (w : Nat) : Interval :=
  let m := Binary64.significand w
  let step := Nat.pow 2 (Binary64.binade w)
  let below := if m = Binary64.binadeSize ∧ Binary64.binade w ≠ 0 then step else 2 * step
  { low := 4 * m * step - below, value := 4 * m * step, high := 4 * m * step + 2 * step
    closed := decide (m % 2 = 0) }

/-- Whether `x / scale` lies in the interval. -/
def Interval.contains (i : Interval) (scale x : Nat) : Bool :=
  if i.closed then decide (i.low * scale ≤ x ∧ x ≤ i.high * scale)
  else decide (i.low * scale < x ∧ x < i.high * scale)

/-- The multiple of a step in the interval that is nearest to the value, if there is one: only the two
neighbours of the value among them need to be looked at. The step, like the points of the interval, is
divided by the scale. -/
def Interval.multiple? (tie : Tie) (i : Interval) (scale step : Nat) : Option Nat :=
  let value := i.value * scale
  let d := value / step
  let below := decide (0 < d) && i.contains scale (d * step)
  let above := i.contains scale ((d + 1) * step)
  match below, above with
  | false, false => none
  | true, false => some d
  | false, true => some (d + 1)
  | true, true =>
    let down := value - d * step
    let up := (d + 1) * step - value
    if down < up then some d
    else if up < down then some (d + 1)
    else match tie with
      | .up => some (d + 1)
      | .even => some (if d % 2 = 0 then d else d + 1)

/-- The multiple of `10 ^ k` in the interval that is nearest to the value, if there is one. -/
def Interval.gridPoint? (tie : Tie) (i : Interval) (k : Int) : Option Nat :=
  i.multiple? tie (if 0 ≤ k then 1 else Nat.pow 10 (-k).toNat)
    ((if 0 ≤ k then Nat.pow 10 k.toNat else 1) * (4 * Binary64.unitsPerOne))

/-- The first hit on the grids `10 ^ k`, `10 ^ (k - 1)`, and so on, for `fuel` grids. -/
def coarsest (find : Int → Option Nat) (k : Int) : Nat → Decimal
  | 0 => ⟨0, 0⟩
  | fuel + 1 =>
    match find k with
    | some d => ⟨d, k⟩
    | none => coarsest find (k - 1) fuel

/-- The shortest decimal that reads back as the magnitude of a finite number. No number reaches
`10 ^ 309`, and each is a multiple of `10 ^ (-324)` up to rounding, so the search ends. -/
def shortest (tie : Tie) (x : Binary64) : Decimal :=
  if x.isZero then ⟨0, 0⟩ else coarsest ((Interval.ofWord x.word).gridPoint? tie) 309 634

/-- How many digits a decimal has before its point, counted negatively for zeros after it. -/
def pointPlace (d : Decimal) : Int := (Nat.toDigits 10 d.digits).length + d.exponent

/-- Zeros, as text. -/
def zeros (n : Nat) : String := String.ofList (List.replicate n '0')

/-- The decimal written with a point and no exponent; `fraction` asks for `.0` after an integer. -/
def positional (fraction : Bool) (d : Decimal) : String :=
  let ds := Nat.toDigits 10 d.digits
  let point := d.pointPlace
  if 0 ≤ d.exponent then
    String.ofList ds ++ zeros d.exponent.toNat ++ if fraction then ".0" else ""
  else if 0 < point then
    String.ofList (ds.take point.toNat) ++ "." ++ String.ofList (ds.drop point.toNat)
  else
    "0." ++ zeros (-point).toNat ++ String.ofList ds

/-- The decimal written as one digit, an optional fraction and an exponent; `plus` asks for a plus
sign before an exponent that is not negative. -/
def scientific (plus : Bool) (d : Decimal) : String :=
  let ds := Nat.toDigits 10 d.digits
  let e := d.pointPlace - 1
  let fraction := match ds.drop 1 with
    | [] => ""
    | r => "." ++ String.ofList r
  String.ofList (ds.take 1) ++ fraction ++ "e" ++
    (if e < 0 then "-" else if plus then "+" else "") ++ decimalText e.natAbs

/-- The choices of a number format. -/
structure Layout where
  tie : Tie
  /-- The exponents of the leading digit that are written positionally; `none` writes all so. -/
  positional : Option (Int × Int)
  /-- Whether an integer gets `.0` when written positionally. -/
  fraction : Bool
  /-- Whether a positive exponent gets a plus sign. -/
  plus : Bool

/-- A number in a given layout. -/
def Layout.text (l : Layout) (x : Binary64) : String :=
  let sign := if x.signBit then "-" else ""
  if x.isNaN then "NaN"
  else if x.isInfinite then sign ++ "inf"
  else
    let d := shortest l.tie x
    let e := d.pointPlace - 1
    let inRange := match l.positional with
      | none => true
      | some (least, greatest) => x.isZero || decide (least ≤ e ∧ e ≤ greatest)
    sign ++ if inRange then d.positional l.fraction else d.scientific l.plus

end Decimal

end BlockBoard

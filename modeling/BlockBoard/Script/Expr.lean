import BlockBoard.Number.Decimal
import BlockBoard.Script.Precedence
/-!
# Expressions of a program

The expressions that a program for the board is made of, and how they are written.

- `Expr`: an expression, as a tree without parentheses.
- `Expr.fragment`: its code; a part gets parentheses exactly where its class is looser than its
  place admits.
- `Expr.ofNumber`: the expression of a number; a negative one is the negation of its magnitude.
-/

namespace BlockBoard

/-- An unsigned numeral: the digits before the point as a number, and those after it. -/
structure Numeral where
  whole : Nat
  fraction : List Char
  deriving DecidableEq, Repr

namespace Numeral

/-- The numeral of a natural number. -/
def ofNat (n : Nat) : Numeral := ⟨n, []⟩

/-- The numeral of a decimal. -/
def ofDecimal (d : Decimal) : Numeral :=
  if 0 ≤ d.exponent then ofNat (d.digits * Nat.pow 10 d.exponent.toNat)
  else
    let scale := Nat.pow 10 (-d.exponent).toNat
    let ds := Nat.toDigits 10 (d.digits % scale)
    ⟨d.digits / scale, List.replicate ((-d.exponent).toNat - ds.length) '0' ++ ds⟩

/-- The numeral as text. -/
def text (n : Numeral) : String :=
  decimalText n.whole ++ if n.fraction.isEmpty then "" else "." ++ String.ofList n.fraction

end Numeral

/-- An operator with two operands. -/
inductive BinaryOp where
  | add | subtract | multiply | divide | floorDivide | modulo | power
  | equal | notEqual | less | lessEqual | greater | greaterEqual
  | and | or
  deriving DecidableEq, Repr

namespace BinaryOp

/-- The operator as it is written. -/
def symbol : BinaryOp → String
  | add => "+"
  | subtract => "-"
  | multiply => "*"
  | divide => "/"
  | floorDivide => "//"
  | modulo => "%"
  | power => "**"
  | equal => "=="
  | notEqual => "!="
  | less => "<"
  | lessEqual => "<="
  | greater => ">"
  | greaterEqual => ">="
  | and => "and"
  | or => "or"

/-- The class of an expression with this operator. -/
def precedence : BinaryOp → Precedence
  | add | subtract => .additive
  | multiply | divide | floorDivide | modulo => .multiplicative
  | power => .exponent
  | equal | notEqual | less | lessEqual | greater | greaterEqual => .relational
  | and => .logicalAnd
  | or => .logicalOr

/-- What the left operand may be. A power binds tighter than a sign on its left, and comparisons do
not chain. -/
def left : BinaryOp → Precedence
  | power => .call
  | op => match op.precedence with
    | .relational => .additive
    | p => p

/-- What the right operand may be. A power associates to the right and admits a sign there. -/
def right : BinaryOp → Precedence
  | power => .unary
  | op => op.precedence.tighter

end BinaryOp

/-- An expression. -/
inductive Expr where
  | name (n : String)
  | number (n : Numeral)
  | text (s : String)
  | attribute (e : Expr) (field : String)
  | call (f : Expr) (args : List Expr)
  | subscript (e : Expr) (i : Expr)
  | negate (e : Expr)
  | not (e : Expr)
  | binary (op : BinaryOp) (a b : Expr)

/-- A character of a quoted text. Control characters are written by their code, and so is the sign
that starts a comment, which no text may forge. -/
def quotedChar (c : Char) : List Char :=
  if c = '\\' then ['\\', '\\']
  else if c = '"' then ['\\', '"']
  else if c = '\n' then ['\\', 'n']
  else if c = '\r' then ['\\', 'r']
  else if c = '\t' then ['\\', 't']
  else if c = '#' then ['\\', 'x', '2', '3']
  else if c.toNat < 0x20 || c.toNat = 0x7f then
    ['\\', 'x', Nat.digitChar (c.toNat / 16), Nat.digitChar (c.toNat % 16)]
  else [c]

/-- A text in double quotes. -/
def quotedText (s : String) : String := "\"" ++ String.ofList (s.toList.flatMap quotedChar) ++ "\""

namespace Expr

mutual

/-- The code of an expression and its class. -/
def fragment : Expr → Fragment
  | .name n => ⟨n, .atomic⟩
  | .number n => ⟨n.text, .atomic⟩
  | .text s => ⟨quotedText s, .atomic⟩
  | .attribute e field => ⟨e.fragment.fit .call ++ "." ++ field, .call⟩
  | .call f args => ⟨f.fragment.fit .call ++ "(" ++ argumentCode args ++ ")", .call⟩
  | .subscript e i => ⟨e.fragment.fit .call ++ "[" ++ i.fragment.fit .loosest ++ "]", .call⟩
  | .negate e => ⟨"-" ++ e.fragment.fit .unary, .unary⟩
  | .not e => ⟨"not " ++ e.fragment.fit .logicalNot, .logicalNot⟩
  | .binary op a b =>
    ⟨a.fragment.fit op.left ++ " " ++ op.symbol ++ " " ++ b.fragment.fit op.right, op.precedence⟩

/-- Arguments, with commas between them. -/
def argumentCode : List Expr → String
  | [] => ""
  | [e] => e.fragment.fit .loosest
  | e :: r => e.fragment.fit .loosest ++ ", " ++ argumentCode r

end

/-- The code of an expression in a place that admits anything. -/
def code (e : Expr) : String := e.fragment.fit .loosest

/-- How numbers are written in programs: the fewest digits that read back, the larger on a tie, never
with an exponent. -/
def magnitude (x : Binary64) : Expr :=
  if x.isNaN then .name "NaN"
  else if x.isInfinite then .name "inf"
  else .number (.ofDecimal (.shortest .up x))

/-- The expression of a number. Zero has no sign. -/
def ofNumber (x : Binary64) : Expr :=
  if x.lt (.zero false) then .negate (magnitude x) else magnitude x

/-- The expression of a truth value. -/
def ofBool (b : Bool) : Expr := .name (if b then "True" else "False")

/-- The expression of a natural number. -/
def ofNat (n : Nat) : Expr := .number (.ofNat n)

/-- The integer that an expression spells: a numeral without a fraction, or the negation of one. -/
def integer? : Expr → Option Int
  | .number ⟨n, []⟩ => some n
  | .negate (.number ⟨n, []⟩) => some (-n)
  | _ => none

/-- A call of a function by its name. -/
def callName (f : String) (args : List Expr) : Expr := .call (.name f) args

/-- An attribute of the board. -/
def board (field : String) : Expr := .attribute (.name "board") field

end Expr

end BlockBoard

/-!
# Operator precedence

How tightly the parts of an expression hold together, and when a part needs parentheses.

- `Precedence.rank`: the classes in order, the tightest first.
- `Fragment.fit`: a piece of code as it stands in a place that admits a given looseness.
-/

namespace BlockBoard

/-- The classes of expressions, the tightest first. -/
inductive Precedence where
  | atomic
  /-- Calls, attributes and subscripts. -/
  | call
  | exponent
  /-- The signs. -/
  | unary
  | multiplicative
  | additive
  | relational
  | logicalNot
  | logicalAnd
  | logicalOr
  /-- Places that admit anything: arguments and whole statements. -/
  | loosest
  deriving DecidableEq, Repr

namespace Precedence

/-- The place of a class in the order; a greater rank holds together less. -/
def rank : Precedence → Nat
  | atomic => 0
  | call => 1
  | exponent => 2
  | unary => 3
  | multiplicative => 4
  | additive => 5
  | relational => 6
  | logicalNot => 7
  | logicalAnd => 8
  | logicalOr => 9
  | loosest => 10

/-- The next tighter class, for the side of an operator on which it does not associate. -/
def tighter : Precedence → Precedence
  | atomic => atomic
  | call => atomic
  | exponent => call
  | unary => exponent
  | multiplicative => unary
  | additive => multiplicative
  | relational => additive
  | logicalNot => relational
  | logicalAnd => logicalNot
  | logicalOr => logicalAnd
  | loosest => logicalOr

/-- All classes, the tightest first. -/
def all : List Precedence :=
  [atomic, call, exponent, unary, multiplicative, additive, relational, logicalNot, logicalAnd,
    logicalOr, loosest]

/-- The name of a class. -/
def name : Precedence → String
  | atomic => "Atomic"
  | call => "Call"
  | exponent => "Exponent"
  | unary => "Unary"
  | multiplicative => "Multiplicative"
  | additive => "Additive"
  | relational => "Relational"
  | logicalNot => "LogicalNot"
  | logicalAnd => "LogicalAnd"
  | logicalOr => "LogicalOr"
  | loosest => "None"

end Precedence

/-- The code of an expression, and the class it belongs to. -/
structure Fragment where
  code : String
  precedence : Precedence
  deriving DecidableEq, Repr

/-- The code for a place that admits at most `bound`: in parentheses if it holds together less. -/
def Fragment.fit (f : Fragment) (bound : Precedence) : String :=
  if bound.rank < f.precedence.rank then "(" ++ f.code ++ ")" else f.code

end BlockBoard

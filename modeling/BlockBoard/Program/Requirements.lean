import BlockBoard.Program.Lowering
/-!
# What a program needs

The modules that a program has to import and the functions that have to be defined before it, read
off the names that occur in it.

- `Stmt.names`: the names in a statement.
- `Requirements.ofNames`: what the names refer to.
-/

namespace BlockBoard

/-- A module that a program can import, besides the board's own. -/
inductive ImportedModule where
  | random
  | time
  deriving DecidableEq, Repr

/-- The name of a module. -/
def ImportedModule.name : ImportedModule → String
  | random => "random"
  | time => "time"

/-- A function that is defined ahead of a program which uses it. -/
inductive Helper where
  | toneFor
  | shake
  deriving DecidableEq, Repr

/-- The name of a helper in listings. -/
def Helper.title : Helper → String
  | toneFor => "ToneFor"
  | shake => "Shake"

/-- The modules and helpers that a program needs. -/
structure Requirements where
  random : Bool := false
  time : Bool := false
  toneFor : Bool := false
  shake : Bool := false
  deriving DecidableEq, Repr

namespace Requirements

/-- The modules, in the order of their import. -/
def modules (r : Requirements) : List ImportedModule :=
  (if r.random then [.random] else []) ++ if r.time then [.time] else []

/-- The helpers, in the order of their definition. -/
def helpers (r : Requirements) : List Helper :=
  (if r.toneFor then [.toneFor] else []) ++ if r.shake then [.shake] else []

/-- One more module. -/
def addModule (r : Requirements) : ImportedModule → Requirements
  | .random => { r with random := true }
  | .time => { r with time := true }

/-- One more helper, with the modules that it uses itself. -/
def addHelper (r : Requirements) : Helper → Requirements
  | .toneFor => { r with toneFor := true, time := true }
  | .shake => { r with shake := true }

/-- What either of two needs. -/
def union (r s : Requirements) : Requirements where
  random := r.random || s.random
  time := r.time || s.time
  toneFor := r.toneFor || s.toneFor
  shake := r.shake || s.shake

/-- What a program with these names needs. -/
def ofNames (names : List String) : Requirements where
  random := names.contains "random"
  time := names.contains "time" || names.contains "play_tone_for"
  toneFor := names.contains "play_tone_for"
  shake := names.contains "shake_happened"

end Requirements

namespace Expr

mutual

/-- The names in an expression; those after a point are not counted. -/
def names : Expr → List String
  | .name n => [n]
  | .number _ => []
  | .text _ => []
  | .attribute e _ => e.names
  | .call f args => f.names ++ argumentNames args
  | .subscript e i => e.names ++ i.names
  | .negate e => e.names
  | .not e => e.names
  | .binary _ a b => a.names ++ b.names

/-- The names in arguments. -/
def argumentNames : List Expr → List String
  | [] => []
  | e :: r => e.names ++ argumentNames r

end

end Expr

namespace Stmt

mutual

/-- The names in a statement. -/
def names : Stmt → List String
  | .expr e => e.names
  | .pass => []
  | .ifElse c body otherwise =>
    c.names ++ suiteNames body ++ match otherwise with
      | none => []
      | some other => suiteNames other
  | .repeatTimes n body => n.names ++ suiteNames body

/-- The names in statements in a row. -/
def suiteNames : List Stmt → List String
  | [] => []
  | s :: r => s.names ++ suiteNames r

end

end Stmt

/-- The code of a graph: its text, and what it needs. -/
structure GeneratedCode where
  body : String
  needs : Requirements
  deriving DecidableEq, Repr

/-- The code of statements. -/
def GeneratedCode.ofStmts (ss : List Stmt) : GeneratedCode :=
  ⟨Stmt.text ss, .ofNames (Stmt.suiteNames ss)⟩

/-- The code of a graph. -/
def BlockGraph.generate (g : BlockGraph) : GeneratedCode := .ofStmts g.lower.value

end BlockBoard

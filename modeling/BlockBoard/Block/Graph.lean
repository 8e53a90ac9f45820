import BlockBoard.Block.Definition
import BlockBoard.Number.Reading
import BlockBoard.Text.Blank
import BlockBoard.Text.Quoted
/-!
# Block graphs

What the editor hands over: chains of blocks, with values on their faces and with literals or further
chains in their sockets.

- `FieldValue`: a literal value, with its readings as a number and as a text.
- `Block`, `Binding`: a block, and what is plugged into a socket of it.
- `BlockGraph`: the top-level chains of a program.
-/

namespace BlockBoard

/-- A value on the face of a block, or in a socket with nothing plugged in. -/
inductive FieldValue where
  | boolean (b : Bool)
  | number (x : Binary64)
  | text (s : String)
  deriving DecidableEq, Repr

namespace FieldValue

/-- How a value reads as a number: texts may spell one, with blanks around it, and only finite
numbers count. -/
def asNumber? : FieldValue → Option Binary64
  | number x => if x.isFinite then some x else none
  | text s => (readNumber? (trimBlank s)).filter Binary64.isFinite
  | boolean _ => none

/-- How a value reads as a text. -/
def asText : FieldValue → String
  | boolean b => if b then "true" else "false"
  | number x => plainNumber.text x
  | text s => s

end FieldValue

mutual

/-- A block. Fields and sockets are in the order of their names, and no name occurs twice. -/
inductive Block where
  | mk (kind : BlockKind) (id : Option String) (fields : List (String × FieldValue))
    (inputs : List (String × Binding))

/-- What is plugged into a socket: a literal, or a block with those that follow it. -/
inductive Binding where
  | literal (v : FieldValue)
  | chain (first : Block) (rest : List Block)

end

namespace Block

def kind : Block → BlockKind
  | mk k _ _ _ => k

def id : Block → Option String
  | mk _ i _ _ => i

def fields : Block → List (String × FieldValue)
  | mk _ _ f _ => f

def inputs : Block → List (String × Binding)
  | mk _ _ _ i => i

/-- The value of a field on the block's face. -/
def field? (b : Block) (name : String) : Option FieldValue := b.fields.lookup name

/-- What is plugged into a socket of the block. -/
def input? (b : Block) (socket : String) : Option Binding := b.inputs.lookup socket

/-- The block's name in warnings. -/
def label (b : Block) : String := b.id.getD "<unnamed>"

end Block

/-- A chain of statements: a block and those that follow it. -/
structure Chain where
  first : Block
  rest : List Block

/-- The blocks of a chain in order. -/
def Chain.toList (c : Chain) : List Block := c.first :: c.rest

/-- A program as the editor holds it: independent chains, compiled in order. -/
structure BlockGraph where
  chains : List Chain

end BlockBoard

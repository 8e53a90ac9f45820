import BlockBoard.Block.Graph
import BlockBoard.Script.Stmt
import BlockBoard.Text.Quoted
/-!
# From blocks to statements

The program that a block graph stands for, with a notice for everything in the graph that had to be
replaced: literals out of range, unknown choices, blocks in the wrong place or nested too deeply.

- `Below`: how the blocks one level deeper are lowered, if there is a level left.
- `valueOf`, `statementOf`: one block as an expression or as a statement.
- `BlockGraph.lower`: the statements of a whole graph.
-/

namespace BlockBoard

/-- The number of levels, sockets inside sockets, that are followed before defaults stand in. -/
def maxNesting : Nat := 64

/-! ## Notices -/

/-- Something in a graph that was replaced. Each names the block that it is about. -/
inductive LoweringNotice where
  | literalOutOfRange (block socket : String) (v : FieldValue) (default : Expr)
  | notBoolean (block socket : String)
  | unknownChoice (block field value default : String)
  | statementAsValue (child : BlockKind) (socket block : String)
  | valueTooDeep (block socket : String)
  | bodyTooDeep (block socket : String)
  | notStatements (block socket : String)
  | boundsSwapped (block : String)
  | notNumeric (block : String) (v : FieldValue)
  | statementUsed (block : String)

/-- A literal value as it is shown in a notice. -/
def FieldValue.shown : FieldValue → String
  | boolean b => "Bool(" ++ (if b then "true" else "false") ++ ")"
  | number x => "Number(" ++ shownNumber.text x ++ ")"
  | text s => "Text(" ++ BlockBoard.shown s ++ ")"

/-- The wording of a notice. -/
def LoweringNotice.message : LoweringNotice → String
  | literalOutOfRange block socket v default =>
    "Block " ++ block ++ " " ++ socket ++ " literal " ++ v.shown ++
      " out of range; using default " ++ default.code
  | notBoolean block socket => "Block " ++ block ++ " " ++ socket ++ " expects a boolean; using default"
  | unknownChoice block field value default =>
    "Block " ++ block ++ " field " ++ field ++ " has unknown value " ++ shown value ++ "; using " ++
      default
  | statementAsValue child socket block =>
    "Statement block " ++ child.title ++ " plugged into " ++ socket ++ " of block " ++ block ++
      "; using default"
  | valueTooDeep block socket =>
    "Block " ++ block ++ " nests deeper than " ++ decimalText maxNesting ++ " levels; " ++ socket ++
      " uses its default"
  | bodyTooDeep block socket =>
    "Block " ++ block ++ " nests deeper than " ++ decimalText maxNesting ++ " levels; " ++ socket ++
      " body replaced with pass"
  | notStatements block socket =>
    "Block " ++ block ++ " has a non-statement " ++ socket ++ " body; ignored"
  | boundsSwapped block => "Block " ++ block ++ " has FROM > TO; bounds swapped"
  | notNumeric block v => "Block " ++ block ++ " has non-numeric NUM " ++ v.shown ++ "; using 0"
  | statementUsed block => "Statement block " ++ block ++ " used as a value"

/-- A result together with the notices on the way to it. -/
structure Noted (α : Type) where
  value : α
  notices : List LoweringNotice

namespace Noted

instance : Monad Noted where
  pure a := ⟨a, []⟩
  bind x f := ⟨(f x.value).value, x.notices ++ (f x.value).notices⟩

@[simp] theorem value_pure {α : Type} (a : α) : (pure a : Noted α).value = a := rfl

@[simp] theorem value_bind {α β : Type} (x : Noted α) (f : α → Noted β) :
    (x >>= f).value = (f x.value).value := rfl

/-- A result that stands in for something, and the notice that says so. -/
def instead {α : Type} (a : α) (n : LoweringNotice) : Noted α := ⟨a, [n]⟩

/-- The results for the elements of a list, in order. -/
def forEach {α β : Type} (f : α → Noted β) : List α → Noted (List β)
  | [] => pure []
  | a :: r => do return (← f a) :: (← forEach f r)

end Noted

/-! ## Literals -/

/-- The numbers that a socket accepts as literals. -/
structure LiteralRange where
  least : Int
  greatest : Int

/-- The integers that a socket accepts as literals, if it does not accept all numbers. -/
def literalRange? (kind : BlockKind) (socket : String) : Option LiteralRange :=
  match kind with
  | .playTone =>
    if socket == "FREQUENCY" then some ⟨20, 20000⟩
    else if socket == "DURATION" then some ⟨0, 60000⟩ else none
  | .waitMs => if socket == "MS" then some ⟨0, 600000⟩ else none
  | .repeatTimes => if socket == "TIMES" then some ⟨0, 100000⟩ else none
  | .randomInt =>
    if socket == "FROM" || socket == "TO" then some ⟨-1000000000, 1000000000⟩ else none
  | .displayRect =>
    if socket == "W" || socket == "H" then some ⟨0, 1000⟩
    else if socket == "X" || socket == "Y" then some ⟨-1000, 1000⟩ else none
  | .displayCircle =>
    if socket == "R" then some ⟨0, 1000⟩
    else if socket == "X" || socket == "Y" then some ⟨-1000, 1000⟩ else none
  | .displayText | .displayNumber =>
    if socket == "X" || socket == "Y" then some ⟨-1000, 1000⟩ else none
  | _ => none

/-- Whether a number is accepted as a literal in a socket: a finite one, or an integer of the
socket's range if it has one. -/
def literalInRange (kind : BlockKind) (socket : String) (x : Binary64) : Bool :=
  match literalRange? kind socket with
  | some r => (Binary64.ofInt r.least).le x && x.le (.ofInt r.greatest) && x.isIntegral
  | none => x.isFinite

/-- Whether two texts are the same up to the case of ASCII letters. -/
def sameLetters (a b : String) : Bool := a.toList.map Char.toLower == b.toList.map Char.toLower

/-- A number in a socket, if it is accepted there. -/
def numberLiteral (b : Block) (socket : String) (default : Expr) (v : FieldValue) : Noted Expr :=
  match v.asNumber?.filter (literalInRange b.kind socket) with
  | some x => pure (.ofNumber x)
  | none => .instead default (.literalOutOfRange b.label socket v default)

/-- A literal in a socket that asks for a type. -/
def literalOf (b : Block) (socket : String) (check : ValueType) (default : Expr) (v : FieldValue) :
    Noted Expr :=
  match check, v with
  | .number, v => numberLiteral b socket default v
  | .any, .number x => numberLiteral b socket default (.number x)
  | .boolean, .boolean t | .any, .boolean t => pure (.ofBool t)
  | .boolean, .text s =>
    if sameLetters s "true" then pure (.ofBool true)
    else if sameLetters s "false" then pure (.ofBool false)
    else .instead default (.notBoolean b.label socket)
  | .boolean, .number _ => .instead default (.notBoolean b.label socket)
  | .text, v => pure (.text v.asText)
  | .any, .text s => pure (.text s)

/-- The chosen value of a field, or its default if the field holds none of its choices. -/
def choiceOf (b : Block) (name : String) : Noted String :=
  match b.kind.definition.field? name with
  | none => pure ""
  | some spec =>
    match b.field? name with
    | none => pure spec.default
    | some v =>
      match spec.choices.find? fun c => sameLetters c (trimBlank v.asText) with
      | some c => pure c
      | none => .instead spec.default (.unknownChoice b.label name v.asText spec.default)

/-! ## Integers -/

/-- Whether a literal that is read as a number, if it can be, gives an integer. What cannot be read
is replaced by a default that is one. -/
def FieldValue.isIntegral (v : FieldValue) : Bool :=
  match v.asNumber? with
  | some x => x.isIntegral
  | none => true

mutual

/-- Whether a block in a socket is known to stand for an integer. -/
def Block.producesInteger : Block → Bool
  | .mk kind _ fields inputs =>
    match kind with
    | .randomInt => true
    | .number => match fields.lookup "NUM" with
      | some v => v.isIntegral
      | none => true
    | .negate => operandProducesInteger inputs
    | k => k.isStatement

/-- Whether what is plugged into a sign is known to stand for an integer. -/
def operandProducesInteger : List (String × Binding) → Bool
  | [] => true
  | (socket, binding) :: r =>
    if socket == "NUM" then binding.producesInteger else operandProducesInteger r

/-- Whether a binding is known to stand for an integer. -/
def Binding.producesInteger : Binding → Bool
  | .literal v => v.isIntegral
  | .chain first _ => first.producesInteger

end

/-! ## Values -/

/-- How blocks one level deeper are lowered: values, and chains of statements. -/
structure Below where
  value : Block → Noted Expr
  chain : List Block → Noted (List Stmt)

/-- The type and the default of a value socket. -/
def valueSocket? (b : Block) (socket : String) : Option (ValueType × Expr) :=
  match b.kind.definition.socket? socket with
  | some ⟨_, .value check default⟩ => some (check, default)
  | _ => none

/-- The expression for a value socket: the block in it, an accepted literal, or the default. -/
def inputOf (below : Option Below) (b : Block) (socket : String) : Noted Expr :=
  match valueSocket? b socket with
  | none => pure (.name "None")
  | some (check, default) =>
    match b.input? socket with
    | none => pure default
    | some (.literal v) => literalOf b socket check default v
    | some (.chain child _) =>
      if child.kind.isStatement then
        .instead default (.statementAsValue child.kind socket b.label)
      else match below with
        | some level => level.value child
        | none => .instead default (.valueTooDeep b.label socket)

/-- The expression for a socket that needs an integer. -/
def integerInput (below : Option Below) (b : Block) (socket : String) : Noted Expr := do
  let e ← inputOf below b socket
  match b.input? socket with
  | some (.chain child _) => return if child.producesInteger then e else .callName "int" [e]
  | _ => return e

/-- The expression for a socket that needs a text. Blocks that give no text are converted. -/
def textInput (below : Option Below) (b : Block) (socket : String) : Noted Expr :=
  match b.input? socket with
  | some (.literal v) => pure (.text v.asText)
  | some (.chain child _) => do
    let e ← inputOf below b socket
    return if child.kind.definition.shape = .value .text then e else .callName "str" [e]
  | none => inputOf below b socket

/-- An operator applied to the sockets `A` and `B`. -/
def binaryOf (below : Option Below) (b : Block) (op : BinaryOp) : Noted Expr := do
  let left ← inputOf below b "A"
  let right ← inputOf below b "B"
  return .binary op left right

/-- The arithmetic operator of a choice. -/
def arithmeticOp : String → BinaryOp
  | "MINUS" => .subtract
  | "MULTIPLY" => .multiply
  | "DIVIDE" => .divide
  | "FLOOR_DIVIDE" => .floorDivide
  | "MODULO" => .modulo
  | "POWER" => .power
  | _ => .add

/-- The comparison of a choice. -/
def compareOp : String → BinaryOp
  | "NEQ" => .notEqual
  | "LT" => .less
  | "LTE" => .lessEqual
  | "GT" => .greater
  | "GTE" => .greaterEqual
  | _ => .equal

/-- The integers that a bound of 64 bits can be. -/
def isInt64 (n : Int) : Bool := decide (Int64.minValue.toInt ≤ n ∧ n ≤ Int64.maxValue.toInt)

/-- Whether both bounds are spelled out and the first is the larger one. -/
def boundsReversed (low high : Expr) : Bool :=
  match low.integer?.filter isInt64, high.integer?.filter isInt64 with
  | some a, some b => decide (b < a)
  | _, _ => false

/-- The expression of a value block. -/
def valueOf (below : Option Below) (b : Block) : Noted Expr :=
  match b.kind with
  | .buttonPressed => do
    return .call (.board "button_pressed") [.text (← choiceOf b "BUTTON")]
  | .accelRead => do
    let axis ← choiceOf b "AXIS"
    return .subscript (.call (.board "accel") [])
      (.ofNat (if axis == "y" then 1 else if axis == "z" then 2 else 0))
  | .shakeDetected => pure (.callName "shake_happened" [.name "_shake"])
  | .randomInt => do
    let low ← integerInput below b "FROM"
    let high ← integerInput below b "TO"
    let draw (a b : Expr) : Expr := .call (.attribute (.name "random") "randint") [a, b]
    if boundsReversed low high then .instead (draw high low) (.boundsSwapped b.label)
    else return draw low high
  | .number =>
    match b.field? "NUM" with
    | none => pure (.ofNat 0)
    | some v => match v.asNumber? with
      | some x => pure (.ofNumber x)
      | none => .instead (.ofNat 0) (.notNumeric b.label v)
  | .text => pure (.text ((b.field? "TEXT").elim "" FieldValue.asText))
  | .boolean => do return .ofBool ((← choiceOf b "BOOL") == "true")
  | .arithmetic => do binaryOf below b (arithmeticOp (← choiceOf b "OP"))
  | .compare => do binaryOf below b (compareOp (← choiceOf b "OP"))
  | .logicOp => do
    binaryOf below b (if (← choiceOf b "OP") == "OR" then .or else .and)
  | .logicNot => do return .not (← inputOf below b "BOOL")
  | .negate => do return .negate (← inputOf below b "NUM")
  | _ => .instead (.name "None") (.statementUsed b.label)

/-! ## Statements -/

/-- The constant of a colour. -/
def colorConstant (color : String) : Expr := .board (color.map Char.toUpper)

/-- The colour of a block, as an argument that is left out if it is the block's default. -/
def colorArgument (b : Block) : Noted (List Expr) := do
  let color ← choiceOf b "COLOR"
  return if (b.kind.definition.field? "COLOR").map FieldSpec.default = some color then []
    else [colorConstant color]

/-- Whether a figure is filled. -/
def isFilled (b : Block) : Noted Bool := do return (← choiceOf b "FILL") == "true"

/-- Integer arguments from several sockets. -/
def coordinates (below : Option Below) (b : Block) (sockets : List String) : Noted (List Expr) :=
  .forEach (integerInput below b) sockets

/-- A call of a function of the display. -/
def displayCall (function : String) (args : List Expr) : Stmt :=
  .expr (.call (.attribute (.board "display") function) args)

/-- A call of a function of the loudspeaker. -/
def speakerCall (function : String) (args : List Expr) : Stmt :=
  .expr (.call (.attribute (.board "speaker") function) args)

/-- The suite in a statement socket. An empty one does nothing. -/
def bodyOf (below : Option Below) (b : Block) (socket : String) : Noted (List Stmt) :=
  match b.input? socket with
  | none => pure [.pass]
  | some (.literal _) => .instead [.pass] (.notStatements b.label socket)
  | some (.chain first rest) =>
    if first.kind.isStatement then
      match below with
      | some level => level.chain (first :: rest)
      | none => .instead [.pass] (.bodyTooDeep b.label socket)
    else .instead [.pass] (.notStatements b.label socket)

/-- The statement of a block. A value block on its own is an expression without use. -/
def statementOf (below : Option Below) (b : Block) : Noted Stmt :=
  match b.kind with
  | .displayText => do
    let text ← textInput below b "TEXT"
    let at' ← coordinates below b ["X", "Y"]
    return displayCall "text" (text :: at' ++ (← colorArgument b))
  | .displayClear => do return displayCall "clear" (← colorArgument b)
  | .displayRect => do
    let function := if ← isFilled b then "fill_rect" else "rect"
    let at' ← coordinates below b ["X", "Y", "W", "H"]
    return displayCall function (at' ++ (← colorArgument b))
  | .displayCircle => do
    let function := if ← isFilled b then "fill_circle" else "circle"
    let at' ← coordinates below b ["X", "Y", "R"]
    return displayCall function (at' ++ (← colorArgument b))
  | .displayNumber => do
    let value ← inputOf below b "VALUE"
    let at' ← coordinates below b ["X", "Y"]
    return displayCall "number" (value :: at' ++ (← colorArgument b))
  | .playTone => do
    let frequency ← integerInput below b "FREQUENCY"
    let duration ← integerInput below b "DURATION"
    return if duration.code == "0" then speakerCall "tone" [frequency]
      else .expr (.callName "play_tone_for" [frequency, duration])
  | .stopSound => pure (speakerCall "off" [])
  | .setLed => do
    return .expr (.call (.attribute (.board "led") "set") [colorConstant (← choiceOf b "COLOR")])
  | .waitMs => do
    return .expr (.call (.attribute (.name "time") "sleep_ms") [← integerInput below b "MS"])
  | .ifElse => do
    let condition ← inputOf below b "IF"
    let body ← bodyOf below b "DO"
    match b.input? "ELSE" with
    | some (.chain _ _) => return .ifElse condition body (some (← bodyOf below b "ELSE"))
    | _ => return .ifElse condition body none
  | .repeatTimes => do
    let times ← integerInput below b "TIMES"
    return .repeatTimes times (← bodyOf below b "DO")
  | .printLine => do return .expr (.callName "print" [← inputOf below b "VALUE"])
  | _ => do return .expr (← valueOf below b)

/-- The statements of blocks in a row. -/
def statementsOf (below : Option Below) (bs : List Block) : Noted (List Stmt) :=
  .forEach (statementOf below) bs

/-- How blocks are lowered with a number of levels left below them. -/
def belowWith : Nat → Option Below
  | 0 => none
  | n + 1 => some { value := valueOf (belowWith n), chain := statementsOf (belowWith n) }

/-- The statements of a graph, chain after chain. -/
def BlockGraph.lower (g : BlockGraph) : Noted (List Stmt) :=
  statementsOf (belowWith maxNesting) (g.chains.flatMap Chain.toList)

end BlockBoard

import BlockBoard.Script.Expr
/-!
# The kinds of blocks

The closed catalogue of blocks that the editor can place: what each is called, what its face shows,
and what can be plugged into it.

- `BlockKind`: a kind of block.
- `BlockKind.definition`: its entry in the catalogue.
- `registry`: the whole catalogue, in the order of the toolbox.
-/

namespace BlockBoard

/-- A kind of block. -/
inductive BlockKind where
  | displayText | displayClear | displayRect | displayCircle | displayNumber
  | playTone | stopSound
  | buttonPressed
  | setLed
  | waitMs
  | accelRead | shakeDetected
  | randomInt | number | text | boolean
  | arithmetic | compare | logicOp | logicNot | negate
  | ifElse | repeatTimes
  | printLine
  deriving DecidableEq, Repr

/-- A drawer of the toolbox. -/
inductive Category where
  | display | sound | input | light | timing | motion | math | logic | control | text
  deriving DecidableEq, Repr

/-- What a value is, or what a socket asks for. -/
inductive ValueType where
  | number | text | boolean | any
  deriving DecidableEq, Repr

/-- How a block connects: statements stack, values plug in. -/
inductive Shape where
  | statement
  | value (output : ValueType)
  deriving DecidableEq, Repr

/-- What a socket accepts. -/
inductive SocketKind where
  /-- A value; the default stands in when nothing usable is plugged in. -/
  | value (check : ValueType) (default : Expr)
  /-- A chain of statements. -/
  | statements

/-- A socket of a block. -/
structure SocketSpec where
  name : String
  kind : SocketKind

/-- A field on the face of a block. Without choices it holds any value. -/
structure FieldSpec where
  name : String
  default : String
  choices : List String
  deriving DecidableEq, Repr

/-- An entry of the catalogue. -/
structure BlockDefinition where
  kind : BlockKind
  category : Category
  shape : Shape
  label : String
  fields : List FieldSpec
  sockets : List SocketSpec

namespace BlockDefinition

/-- The socket of a given name. -/
def socket? (d : BlockDefinition) (name : String) : Option SocketSpec :=
  d.sockets.find? fun s => s.name == name

/-- The field of a given name. -/
def field? (d : BlockDefinition) (name : String) : Option FieldSpec :=
  d.fields.find? fun f => f.name == name

end BlockDefinition

namespace ValueType

/-- The name of a type in documents. -/
def name : ValueType → String
  | number => "number"
  | text => "text"
  | boolean => "boolean"
  | any => "any"

end ValueType

namespace Category

/-- The name of a category in documents. -/
def name : Category → String
  | display => "display"
  | sound => "sound"
  | input => "input"
  | light => "light"
  | timing => "timing"
  | motion => "motion"
  | math => "math"
  | logic => "logic"
  | control => "control"
  | text => "text"

end Category

namespace BlockKind

/-- All kinds, in the order of the toolbox. -/
def all : List BlockKind :=
  [displayText, displayClear, displayRect, displayCircle, displayNumber, playTone, stopSound,
    buttonPressed, setLed, waitMs, accelRead, shakeDetected, randomInt, number, text, boolean,
    arithmetic, compare, logicOp, logicNot, negate, ifElse, repeatTimes, printLine]

/-- The name of a kind in documents. -/
def name : BlockKind → String
  | displayText => "display_text"
  | displayClear => "display_clear"
  | displayRect => "display_rect"
  | displayCircle => "display_circle"
  | displayNumber => "display_number"
  | playTone => "play_tone"
  | stopSound => "stop_sound"
  | buttonPressed => "button_pressed"
  | setLed => "set_led"
  | waitMs => "wait_ms"
  | accelRead => "accel_read"
  | shakeDetected => "shake_detected"
  | randomInt => "random_int"
  | number => "number"
  | text => "text"
  | boolean => "boolean"
  | arithmetic => "arithmetic"
  | compare => "compare"
  | logicOp => "logic_op"
  | logicNot => "logic_not"
  | negate => "negate"
  | ifElse => "if_else"
  | repeatTimes => "repeat_times"
  | printLine => "print_line"

/-- The name of a kind in warnings. -/
def title : BlockKind → String
  | displayText => "DisplayText"
  | displayClear => "DisplayClear"
  | displayRect => "DisplayRect"
  | displayCircle => "DisplayCircle"
  | displayNumber => "DisplayNumber"
  | playTone => "PlayTone"
  | stopSound => "StopSound"
  | buttonPressed => "ButtonPressed"
  | setLed => "SetLed"
  | waitMs => "WaitMs"
  | accelRead => "AccelRead"
  | shakeDetected => "ShakeDetected"
  | randomInt => "RandomInt"
  | number => "Number"
  | text => "Text"
  | boolean => "Boolean"
  | arithmetic => "Arithmetic"
  | compare => "Compare"
  | logicOp => "LogicOp"
  | logicNot => "LogicNot"
  | negate => "Negate"
  | ifElse => "IfElse"
  | repeatTimes => "RepeatTimes"
  | printLine => "PrintLine"

/-- The kind of a given name. -/
def ofName? (s : String) : Option BlockKind := all.find? fun k => k.name == s

/-- The kind of a name is the one that has it. -/
theorem ofName?_name (k : BlockKind) : ofName? k.name = some k := by cases k <;> decide

/-- The colours of lights and of the display. -/
def colors : List String :=
  ["white", "black", "red", "green", "blue", "yellow", "cyan", "magenta"]

/-- The choices of a field that is on or off. -/
def flags : List String := ["true", "false"]

/-- A socket for a number. -/
def numberSocket (name : String) (default : Nat) : SocketSpec :=
  ⟨name, .value .number (.ofNat default)⟩

/-- A socket for a truth value. -/
def truthSocket (name : String) (default : Bool) : SocketSpec :=
  ⟨name, .value .boolean (.ofBool default)⟩

/-- A socket for a chain of statements. -/
def chainSocket (name : String) : SocketSpec := ⟨name, .statements⟩

/-- The entry of a kind in the catalogue. -/
def definition : BlockKind → BlockDefinition
  | displayText => {
      kind := displayText, category := .display, shape := .statement
      label := "show text %TEXT at x %X y %Y"
      fields := [⟨"COLOR", "white", colors⟩]
      sockets := [⟨"TEXT", .value .any (.text "")⟩, numberSocket "X" 0, numberSocket "Y" 0] }
  | displayClear => {
      kind := displayClear, category := .display, shape := .statement
      label := "clear screen"
      fields := [⟨"COLOR", "black", colors⟩]
      sockets := [] }
  | displayRect => {
      kind := displayRect, category := .display, shape := .statement
      label := "draw rectangle x %X y %Y width %W height %H"
      fields := [⟨"COLOR", "white", colors⟩, ⟨"FILL", "false", flags⟩]
      sockets := [numberSocket "X" 0, numberSocket "Y" 0, numberSocket "W" 10, numberSocket "H" 10] }
  | displayCircle => {
      kind := displayCircle, category := .display, shape := .statement
      label := "draw circle x %X y %Y radius %R"
      fields := [⟨"COLOR", "white", colors⟩, ⟨"FILL", "false", flags⟩]
      sockets := [numberSocket "X" 0, numberSocket "Y" 0, numberSocket "R" 10] }
  | displayNumber => {
      kind := displayNumber, category := .display, shape := .statement
      label := "show number %VALUE at x %X y %Y"
      fields := [⟨"COLOR", "white", colors⟩]
      sockets := [numberSocket "VALUE" 0, numberSocket "X" 0, numberSocket "Y" 0] }
  | playTone => {
      kind := playTone, category := .sound, shape := .statement
      label := "play tone %FREQUENCY Hz for %DURATION ms"
      fields := []
      sockets := [numberSocket "FREQUENCY" 440, numberSocket "DURATION" 0] }
  | stopSound => {
      kind := stopSound, category := .sound, shape := .statement
      label := "stop sound", fields := [], sockets := [] }
  | buttonPressed => {
      kind := buttonPressed, category := .input, shape := .value .boolean
      label := "button %BUTTON pressed"
      fields := [⟨"BUTTON", "A", ["A", "B"]⟩]
      sockets := [] }
  | setLed => {
      kind := setLed, category := .light, shape := .statement
      label := "set light to %COLOR"
      fields := [⟨"COLOR", "green", colors⟩]
      sockets := [] }
  | waitMs => {
      kind := waitMs, category := .timing, shape := .statement
      label := "wait %MS ms"
      fields := []
      sockets := [numberSocket "MS" 1000] }
  | accelRead => {
      kind := accelRead, category := .motion, shape := .value .number
      label := "acceleration %AXIS"
      fields := [⟨"AXIS", "x", ["x", "y", "z"]⟩]
      sockets := [] }
  | shakeDetected => {
      kind := shakeDetected, category := .motion, shape := .value .boolean
      label := "shake happened", fields := [], sockets := [] }
  | randomInt => {
      kind := randomInt, category := .math, shape := .value .number
      label := "random integer from %FROM to %TO"
      fields := []
      sockets := [numberSocket "FROM" 1, numberSocket "TO" 10] }
  | number => {
      kind := number, category := .math, shape := .value .number
      label := "%NUM"
      fields := [⟨"NUM", "0", []⟩]
      sockets := [] }
  | text => {
      kind := text, category := .text, shape := .value .text
      label := "\"%TEXT\""
      fields := [⟨"TEXT", "", []⟩]
      sockets := [] }
  | boolean => {
      kind := boolean, category := .logic, shape := .value .boolean
      label := "%BOOL"
      fields := [⟨"BOOL", "true", flags⟩]
      sockets := [] }
  | arithmetic => {
      kind := arithmetic, category := .math, shape := .value .number
      label := "%A %OP %B"
      fields := [⟨"OP", "ADD",
        ["ADD", "MINUS", "MULTIPLY", "DIVIDE", "FLOOR_DIVIDE", "MODULO", "POWER"]⟩]
      sockets := [numberSocket "A" 0, numberSocket "B" 0] }
  | compare => {
      kind := compare, category := .logic, shape := .value .boolean
      label := "%A %OP %B"
      fields := [⟨"OP", "EQ", ["EQ", "NEQ", "LT", "LTE", "GT", "GTE"]⟩]
      sockets := [⟨"A", .value .any (.ofNat 0)⟩, ⟨"B", .value .any (.ofNat 0)⟩] }
  | logicOp => {
      kind := logicOp, category := .logic, shape := .value .boolean
      label := "%A %OP %B"
      fields := [⟨"OP", "AND", ["AND", "OR"]⟩]
      sockets := [truthSocket "A" false, truthSocket "B" false] }
  | logicNot => {
      kind := logicNot, category := .logic, shape := .value .boolean
      label := "not %BOOL"
      fields := []
      sockets := [truthSocket "BOOL" true] }
  | negate => {
      kind := negate, category := .math, shape := .value .number
      label := "- %NUM"
      fields := []
      sockets := [numberSocket "NUM" 0] }
  | ifElse => {
      kind := ifElse, category := .control, shape := .statement
      label := "if %IF do %DO else %ELSE"
      fields := []
      sockets := [truthSocket "IF" false, chainSocket "DO", chainSocket "ELSE"] }
  | repeatTimes => {
      kind := repeatTimes, category := .control, shape := .statement
      label := "repeat %TIMES times %DO"
      fields := []
      sockets := [numberSocket "TIMES" 10, chainSocket "DO"] }
  | printLine => {
      kind := printLine, category := .text, shape := .statement
      label := "print %VALUE"
      fields := []
      sockets := [⟨"VALUE", .value .any (.text "")⟩] }

/-- Whether blocks of a kind stack as statements. -/
def isStatement (k : BlockKind) : Bool := decide (k.definition.shape = .statement)

end BlockKind

/-- The whole catalogue, in the order of the toolbox. -/
def registry : List BlockDefinition := BlockKind.all.map BlockKind.definition

end BlockBoard

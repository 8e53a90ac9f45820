import BlockBoard.Text.Utf8
/-!
# The prompts of the interpreter

The interpreter has a friendly prompt for people and a raw one for programs. This module names the
control characters that switch between them and what the raw prompt answers with.

- `ctrlA`, `ctrlB`, `ctrlC`, `ctrlD`: the control characters.
- `rawBanner`, `accepted`, `finishMark`: the fixed answers of the raw prompt.
-/

namespace BlockBoard

/-- Enters the raw prompt. -/
def ctrlA : UInt8 := 1

/-- Leaves the raw prompt. -/
def ctrlB : UInt8 := 2

/-- Interrupts a program. -/
def ctrlC : UInt8 := 3

/-- Ends a program's text, or restarts the interpreter. -/
def ctrlD : UInt8 := 4

/-- A carriage return. -/
def carriageReturn : UInt8 := 13

/-- A newline. -/
def newline : UInt8 := 10

/-- The mark at the end of the raw prompt's answers. -/
def promptMark : UInt8 := 62

/-- What the interpreter says when it enters the raw prompt. -/
def rawBanner : List UInt8 := utf8 "raw REPL; CTRL-B to exit\r\n>"

/-- What the raw prompt says when it has taken a program. -/
def accepted : List UInt8 := utf8 "OK"

/-- What the raw prompt says when a program has ended and the next one may come. -/
def finishMark : List UInt8 := [ctrlD, promptMark]

/-- The file that the board runs when it starts. -/
def bootFile : String := "main.py"

end BlockBoard

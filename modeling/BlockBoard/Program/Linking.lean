import BlockBoard.Digest.Sha256
import BlockBoard.Program.Requirements
import BlockBoard.Text.Utf8
/-!
# Complete programs

A complete program imports what it needs, defines its helpers, runs the user's code and then looks
after the board for ever. Helpers and user code stand in regions between marker lines.

- `Program.link`: the program of some code.
- `Program.source`: its text.
- `Program.helpersRange`, `Program.userCodeRange`: where the contents of its regions stand in the text.
- `userCode?`: the user's code in the text of a program.
-/

namespace BlockBoard

/-- The line before the helpers. -/
def helpersBegin : String := "# ==== BEGIN HELPERS ===="

/-- The line after the helpers. -/
def helpersEnd : String := "# ==== END HELPERS ===="

/-- The line before the user's code. -/
def userCodeBegin : String := "# ==== BEGIN USER CODE ===="

/-- The line after the user's code. -/
def userCodeEnd : String := "# ==== END USER CODE ===="

/-- The loop at the end of every program. -/
def tickLoop : String := "while True:\n    board.tick()\n"

/-- The definition of a helper. A movement of more than one and a half times gravity, summed over the
axes, counts as a shake. -/
def Helper.source : Helper → String
  | toneFor => unlines [
      "def play_tone_for(freq, ms):",
      "    board.speaker.tone(freq)",
      "    time.sleep_ms(ms)",
      "    board.speaker.off()"]
  | shake => unlines [
      "SHAKE_THRESHOLD = 1.5",
      "",
      "",
      "class ShakeState:",
      "    def __init__(self):",
      "        self.last = None",
      "",
      "",
      "def shake_happened(state):",
      "    sample = board.accel()",
      "    last = state.last",
      "    state.last = sample",
      "    if last is None:",
      "        return False",
      "    delta = abs(sample[0] - last[0]) + abs(sample[1] - last[1]) + abs(sample[2] - last[2])",
      "    return delta > SHAKE_THRESHOLD",
      "",
      "",
      "_shake = ShakeState()"]

/-- A range of bytes in a text. -/
structure ByteRange where
  start : Nat
  stop : Nat
  deriving DecidableEq, Repr

namespace ByteRange

/-- The range of a text that stands right behind another one. -/
def behind (before content : String) : ByteRange where
  start := (utf8 before).length
  stop := (utf8 before).length + (utf8 content).length

/-- What stands in a range, if its bytes are a text. -/
def slice? (r : ByteRange) (text : String) : Option String := utf8Text? ((utf8 text).extract r.start r.stop)

end ByteRange

/-- A complete program. -/
structure Program where
  modules : List ImportedModule
  helpers : String
  userCode : String
  deriving DecidableEq, Repr

namespace Program

/-- A region between two markers; a region that is not empty ends with a line end of its own. -/
def region (first : String) (content : String) (last : String) : String :=
  first ++ "\n" ++ content ++ (if content.isEmpty then "" else "\n") ++ last ++ "\n"

/-- What stands before the regions. -/
def preamble (p : Program) : String :=
  "import board\n" ++ String.join (p.modules.map fun m => "import " ++ m.name ++ "\n") ++
    "\nboard.init()\n\n"

/-- The text of a program. -/
def source (p : Program) : String :=
  p.preamble ++ region helpersBegin p.helpers helpersEnd ++ "\n" ++
    region userCodeBegin p.userCode userCodeEnd ++ "\n" ++ tickLoop

/-- The place of the helpers in the text. -/
def helpersRange (p : Program) : ByteRange := .behind (p.preamble ++ helpersBegin ++ "\n") p.helpers

/-- The place of the user's code in the text. -/
def userCodeRange (p : Program) : ByteRange :=
  .behind (p.preamble ++ region helpersBegin p.helpers helpersEnd ++ "\n" ++ userCodeBegin ++ "\n") p.userCode

/-- The bytes of a program. -/
def bytes (p : Program) : List UInt8 := utf8 p.source

/-- The digest of a program's bytes. -/
def digest (p : Program) : String := Sha256.hexDigest p.bytes

/-- The program of some code; blanks at the end of the code are dropped. -/
def link (code : GeneratedCode) : Program where
  modules := code.needs.modules
  helpers := String.intercalate "\n\n" (code.needs.helpers.map Helper.source)
  userCode := trimBlankEnd code.body

end Program

/-- The program of a graph. -/
def BlockGraph.compile (g : BlockGraph) : Program := .link g.generate

/-- What follows the first line that is a marker. -/
def afterMarker? (marker : List Char) : List (List Char) → Option (List (List Char))
  | [] => none
  | l :: r => if l = marker then some r else afterMarker? marker r

/-- What precedes the first line that is a marker. -/
def beforeMarker? (marker : List Char) : List (List Char) → Option (List (List Char))
  | [] => none
  | l :: r => if l = marker then some [] else (beforeMarker? marker r).map (l :: ·)

/-- The user's code in a text: the lines between the first line that is the begin marker and the
first one after it that is the end marker. -/
def userCode? (source : String) : Option String := do
  let after ← afterMarker? userCodeBegin.toList (piecesAt '\n' source.toList)
  let region ← beforeMarker? userCodeEnd.toList after
  return String.ofList (List.intercalate ['\n'] region)

end BlockBoard

import BlockBoard.Number.Decimal
/-!
# The grammar of the command line

Which commands there are, which options they take, and the help about them.

- `commands`: the commands.
- `CommandSpec.help`: the help about a command.
- `programHelp`: the help about the program.
-/

namespace BlockBoard

namespace CommandLine

/-- The name of the program. -/
def programName : String := "blocklink"

/-- The version of the program. -/
def programVersion : String := "0.1.0"

/-- An option: its letter, its name, the name of its value unless it is a flag, and what it does. The
rank says where it is listed. -/
structure OptionSpec where
  letter : Option Char := none
  name : String
  value : Option String := none
  about : String := ""
  rank : Nat
  deriving DecidableEq, Repr

/-- A command: its name, what it does, the file that it has to be given, and its options. -/
structure CommandSpec where
  name : String
  about : String
  operand : Option String := none
  options : List OptionSpec := []
  deriving DecidableEq, Repr

/-- The options that stand before or after the name of a command. -/
def sharedOptions : List OptionSpec := [
  { name := "config", value := some "CONFIG", rank := 0
    about := "Configuration file (defaults to ./blocklink.toml when present)" },
  { name := "port", value := some "PORT", rank := 1
    about := "Serial port to use instead of USB id discovery" },
  { name := "simulate", rank := 2, about := "Talk to an in-process simulated board" }]

/-- The commands. -/
def commands : List CommandSpec := [
  { name := "blocks", about := "List the block registry as JSON" },
  { name := "compile", about := "Compile a block graph (JSON) to a MicroPython program"
    operand := some "GRAPH"
    options := [
      { letter := some 'o', name := "output", value := some "OUTPUT", rank := 0 },
      { name := "user-code", about := "Print only the generated user code", rank := 1 }] },
  { name := "catalog", about := "Show available firmware releases" },
  { name := "flash", about := "Flash firmware onto the board"
    options := [
      { name := "version", value := some "VERSION", rank := 0
        about := "Release version (defaults to the recommended release)" }] },
  { name := "run", about := "Run a block program and show its output", operand := some "GRAPH"
    options := [
      { name := "seconds", value := some "SECONDS", rank := 0
        about := "Stop after this many seconds (Ctrl-C stops earlier) [default: 30]" }] },
  { name := "save", about := "Store a block program as the board's boot program"
    operand := some "GRAPH" },
  { name := "serve", about := "Serve the HTTP API"
    options := [{ name := "bind", value := some "BIND", rank := 0 }] }]

/-! ## Help -/

/-- Two columns, the second one aligned two blanks behind the first. -/
def columns (rows : List (String × String)) : String :=
  let width := rows.foldl (fun w r => max w r.1.length) 0
  String.join <| rows.map fun r =>
    "  " ++ r.1 ++ String.ofList (List.replicate (width - r.1.length) ' ') ++ "  " ++ r.2 ++ "\n"

namespace OptionSpec

/-- An option as it is typed. -/
def usage (o : OptionSpec) : String :=
  (match o.letter with
    | some c => "-" ++ c.toString ++ ", "
    | none => "    ") ++ "--" ++ o.name ++
    match o.value with
    | some v => " <" ++ v ++ ">"
    | none => ""

/-- What options of the same rank are ordered by. -/
def sortKey (o : OptionSpec) : String :=
  match o.letter with
  | some c => c.toString
  | none => o.name

/-- Whether an option is listed before another one. -/
def listedBefore (o p : OptionSpec) : Bool :=
  o.rank < p.rank || (o.rank == p.rank && o.sortKey ≤ p.sortKey)

end OptionSpec

/-- The option that asks for help. -/
def helpRow : String × String := ("-h, --help", "Print help")

/-- The option that asks for the version. -/
def versionRow : String × String := ("-V, --version", "Print version")

/-- The rows about options, in the order of the list. -/
def optionRows (os : List OptionSpec) : List (String × String) :=
  (os.mergeSort OptionSpec.listedBefore).map fun o => (o.usage, o.about)

/-- The help about a command. -/
def CommandSpec.help (c : CommandSpec) : String :=
  c.about ++ "\n\nUsage: " ++ programName ++ " " ++ c.name ++ " [OPTIONS]" ++
    (match c.operand with
      | some o => " <" ++ o ++ ">\n\nArguments:\n" ++ columns [("<" ++ o ++ ">", "")]
      | none => "\n") ++
    "\nOptions:\n" ++ columns (optionRows (c.options ++ sharedOptions) ++ [helpRow])

/-- The help about the program. -/
def programHelp : String :=
  "Compile block programs and drive the board\n\nUsage: " ++ programName ++
    " [OPTIONS] <COMMAND>\n\nCommands:\n" ++
    columns (commands.map (fun c => (c.name, c.about)) ++
      [("help", "Print this message or the help of the given subcommand(s)")]) ++
    "\nOptions:\n" ++ columns (optionRows sharedOptions ++ [helpRow, versionRow])

end CommandLine

end BlockBoard

import BlockBoard.CommandLine.Spec
/-!
# Reading the command line

Arguments are read from left to right. What is wrong first decides, and a request for help or for the
version ends the reading.

- `Invocation`: what the program is asked to do.
- `Arguments.read`: reads a command line.
-/

namespace BlockBoard

namespace CommandLine

/-- A command with its options. -/
inductive Command where
  | blocks
  | compile (graph : String) (output : Option String) (userCode : Bool)
  | catalog
  | flash (version : Option String)
  | run (graph : String) (seconds : Nat)
  | save (graph : String)
  | serve (bind : Option String)
  deriving DecidableEq, Repr

/-- What the program is asked to do. -/
structure Invocation where
  config : Option String
  port : Option String
  simulate : Bool
  command : Command
  deriving DecidableEq, Repr

/-- Why reading stops early. -/
inductive Stop where
  /-- Help or the version is asked for. -/
  | show (text : String)
  /-- The command line makes no sense. -/
  | usage
  deriving DecidableEq, Repr

/-- The options and operands read so far. -/
structure Given where
  options : List (String × String) := []
  operand : Option String := none
  deriving DecidableEq, Repr

namespace Given

/-- The value of an option; that of a flag is empty. -/
def value? (g : Given) (name : String) : Option String := g.options.lookup name

/-- Whether a flag is given. -/
def has (g : Given) (name : String) : Bool := (g.value? name).isSome

/-- What is given after one more option, which may not be repeated. -/
def add (g : Given) (name value : String) : Except Stop Given :=
  if g.has name then .error .usage else .ok { g with options := g.options ++ [(name, value)] }

end Given

namespace Arguments

/-- What the arguments at one level may be: options, an operand, or the name of a command. -/
structure Level where
  options : List OptionSpec
  /-- What asking for help shows. -/
  help : String
  /-- What asking for the version shows, where that can be asked for. -/
  version : Option String := none
  takesOperand : Bool
  deriving Repr

/-- Whether an argument begins an option. -/
def beginsOption (a : String) : Bool :=
  match a.toList with
  | '-' :: _ :: _ => true
  | _ => false

/-- The value of an option in the arguments after it. -/
def takeValue : List String → Except Stop (String × List String)
  | [] => .error .usage
  | a :: r => if beginsOption a then .error .usage else .ok (a, r)

/-- An option by its name, with the value written behind it, if there is one. -/
def readNamed (l : Level) (g : Given) (name : String) (value : Option String) (rest : List String) :
    Except Stop (Given × List String) := do
  match l.options.find? fun o => o.name == name with
  | some o =>
    match o.value, value with
    | none, none => return (← g.add name "", rest)
    | none, some _ => throw .usage
    | some _, some v => return (← g.add name v, rest)
    | some _, none =>
      let (v, rest) ← takeValue rest
      return (← g.add name v, rest)
  | none =>
    if value.isSome then throw .usage
    else if name == "help" then throw (.show l.help)
    else match name == "version", l.version with
      | true, some v => throw (.show v)
      | _, _ => throw .usage

/-- Options by their letters; the last one may take a value, which may be written behind it. -/
def readLetters (l : Level) (g : Given) (rest : List String) :
    List Char → Except Stop (Given × List String)
  | [] => .ok (g, rest)
  | c :: cs => do
    match l.options.find? fun o => o.letter == some c with
    | some o =>
      if o.value.isNone then readLetters l (← g.add o.name "") rest cs
      else match cs with
        | [] =>
          let (v, rest) ← takeValue rest
          return (← g.add o.name v, rest)
        | '=' :: v => return (← g.add o.name (String.ofList v), rest)
        | v => return (← g.add o.name (String.ofList v), rest)
    | none =>
      if c == 'h' then throw (.show l.help)
      else match c == 'V', l.version with
        | true, some v => throw (.show v)
        | _, _ => throw .usage

/-- An operand, of which there is at most one. -/
def readOperand (l : Level) (g : Given) (a : String) : Except Stop Given :=
  if l.takesOperand && g.operand.isNone then .ok { g with operand := some a } else .error .usage

/-- Operands, after the mark that no more options follow. -/
def readOperands (l : Level) (g : Given) : List String → Except Stop Given
  | [] => .ok g
  | a :: r => do readOperands l (← readOperand l g a) r

/-- The first argument that is neither an option nor the value of one, with the arguments after it. At
a level with operands, those are read and there is no such argument. Each round takes an argument. -/
def readLevel (l : Level) : Nat → Given → List String → Except Stop (Given × List String)
  | 0, g, _ => .ok (g, [])
  | _ + 1, g, [] => .ok (g, [])
  | fuel + 1, g, a :: rest =>
    match a.toList with
    | ['-', '-'] =>
      if l.takesOperand || rest.isEmpty then (readOperands l g rest).map fun g => (g, [])
      else .error .usage
    | '-' :: '-' :: cs => do
      let name := String.ofList (cs.takeWhile (· != '='))
      let value := match cs.dropWhile (· != '=') with
        | _ :: v => some (String.ofList v)
        | [] => none
      let (g, rest) ← readNamed l g name value rest
      readLevel l fuel g rest
    | '-' :: c :: cs => do
      let (g, rest) ← readLetters l g rest (c :: cs)
      readLevel l fuel g rest
    | _ =>
      if l.takesOperand then do readLevel l fuel (← readOperand l g a) rest
      else .ok (g, a :: rest)

/-- All arguments of a level. -/
def readAll (l : Level) (args : List String) : Except Stop (Given × List String) :=
  readLevel l (args.length + 1) {} args

/-- The options before the name of a command. -/
def programLevel : Level where
  options := sharedOptions
  help := programHelp
  version := some (programName ++ " " ++ programVersion ++ "\n")
  takesOperand := false

/-- The options and operands after the name of a command. -/
def commandLevel (c : CommandSpec) : Level where
  options := c.options ++ sharedOptions
  help := c.help
  takesOperand := c.operand.isSome

/-- A path, which may not be empty. -/
def path (s : String) : Except Stop String := if s.isEmpty then .error .usage else .ok s

/-- The path of an operand. -/
def operand (g : Given) : Except Stop String :=
  match g.operand with
  | some s => path s
  | none => .error .usage

/-- How long to run if nothing is said about it. -/
def defaultSeconds : Nat := 30

/-- A number of seconds, which may have a plus sign and fits sixty-four bits. -/
def seconds : Option String → Except Stop Nat
  | none => .ok defaultSeconds
  | some s =>
    let ds := match s.toList with
      | '+' :: r => r
      | r => r
    if ds.isEmpty || !ds.all Char.isDigit || UInt64.size ≤ digitsValue ds then .error .usage
    else .ok (digitsValue ds)

/-- A path that may be left out. -/
def optionalPath : Option String → Except Stop (Option String)
  | none => .ok none
  | some s => (path s).map some

/-- The command with a name. -/
def commandOf (name : String) (g : Given) : Except Stop Command := do
  match name with
  | "blocks" => return .blocks
  | "compile" => return .compile (← operand g) (← optionalPath (g.value? "output")) (g.has "user-code")
  | "catalog" => return .catalog
  | "flash" => return .flash (g.value? "version")
  | "run" => return .run (← operand g) (← seconds (g.value? "seconds"))
  | "save" => return .save (← operand g)
  | "serve" => return .serve (g.value? "bind")
  | _ => throw .usage

/-- The help that is asked for by the command for it. -/
def helpFor : List String → Stop
  | [] => .show programHelp
  | [name] =>
    match commands.find? fun c => c.name == name with
    | some c => .show c.help
    | none => .usage
  | _ => .usage

/-- Reads a command line. Options behind the name of a command count more than those before it. -/
def read (args : List String) : Except Stop Invocation := do
  let (before, rest) ← readAll programLevel args
  match rest with
  | [] => throw .usage
  | name :: rest =>
    if name == "help" then throw (helpFor rest)
    else match commands.find? fun c => c.name == name with
      | none => throw .usage
      | some spec =>
        let (after, extra) ← readAll (commandLevel spec) rest
        if !extra.isEmpty then throw .usage
        let command ← commandOf name after
        return {
          config := ← optionalPath ((after.value? "config").or (before.value? "config"))
          port := (after.value? "port").or (before.value? "port")
          simulate := after.has "simulate" || before.has "simulate"
          command }

end Arguments

end CommandLine

end BlockBoard

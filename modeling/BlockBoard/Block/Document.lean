import BlockBoard.Block.Graph
import BlockBoard.Json.Printer
import BlockBoard.Json.Reader
import BlockBoard.Json.Record
/-!
# Block graphs as documents

- `BlockGraph.ofText`: the graph in a text, refused before it is read if it nests too deeply.
- `BlockGraph.toText`: the text of a graph.
- `bracketDepth`: the nesting of a text, found by counting brackets outside strings.
- `BlockDefinition.toJson`: an entry of the catalogue as a document.
-/

namespace BlockBoard

/-- The nesting beyond which a document is refused. Every block of a chain adds one level, so a chain
holds at most two blocks fewer. -/
def maxDocumentDepth : Nat := 512

/-- Why a text is no block graph. -/
inductive GraphError where
  /-- The text is no document, or the document is no graph. -/
  | malformed
  | tooDeep
  deriving DecidableEq, Repr

/-- The wording of an error. -/
def GraphError.message : GraphError → String
  | .malformed => "block graph JSON is invalid"
  | .tooDeep =>
    "block graph nests deeper than " ++ decimalText maxDocumentDepth ++
      " levels (a statement chain adds one level per block)"

/-! ## Nesting of a text -/

/-- Where a scan for brackets stands. -/
structure BracketScan where
  depth : Nat := 0
  deepest : Nat := 0
  inString : Bool := false
  afterBackslash : Bool := false
  deriving DecidableEq, Repr

/-- The scan after one more character. -/
def BracketScan.step (s : BracketScan) (c : Char) : BracketScan :=
  if s.inString then
    if s.afterBackslash then { s with afterBackslash := false }
    else if c == '\\' then { s with afterBackslash := true }
    else if c == '"' then { s with inString := false }
    else s
  else if c == '"' then { s with inString := true }
  else if c == '{' || c == '[' then
    { s with depth := s.depth + 1, deepest := max s.deepest (s.depth + 1) }
  else if c == '}' || c == ']' then { s with depth := s.depth - 1 }
  else s

/-- The greatest nesting of brackets in a text, those in strings left out. -/
def bracketDepth (text : String) : Nat := (text.toList.foldl BracketScan.step {}).deepest

/-! ## Reading -/

/-- A literal value: a truth value, a number or a text. -/
def FieldValue.ofJson? : Json → Option FieldValue
  | .boolean b => some (.boolean b)
  | .number n => n.toBinary64?.map .number
  | .string s => s.map .text
  | _ => none

/-- A table: every name is a text, and a repeated one keeps its last value. -/
def table? {α : Type} (read : Json → Option α) (v : Json) : Option (List (String × α)) :=
  match v with
  | .object members => do
    let entries ← members.mapM fun (k, v) => do return ((← k), (← read v))
    return entries.foldl (fun t (k, v) => insertSorted k v t) []
  | _ => none

/-- The kind of a block. -/
def BlockKind.ofJson? (v : Json) : Option BlockKind := v.variant?.bind BlockKind.ofName?

mutual

/-- A chain: a block with its successor inside it. Fuel bounds the nesting of the document. -/
def Chain.read? : Nat → Json → Option Chain
  | 0, _ => none
  | fuel + 1, v => do
    let [kind, id, fields, inputs, next] ← v.fields? ["kind", "id", "fields", "inputs", "next"]
      | none
    let kind ← (← kind) |> BlockKind.ofJson?
    let id ← Json.optional? Json.text? id
    let fields ← Json.orElse [] (table? FieldValue.ofJson?) fields
    let inputs ← Json.orElse [] (table? (Binding.read? fuel)) inputs
    let next ← Json.optional? (Chain.read? fuel) next
    return ⟨.mk kind id fields inputs, (next.map Chain.toList).getD []⟩

/-- What is plugged into a socket: an object with one member, which tells a literal from a block. -/
def Binding.read? : Nat → Json → Option Binding
  | 0, _ => none
  | fuel + 1, v =>
    match v with
    | .object [(some "literal", v)] => (FieldValue.ofJson? v).map .literal
    | .object [(some "block", v)] => (Chain.read? fuel v).map fun c => .chain c.first c.rest
    | _ => none

end

/-- The graph that a document holds. -/
def BlockGraph.ofJson? (v : Json) : Option BlockGraph := do
  let [blocks] ← v.fields? ["blocks"] | none
  let chains ← Json.orElse [] (fun v => do (← v.items).mapM (Chain.read? v.depth)) blocks
  return ⟨chains⟩

/-- The graph in a text. Nesting is looked at first, so that a text which nests too deeply is refused
as such whatever else is wrong with it. -/
def BlockGraph.ofText (text : String) : Except GraphError BlockGraph :=
  if maxDocumentDepth < bracketDepth text then .error .tooDeep
  else match (Json.ofText? text).bind BlockGraph.ofJson? with
    | some g => .ok g
    | none => .error .malformed

/-! ## Writing -/

/-- A literal value as a document. -/
def FieldValue.toJson : FieldValue → Json
  | .boolean b => .boolean b
  | .number x => .ofBinary64 x
  | .text s => .text s

/-- A member of an object. -/
def Json.member (name : String) (v : Json) : Option String × Json := (some name, v)

/-- A member that is left out if there is nothing to write. -/
def Json.memberIf (written : Bool) (name : String) (v : Json) : List (Option String × Json) :=
  if written then [Json.member name v] else []

mutual

/-- A block as a document, given that of its successor. -/
def Block.toJson (next : Option Json) : Block → Json
  | .mk kind id fields inputs =>
    .object (
      [Json.member "kind" (.text kind.name)] ++
      (match id with
        | none => []
        | some i => [Json.member "id" (.text i)]) ++
      Json.memberIf (!fields.isEmpty) "fields"
        (.object (fields.map fun (k, v) => Json.member k v.toJson)) ++
      Json.memberIf (!inputs.isEmpty) "inputs" (.object (bindingsToJson inputs)) ++
      (match next with
        | none => []
        | some v => [Json.member "next" v]))

/-- The document of the blocks that follow a block. -/
def successorsToJson : List Block → Option Json
  | [] => none
  | b :: r => some (b.toJson (successorsToJson r))

/-- What is plugged into a socket, as a document. -/
def Binding.toJson : Binding → Json
  | .literal v => .object [Json.member "literal" v.toJson]
  | .chain first rest => .object [Json.member "block" (first.toJson (successorsToJson rest))]

/-- What is plugged into the sockets of a block. -/
def bindingsToJson : List (String × Binding) → List (Option String × Json)
  | [] => []
  | (k, v) :: r => Json.member k v.toJson :: bindingsToJson r

end

/-- A graph as a document. -/
def BlockGraph.toJson (g : BlockGraph) : Json :=
  .object [Json.member "blocks"
    (.array (g.chains.map fun c => c.first.toJson (successorsToJson c.rest)))]

/-- The text of a graph. -/
def BlockGraph.toText (g : BlockGraph) : String := g.toJson.pretty

/-! ## The catalogue -/

/-- A shape as a document. -/
def Shape.toJson : Shape → Json
  | .statement => .text "statement"
  | .value output =>
    .object [Json.member "value" (.object [Json.member "output" (.text output.name)])]

/-- A socket as a document. -/
def SocketSpec.toJson (s : SocketSpec) : Json :=
  .object [
    Json.member "name" (.text s.name),
    Json.member "kind" (match s.kind with
      | .value check default => .object [
          Json.member "type" (.text "value"),
          Json.member "check" (.text check.name),
          Json.member "default" (.text default.code)]
      | .statements => .object [Json.member "type" (.text "statements")])]

/-- A field as a document. -/
def FieldSpec.toJson (f : FieldSpec) : Json :=
  .object [
    Json.member "name" (.text f.name),
    Json.member "default" (.text f.default),
    Json.member "choices" (.array (f.choices.map .text))]

/-- An entry of the catalogue as a document. -/
def BlockDefinition.toJson (d : BlockDefinition) : Json :=
  .object [
    Json.member "kind" (.text d.kind.name),
    Json.member "category" (.text d.category.name),
    Json.member "shape" d.shape.toJson,
    Json.member "label" (.text d.label),
    Json.member "fields" (.array (d.fields.map FieldSpec.toJson)),
    Json.member "sockets" (.array (d.sockets.map SocketSpec.toJson))]

end BlockBoard

import BlockBoard.Number.Binary64
/-!
# Configuration documents

The values of a TOML document, and how its lines build up its tables. A table may be named by a header,
by the header of a table inside it, or by a dotted key, and only some of these may be mixed.

- `Toml`: a value.
- `TomlTable.assign?`, `TomlTable.open?`, `TomlTable.append?`: what a line does to a table.
-/

namespace BlockBoard

/-- How a table came to be. -/
inductive TableOrigin where
  /-- By its own header. -/
  | header
  /-- By the header of a table inside it. -/
  | implied
  /-- By a dotted key. -/
  | dotted
  /-- In braces, where it is complete. -/
  | inline
  deriving DecidableEq, Repr

/-- A value of a configuration document. Dates and times are not looked into. -/
inductive Toml where
  | text (s : String)
  | integer (n : Int)
  | decimal (x : Binary64)
  | boolean (b : Bool)
  | dateTime
  /-- An array in brackets. -/
  | array (items : List Toml)
  /-- An array with a header for each table in it, the latest first. -/
  | tables (latest : List (List (String × Toml)))
  | table (origin : TableOrigin) (entries : List (String × Toml))

/-- The entries of a table. -/
abbrev TomlTable := List (String × Toml)

namespace TomlTable

/-- A table with an entry replaced or added. -/
def put (k : String) (v : Toml) : TomlTable → TomlTable
  | [] => [(k, v)]
  | (k', v') :: r => if k = k' then (k, v) :: r else (k', v') :: put k v r

/-- A table with a change made to the table that a path of headers leads to. Tables on the way are
implied; of an array of tables, the latest is meant. -/
def within? (f : TomlTable → Option TomlTable) : List String → TomlTable → Option TomlTable
  | [], t => f t
  | k :: path, t =>
    match t.lookup k with
    | none => (within? f path []).map fun s => t.put k (.table .implied s)
    | some (.table .inline _) => none
    | some (.table origin s) => (within? f path s).map fun s => t.put k (.table origin s)
    | some (.tables (s :: earlier)) =>
      (within? f path s).map fun s => t.put k (.tables (s :: earlier))
    | some _ => none

/-- A table with a value at a dotted key. Only tables that dotted keys have made may be extended by
them. -/
def assign? (v : Toml) : List String → TomlTable → Option TomlTable
  | [], _ => none
  | [k], t => if (t.lookup k).isSome then none else some (t.put k v)
  | k :: path, t =>
    match t.lookup k with
    | none => (assign? v path []).map fun s => t.put k (.table .dotted s)
    | some (.table .dotted s) => (assign? v path s).map fun s => t.put k (.table .dotted s)
    | some (.table .implied s) =>
      if path.length = 1 then none
      else (assign? v path s).map fun s => t.put k (.table .implied s)
    | some _ => none

/-- A table after the header of a table in it. -/
def openHere? (k : String) (t : TomlTable) : Option TomlTable :=
  match t.lookup k with
  | none => some (t.put k (.table .header []))
  | some (.table .implied s) => some (t.put k (.table .header s))
  | some _ => none

/-- A table after the header of an array of tables in it. -/
def appendHere? (k : String) (t : TomlTable) : Option TomlTable :=
  match t.lookup k with
  | none => some (t.put k (.tables [[]]))
  | some (.tables earlier) => some (t.put k (.tables ([] :: earlier)))
  | some _ => none

/-- Applies a change to the table that all but the last key of a path lead to. -/
def atLast? (f : String → TomlTable → Option TomlTable) (path : List String) (t : TomlTable) :
    Option TomlTable :=
  match path.getLast? with
  | none => none
  | some k => within? (f k) path.dropLast t

/-- A document after the header of a table. -/
def open? (path : List String) (t : TomlTable) : Option TomlTable := atLast? openHere? path t

/-- A document after the header of an array of tables. -/
def append? (path : List String) (t : TomlTable) : Option TomlTable := atLast? appendHere? path t

end TomlTable

end BlockBoard

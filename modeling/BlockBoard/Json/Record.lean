import BlockBoard.Json.Basic
/-!
# Records in documents

How the fields of a record are found in a document, and how tables with sorted keys are built.

- `Json.fields?`: the fields of a record, which may be written as an object or as an array.
- `Json.variant?`: a choice among names.
- `insertSorted`: one more entry in a table whose keys are in order.
-/

namespace BlockBoard

/-- A table with an entry added or replaced; keys in order stay in order. -/
def insertSorted {α : Type} (k : String) (v : α) : List (String × α) → List (String × α)
  | [] => [(k, v)]
  | (k', v') :: r =>
    if k < k' then (k, v) :: (k', v') :: r
    else if k = k' then (k, v) :: r
    else (k', v') :: insertSorted k v r

namespace Json

/-- The value of a member, if no other member has the same name. -/
def uniqueMember? (name : String) (members : List (Option String × Json)) : Option (Option Json) :=
  match members.filter fun m => m.1 == some name with
  | [] => some none
  | [m] => some (some m.2)
  | _ => none

/-- The values of a record's fields, in the order of their names. An object may leave fields out and
may have members that are no fields, but a field may not occur twice; an array holds the fields in
order, and may end early. -/
def fields? (names : List String) : Json → Option (List (Option Json))
  | .object members =>
    if members.any fun m => m.1.isNone then none
    else names.mapM fun name => uniqueMember? name members
  | .array items =>
    if names.length < items.length then none
    else some (items.map some ++ List.replicate (names.length - items.length) none)
  | _ => none

/-- A choice without data: its name, or an object that maps its name to null. -/
def variant? : Json → Option String
  | .string s => s
  | .object [(k, .null)] => k
  | _ => none

/-- The text of a string. -/
def text? : Json → Option String
  | .string s => s
  | _ => none

/-- The items of an array. -/
def items : Json → Option (List Json)
  | .array vs => some vs
  | _ => none

/-- A field that may be absent or null. -/
def optional? {α : Type} (read : Json → Option α) : Option Json → Option (Option α)
  | none => some none
  | some .null => some none
  | some v => (read v).map some

/-- A field with a default. -/
def orElse {α : Type} (default : α) (read : Json → Option α) : Option Json → Option α
  | none => some default
  | some v => read v

end Json

end BlockBoard

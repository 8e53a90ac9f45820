import BlockBoard.Json.Reader
import BlockBoard.Text.Utf8
/-!
# Text typed into the terminal

The document that holds what somebody has typed: an object with the member `data`, or an array of just
that text. It is read from front to back, and the first thing that is wrong with it decides whether it is
no document at all or a document of another shape.

- `typedText`: the text in a document.
- `TypedTextFault`: what is wrong with it.
-/

namespace BlockBoard

/-- What is wrong with a document. -/
inductive TypedTextFault where
  /-- It is no document. -/
  | malformed
  /-- It is a document of something else. -/
  | mistyped
  deriving DecidableEq, Repr

namespace TypedText

/-- A reading that fails if the document is none. -/
def ofOption {α : Type} (r : Option α) : Except TypedTextFault α :=
  match r with
  | some a => .ok a
  | none => .error .malformed

/-- The fault of a value that should be a text and begins otherwise. -/
def mismatch (s : List Char) : TypedTextFault :=
  let known (w : Option (List Char)) : TypedTextFault := if w.isSome then .mistyped else .malformed
  match s with
  | '[' :: _ | '{' :: _ => .mistyped
  | 'n' :: r => known (Json.word? "ull".toList r)
  | 't' :: r => known (Json.word? "rue".toList r)
  | 'f' :: r => known (Json.word? "alse".toList r)
  | s =>
    match Json.number? s with
    | some (n, _) => if n.toBinary64?.isSome then .mistyped else .malformed
    | none => .malformed

/-- A text, with blanks allowed before it. -/
def text (s : List Char) : Except TypedTextFault (String × List Char) :=
  match Json.skipSpace s with
  | '"' :: r =>
    match Json.string? r with
    | some (some t, rest) => .ok (t, rest)
    | _ => .error .malformed
  | s => .error (mismatch s)

/-- The colon after a key. -/
def colon (s : List Char) : Except TypedTextFault (List Char) :=
  match Json.skipSpace s with
  | ':' :: r => .ok r
  | _ => .error .malformed

mutual

/-- The members of an object from a key on, given the text found before. -/
def members : Nat → Option String → List Char → Except TypedTextFault (String × List Char)
  | 0, _, _ => .error .malformed
  | fuel + 1, found, s =>
    match s with
    | '"' :: r => do
      let (key, r) ← ofOption (Json.string? r)
      let key ← ofOption key
      if key = "data" then
        if found.isSome then throw .mistyped
        let (t, r) ← text (← colon r)
        more fuel (some t) r
      else
        let r ← colon r
        let (_, r) ← ofOption (Json.value? (2 * r.length + 2) r)
        more fuel found r
    | _ => .error .malformed

/-- What follows a member. -/
def more : Nat → Option String → List Char → Except TypedTextFault (String × List Char)
  | 0, _, _ => .error .malformed
  | fuel + 1, found, s =>
    match Json.skipSpace s with
    | ',' :: r => members fuel found (Json.skipSpace r)
    | '}' :: rest =>
      match found with
      | some t => .ok (t, rest)
      | none => .error .mistyped
    | _ => .error .malformed

end

/-- An array after its opening bracket. -/
def item (s : List Char) : Except TypedTextFault (String × List Char) :=
  match Json.skipSpace s with
  | ']' :: _ => .error .mistyped
  | s => do
    let (t, r) ← text s
    match Json.skipSpace r with
    | ']' :: rest => return (t, rest)
    | _ => throw .malformed

/-- The text in a document. -/
def document (s : List Char) : Except TypedTextFault (String × List Char) :=
  match Json.skipSpace s with
  | '[' :: r => item r
  | '{' :: r =>
    match Json.skipSpace r with
    | '}' :: _ => .error .mistyped
    | r => members (2 * r.length + 2) none r
  | '"' :: r =>
    match Json.string? r with
    | some (some _, _) => .error .mistyped
    | _ => .error .malformed
  | s =>
    match mismatch s with
    | .mistyped => .error .mistyped
    | .malformed => .error .malformed

end TypedText

/-- The bytes of a list up to the first that are no text, as a text, and whether those are all. -/
def leadingText (bs : List UInt8) : List Char × Bool :=
  let steps := (utf8Steps 0 bs).map Utf8Step.char?
  ((steps.takeWhile Option.isSome).filterMap id, steps.all Option.isSome)

/-- The text in a document, which ends with it. -/
def typedText (bs : List UInt8) : Except TypedTextFault String := do
  let (s, whole) := leadingText bs
  let (t, rest) ← TypedText.document s
  if whole && (Json.skipSpace rest).isEmpty then return t else throw .malformed

end BlockBoard

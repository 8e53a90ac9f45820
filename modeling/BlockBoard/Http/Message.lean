import BlockBoard.Json.Printer
import BlockBoard.Text.Utf8
/-!
# HTTP messages

Requests and replies as far as the interface to the board needs them, and the paths of requests.

- `HttpRequest`, `HttpReply`: the messages.
- `HttpRequest.segments`: the path of a request, piece by piece.
- `percentDecoded?`: the text that a piece of a path stands for.
-/

namespace BlockBoard

/-- A request. -/
structure HttpRequest where
  method : String
  /-- The path and the query. -/
  target : String
  contentType : Option String := none
  body : List UInt8 := []
  deriving DecidableEq, Repr

/-- The content of a reply. -/
inductive HttpContent where
  | none
  /-- Words for people. -/
  | plainText
  | json (v : Json)
  /-- A file that is to be saved under a name. -/
  | file (name : String) (bytes : List UInt8)

/-- A reply. -/
structure HttpReply where
  status : Nat
  content : HttpContent := .none

namespace HttpContent

/-- The type of a content. -/
def type? : HttpContent → Option String
  | none => Option.none
  | plainText => some "text/plain; charset=utf-8"
  | json _ => some "application/json"
  | file _ _ => some "application/octet-stream"

/-- How the reader is asked to treat a content. -/
def disposition? : HttpContent → Option String
  | file name _ => some ("attachment; filename=\"" ++ name ++ "\"")
  | _ => Option.none

end HttpContent

/-- The path of a request, without its query. -/
def HttpRequest.path (r : HttpRequest) : List Char := r.target.toList.takeWhile (· != '?')

/-- The pieces of a list between slashes. -/
def slashPieces : List Char → List (List Char)
  | [] => [[]]
  | c :: r =>
    if c = '/' then [] :: slashPieces r
    else match slashPieces r with
      | [] => [[c]]
      | p :: ps => (c :: p) :: ps

/-- The path of a request in pieces; nothing if it does not start with a slash. -/
def HttpRequest.segments (r : HttpRequest) : Option (List String) :=
  match slashPieces r.path with
  | [] :: ps => some (ps.map String.ofList)
  | _ => none

/-- The value of a hexadecimal digit. -/
def hexDigitOfByte? (b : UInt8) : Option UInt8 :=
  if 48 ≤ b && b ≤ 57 then some (b - 48)
  else if 97 ≤ b && b ≤ 102 then some (b - 87)
  else if 65 ≤ b && b ≤ 70 then some (b - 55)
  else none

/-- Bytes with each percent sign and two hexadecimal digits replaced by the byte that they name, while
the bytes skipped belong to such a name. -/
def percentDecode : Nat → List UInt8 → List UInt8
  | _, [] => []
  | skip + 1, _ :: r => percentDecode skip r
  | 0, b :: r =>
    match r with
    | h :: l :: _ =>
      match hexDigitOfByte? h, hexDigitOfByte? l with
      | some h, some l => if b = 37 then (h * 16 + l) :: percentDecode 2 r else b :: percentDecode 0 r
      | _, _ => b :: percentDecode 0 r
    | _ => b :: percentDecode 0 r

/-- The text that a piece of a path stands for, if its bytes are one. -/
def percentDecoded? (s : String) : Option String := utf8Text? (percentDecode 0 (utf8 s))

end BlockBoard

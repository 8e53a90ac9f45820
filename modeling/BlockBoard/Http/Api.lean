import BlockBoard.Block.Document
import BlockBoard.Firmware.Catalog
import BlockBoard.Firmware.Image
import BlockBoard.Http.Message
import BlockBoard.Http.TypedText
import BlockBoard.Session.Conduct
/-!
# The HTTP interface

What an editor in a browser asks for: the blocks, compiled programs, firmware, and everything that a
session with a board does.

- `Endpoint.ofSegments?`: what a path names.
- `Office.answer`: the reply to a request.
- `ApiError.status`: how failures are reported.
-/

namespace BlockBoard

/-- How a request fails. -/
inductive ApiError where
  | graph (e : GraphError)
  | transfer (e : TransferError)
  | session (e : SessionError)
  | noRelease (version : String)
  /-- The request itself cannot be understood. -/
  | refused (status : Nat)
  /-- A reply that cannot be written. -/
  | unwritable
  deriving DecidableEq, Repr

namespace ApiError

/-- The status of a failed transfer: a file of this machine is its own fault. -/
def transferStatus : TransferError → Nat
  | .io => 500
  | _ => 502

/-- The status of a failed request to a session. -/
def sessionStatus : SessionError → Nat
  | .invalidMove _ _ | .notConnected => 409
  | .gone => 500
  | _ => 502

/-- The status of a failure. -/
def status : ApiError → Nat
  | graph _ => 400
  | transfer e => transferStatus e
  | session e => sessionStatus e
  | noRelease _ => 404
  | refused s => s
  | unwritable => 500

/-- The wording of a failure. -/
def message : ApiError → String
  | graph e => e.message
  | transfer e => e.message
  | session e => e.message
  | noRelease version => "no firmware release " ++ version
  | refused _ => ""
  | unwritable => ""

/-- The two counts of a failure about sizes. -/
def sizes? : ApiError → Option (Nat × Nat)
  | transfer e => e.sizes?
  | session (.transfer e) => e.sizes?
  | _ => none

/-- The document of a failure. -/
def toJson (e : ApiError) : Json :=
  .object ((some "error", .text e.message) :: match e.sizes? with
    | none => []
    | some (actual, expected) =>
      [(some "actual", .ofNat actual), (some "expected", .ofNat expected)])

/-- The reply that reports a failure. -/
def reply (e : ApiError) : HttpReply :=
  match e with
  | refused _ | unwritable => ⟨e.status, .plainText⟩
  | e => ⟨e.status, .json e.toJson⟩

end ApiError

/-- Something to be warned of while a request is answered. -/
inductive ApiNotice where
  | lowering (n : LoweringNotice)
  | catalog (n : CatalogNotice)
  | session (n : Notice)

namespace ApiNotice

/-- Whether a notice is about a failure rather than about something tolerated. -/
def isError : ApiNotice → Bool
  | session n => n.isError
  | _ => false

/-- The wording of a notice. -/
def message : ApiNotice → String
  | lowering n => n.message
  | catalog n => n.message
  | session n => n.message

end ApiNotice

/-- Everything that requests are answered with. -/
structure Office (σ : Type) where
  desk : Desk σ
  cache : CatalogCache
  /-- What the registry would answer. -/
  registry : Except CatalogError (List Release)
  store : ImageStore
  minTransferRatio : Binary64
  /-- The moment, in milliseconds since some start, and as a timestamp. -/
  now : Nat
  stamp : Timestamp
  notices : List ApiNotice := []

/-- An answer in the making. -/
abbrev Answering (σ α : Type) := Operation (Office σ) ApiError α

/-- What can be asked for. -/
inductive Endpoint where
  | blocks
  | compile
  | catalog
  | image (version : String)
  | device
  | connect
  | disconnect
  | flash (version : String)
  | run
  | save
  | stop
  | input
  | clear
  deriving DecidableEq, Repr

namespace Endpoint

/-- Whether something is asked for by a request to get it; everything else is asked for by a request to
do it. -/
def isGet : Endpoint → Bool
  | blocks | catalog | image _ | device => true
  | _ => false

/-- What the path after the version of the interface names. A version of firmware is kept as it is
written in the path. -/
def ofPath? : List String → Option Endpoint
  | ["blocks"] => some blocks
  | ["compile"] => some compile
  | ["firmware"] => some catalog
  | ["firmware", version, "binary"] => some (image version)
  | ["device"] => some device
  | ["device", "connect"] => some connect
  | ["device", "disconnect"] => some disconnect
  | ["device", "flash", version] => if version.isEmpty then none else some (flash version)
  | ["device", "run"] => some run
  | ["device", "save"] => some save
  | ["device", "stop"] => some stop
  | ["device", "input"] => some input
  | ["device", "clear"] => some clear
  | _ => none

/-- What a path names. -/
def ofSegments? : List String → Option Endpoint
  | "api" :: "v1" :: rest => ofPath? rest
  | _ => none

end Endpoint

namespace Answering

variable {σ α : Type}

/-- Writes down a notice. -/
def warn (n : ApiNotice) : Answering σ Unit :=
  .of fun o => (.ok (), { o with notices := o.notices ++ [n] })

/-- Everything as it is. -/
def office : Answering σ (Office σ) := .of fun o => (.ok o, o)

/-- The greatest body that is read, in bytes. -/
def bodyLimit : Nat := 2097152

/-- The body of a request, if it is not too large. -/
def body (r : HttpRequest) : Answering σ (List UInt8) :=
  if bodyLimit < r.body.length then throw (.refused 413) else pure r.body

/-- The body of a request as a text. -/
def bodyText (r : HttpRequest) : Answering σ String := do
  match utf8Text? (← body r) with
  | some s => return s
  | none => throw (.refused 400)

/-- The program of the graph in the body of a request. -/
def program (r : HttpRequest) : Answering σ Program := do
  match BlockGraph.ofText (← bodyText r) with
  | .error e => throw (.graph e)
  | .ok g =>
    for n in g.lower.notices do warn (.lowering n)
    return g.compile

/-- The document about a compiled program. -/
def ofProgram (p : Program) : Json := .object [
  (some "source", .text p.source), (some "user_code", .text p.userCode),
  (some "digest", .text p.digest), (some "bytes", .ofNat p.bytes.length)]

/-- The catalog of this moment. -/
def catalog : Answering σ Catalog := do
  let o ← office
  let f := o.cache.fetch o.now o.stamp o.registry
  .of fun o => (.ok (), { o with cache := f.cache })
  for n in f.notices do warn (.catalog n)
  return f.catalog

/-- The text of a version in a path. -/
def version (s : String) : Answering σ String :=
  match percentDecoded? s with
  | some v => pure v
  | none => throw (.refused 400)

/-- The release of a version in a path, and its image. -/
def image (s : String) : Answering σ (Release × List UInt8) := do
  let v ← version s
  match (← catalog).find? v with
  | none => throw (.noRelease v)
  | some r =>
    let o ← office
    match fetchImage o.store r o.minTransferRatio with
    | .error e => throw (.transfer e)
    | .ok bs =>
      if isShort bs.length r.size then warn (.session (.transferShort bs.length r.size))
      return (r, bs)

/-- Whether a text can stand in a header. -/
def isHeaderText (s : String) : Bool :=
  s.toList.all fun c => c == '\t' || (0x20 ≤ c.toNat && c.toNat != 0x7f)

/-- The image of a version as a file. -/
def imageFile (s : String) : Answering σ HttpContent := do
  let (r, bs) ← image s
  let name := "firmware-" ++ r.version ++ ".bin"
  if isHeaderText name then return .file name bs else throw .unwritable

/-- Whether a content type is that of documents. Parameters after it do not matter. -/
def isJsonType (s : String) : Bool :=
  let essence := String.ofList ((s.toList.takeWhile (· != ';')).map Char.toLower)
  match essence.toList with
  | 'a' :: 'p' :: 'p' :: 'l' :: 'i' :: 'c' :: 'a' :: 't' :: 'i' :: 'o' :: 'n' :: '/' :: kind =>
    kind == "json".toList || "+json".toList.isSuffixOf kind
  | _ => false

/-- The text typed in the body of a request. -/
def typed (r : HttpRequest) : Answering σ String := do
  if !(r.contentType.map isJsonType).getD false then throw (.refused 415)
  match typedText (← body r) with
  | .ok s => return s
  | .error .malformed => throw (.refused 400)
  | .error .mistyped => throw (.refused 422)

variable [Connector σ]

/-- What the session answers. Nobody cancels a flash from here. -/
def ask (q : Request) : Answering σ Reply :=
  .of fun o =>
    let (result, desk) := o.desk.handle (fun _ => false) q
    let notices := o.notices ++ desk.notices.map .session
    (result.mapError .session, { o with desk := { desk with notices := [] }, notices })

/-- The document of what a session answers. -/
def ofReply : Reply → HttpContent
  | .done => .none
  | .shown s => .json s.toJson
  | .saved o => .json o.toJson
  | .flashed r => .json r.toJson

/-- The reply of a request that has been understood. -/
def content (r : HttpRequest) : Endpoint → Answering σ HttpContent
  | .blocks => pure (.json (.array (registry.map BlockDefinition.toJson)))
  | .compile => do return .json (ofProgram (← program r))
  | .catalog => do return .json (← catalog).toJson
  | .image s => imageFile s
  | .device => do
    let shown ← ask .snapshot
    let state := (← office).desk.session.status
    match shown with
    | .shown s =>
      return .json (.object [(some "state", .text state.name), (some "terminal", s.toJson)])
    | other => return ofReply other
  | .connect => do return ofReply (← ask .connect)
  | .disconnect => do return ofReply (← ask .disconnect)
  | .flash s => do
    let (release, bs) ← image s
    return ofReply (← ask (.flash bs release.size))
  | .run => do
    let p ← program r
    let _ ← ask (.run p)
    return .json (ofProgram p)
  | .save => do return ofReply (← ask (.save (← program r)))
  | .stop => do return ofReply (← ask .stop)
  | .input => do return ofReply (← ask (.input (utf8 (← typed r))))
  | .clear => do return ofReply (← ask .clear)

end Answering

namespace Office

variable {σ : Type} [Connector σ]

/-- Whether a method asks for an endpoint. What can be got can also be asked for without its body. -/
def accepts (method : String) (e : Endpoint) : Bool :=
  if e.isGet then method == "GET" || method == "HEAD" else method == "POST"

/-- The reply to a request. -/
def answer (r : HttpRequest) (o : Office σ) : HttpReply × Office σ :=
  match r.segments.bind Endpoint.ofSegments? with
  | none => (⟨404, .none⟩, o)
  | some e =>
    if accepts r.method e then
      match (Answering.content r e).outcome o with
      | (.ok c, o) => (⟨200, c⟩, o)
      | (.error e, o) => (e.reply, o)
    else (⟨405, .none⟩, o)

end Office

end BlockBoard

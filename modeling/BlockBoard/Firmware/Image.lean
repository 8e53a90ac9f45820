import BlockBoard.Firmware.Release
import BlockBoard.Firmware.Registry
import BlockBoard.Firmware.Transfer
/-!
# Images of releases

- `fetchImage`: the image of a release, if its size is right.
-/

namespace BlockBoard

/-- Where an image is taken from: files by their paths, and a service for everything else. -/
structure ImageStore where
  file? : String → Option (List UInt8)
  service : HttpService

/-- The bytes that a source gives. -/
def ImageStore.read (s : ImageStore) : ReleaseSource → Except TransferError (List UInt8)
  | .bundled path =>
    match s.file? path with
    | some bs => .ok bs
    | none => .error .io
  | .remote url =>
    match s.service { url } with
    | none => .error .http
    | some a => if a.isSuccess then .ok a.body else .error (.status a.status)

/-- The image of a release. A warning comes with one that is a little short. -/
def fetchImage (s : ImageStore) (r : Release) (minRatio : Binary64) :
    Except TransferError (List UInt8) := do
  let image ← s.read r.source
  verifyTransferSize image.length r.size minRatio
  return image

end BlockBoard

import BlockBoard.Firmware.Transfer
import BlockBoard.Link.Transport
/-!
# States and failures of a session

A session with a board is in one of six states. Which moves are possible is fixed here, and so is how
a request to a session can fail and what a session warns of.

- `SessionState.canMoveTo`: the edges between the states.
- `SessionError`: how a request fails.
- `Notice`: what a session warns of.
-/

namespace BlockBoard

/-- A state of a session. -/
inductive SessionState where
  | disconnected | connecting | connected | flashing | running | error
  deriving DecidableEq, Repr

namespace SessionState

/-- All states. -/
def all : List SessionState := [disconnected, connecting, connected, flashing, running, error]

/-- The name of a state. -/
def name : SessionState → String
  | disconnected => "disconnected"
  | connecting => "connecting"
  | connected => "connected"
  | flashing => "flashing"
  | running => "running"
  | error => "error"

/-- Whether a session can move from one state to another. It can disconnect from everywhere, and an
error is only left that way. -/
def canMoveTo : SessionState → SessionState → Bool
  | disconnected, connecting => true
  | connecting, connected => true
  | connecting, error => true
  | connected, flashing => true
  | connected, running => true
  | connected, error => true
  | flashing, connected => true
  | flashing, error => true
  | running, connected => true
  | running, error => true
  | disconnected, disconnected => false
  | _, disconnected => true
  | _, _ => false

/-- Whether a board is at the other end. -/
def isConnected : SessionState → Bool
  | connected | flashing | running => true
  | _ => false

end SessionState

/-- How a board breaks the rules of a conversation. -/
inductive ProtocolFault where
  /-- The loader reports an error for an operation. -/
  | refused (op error : UInt8)
  /-- The loader answers an operation without saying how it went. -/
  | noStatus (op : UInt8)
  /-- The loader does not wake up. -/
  | noSync (attempts : Nat)
  /-- The interpreter reports an error. -/
  | raised (text : String)
  deriving DecidableEq, Repr

/-- Two hexadecimal digits with their mark. -/
def hexByte (b : UInt8) : String :=
  "0x" ++ String.ofList [Nat.digitChar (b.toNat / 16), Nat.digitChar (b.toNat % 16)]

/-- The wording of a fault. -/
def ProtocolFault.message : ProtocolFault → String
  | refused op error =>
    "command " ++ hexByte op ++ " failed with ROM error " ++ hexByte error
  | noStatus op => "command " ++ hexByte op ++ " returned no status"
  | noSync attempts =>
    "ROM loader did not answer SYNC after " ++ decimalText attempts ++ " attempts"
  | raised text => "device raised: " ++ text

/-- How a request to a session fails. -/
inductive SessionError where
  | invalidMove (source target : SessionState)
  | notConnected
  | link (e : LinkError)
  /-- The link failed while an image was being written; `written` of its bytes were acknowledged. -/
  | interrupted (written : Nat) (e : LinkError)
  | cancelled
  | transfer (e : TransferError)
  | fault (f : ProtocolFault)
  /-- The session has ended. -/
  | gone
  deriving DecidableEq, Repr

/-- The wording of a failure. -/
def SessionError.message : SessionError → String
  | invalidMove source target => "cannot go from " ++ source.name ++ " to " ++ target.name
  | notConnected => "no board connected"
  | link e => e.message
  | interrupted written e =>
    "connection lost after " ++ decimalText written ++ " bytes of firmware were written: " ++ e.message
  | cancelled => "flash cancelled"
  | transfer e => e.message
  | fault f => "device protocol error: " ++ f.message
  | gone => "bridge task has stopped"

/-- What a session warns of. -/
inductive Notice where
  | transferShort (actual expected : Nat)
  | cancelIgnored
  | writingInterrupted (written : Nat) (e : LinkError)
  | operationFailed (e : SessionError)
  | alreadyIn (s : SessionState)
  | connectionLost (reason : String)
  | resetFailed (e : LinkError)
  | streamBehind (skipped : Nat)
  deriving DecidableEq, Repr

namespace Notice

/-- Whether a notice is about a failure rather than about something tolerated. -/
def isError : Notice → Bool
  | writingInterrupted _ _ | operationFailed _ => true
  | _ => false

/-- The wording of a notice. -/
def message : Notice → String
  | transferShort actual expected => shortMessage actual expected
  | cancelIgnored => "Ignoring cancel: flash region already erased"
  | writingInterrupted written e =>
    "Transport lost after " ++ decimalText written ++ " bytes of firmware: " ++ e.message
  | operationFailed e => "Bridge operation failed: " ++ e.message
  | alreadyIn s => "Bridge already in " ++ s.name
  | connectionLost reason => "Lost connection to the board: " ++ reason
  | resetFailed e => "Reset after cancelled flash failed: " ++ e.message
  | streamBehind skipped =>
    "Terminal stream fell behind, " ++ decimalText skipped ++ " chunks skipped"

end Notice

end BlockBoard

import BlockBoard.Number.Decimal
/-!
# Checking transferred sizes

A transfer may fall short of the declared size by a tolerated part, and may never exceed it.

- `verifyTransferSize`: whether a count of bytes will do.
-/

namespace BlockBoard

/-- Why a firmware image could not be had. -/
inductive TransferError where
  | truncated (actual expected : Nat)
  | oversized (actual expected : Nat)
  /-- The server answers with another status than success. -/
  | status (code : Nat)
  /-- The server does not answer. -/
  | http
  /-- The file cannot be read. -/
  | io
  deriving DecidableEq, Repr

namespace TransferError

/-- The wording of an error. -/
def message : TransferError → String
  | truncated actual expected =>
    "transfer truncated: " ++ decimalText actual ++ " of " ++ decimalText expected ++ " bytes"
  | oversized actual expected =>
    "transfer oversized: " ++ decimalText actual ++ " bytes, expected " ++ decimalText expected
  | status code => "firmware download returned HTTP " ++ decimalText code
  | http => "firmware download failed"
  | io => "bundled firmware unreadable"

/-- The two counts of an error about sizes. -/
def sizes? : TransferError → Option (Nat × Nat)
  | truncated actual expected => some (actual, expected)
  | oversized actual expected => some (actual, expected)
  | _ => none

end TransferError

/-- Whether a count of bytes is at most the declared one, and at least a given part of it. Counts are
compared as doubles. -/
def verifyTransferSize (actual expected : Nat) (minRatio : Binary64) : Except TransferError Unit :=
  if expected < actual then .error (.oversized actual expected)
  else if (Binary64.ofNat actual).lt ((Binary64.ofNat expected).mul minRatio) then
    .error (.truncated actual expected)
  else .ok ()

/-- Whether an accepted count deserves a warning. -/
def isShort (actual expected : Nat) : Bool := decide (actual < expected)

/-- The wording of that warning. -/
def shortMessage (actual expected : Nat) : String :=
  "Transfer short by " ++ decimalText (expected - actual) ++ " bytes (" ++ decimalText actual ++
    " of " ++ decimalText expected ++ "), within tolerance"

end BlockBoard

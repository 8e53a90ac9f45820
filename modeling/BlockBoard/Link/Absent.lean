import BlockBoard.Link.Transport
/-!
# Links that cannot be opened

A machine without any board: a port that is named cannot be opened, and looking for one finds none.

- `AbsentLink`: the link that is never there.
- `portFor`: which port is opened.
-/

namespace BlockBoard

/-- The port to open: the one that settings name, or else the first whose USB ids they allow. -/
def portFor (d : DeviceSettings) (ports : List (String × UsbId)) : Except LinkError String :=
  match d.port with
  | some p => .ok p
  | none =>
    match ports.find? fun p => d.allows p.2 with
    | some p => .ok p.1
    | none => .error .noDevice

/-- A link that is never there. -/
structure AbsentLink where
  deriving DecidableEq, Repr

instance : Transport AbsentLink where
  read _ l := (.failed .closed, l)
  write _ l := (.error .closed, l)
  setBaud _ l := (.error .closed, l)
  enterLoader l := (.error .closed, l)
  hardReset l := (.error .closed, l)
  backlog _ := 0

instance : Connector AbsentLink where
  openLink d l :=
    (match portFor d [] with
      | .ok _ => .error .io
      | .error e => .error e, l)

end BlockBoard

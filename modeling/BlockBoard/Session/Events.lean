import BlockBoard.Json.Printer
import BlockBoard.Session.Basic
/-!
# What a session announces

Everybody who watches a session is sent its events in order. An observer holds a bounded number of
events that it has not looked at yet; when there are more, the oldest are lost and counted.

- `SessionEvent`: an event, and its document.
- `EventQueue`: the events that an observer has not looked at yet.
- `TerminalStream`: an observer that is interested in the board's output only.
-/

namespace BlockBoard

/-- Something that a session announces. -/
inductive SessionEvent where
  /-- Output of the board, as received. -/
  | output (text : String)
  | stateChanged (s : SessionState)
  /-- The link was lost outside of a flash. -/
  | disconnected (reason : String)
  deriving DecidableEq, Repr

/-- The document of an event. -/
def SessionEvent.toJson : SessionEvent → Json
  | output text => .object [(some "type", .text "output"), (some "text", .text text)]
  | stateChanged s => .object [(some "type", .text "state_changed"), (some "state", .text s.name)]
  | disconnected reason =>
    .object [(some "type", .text "disconnected"), (some "reason", .text reason)]

/-- The events that an observer has not looked at yet, and how many of them were lost. -/
structure EventQueue where
  waiting : List SessionEvent := []
  lost : Nat := 0
  deriving DecidableEq, Repr

namespace EventQueue

/-- How many events can wait. -/
def capacity : Nat := 256

/-- The queue after more events. -/
def push (q : EventQueue) (events : List SessionEvent) : EventQueue :=
  let all := q.waiting ++ events
  let excess := all.length - capacity
  { waiting := all.drop excess, lost := q.lost + excess }

end EventQueue

/-- An observer of the board's output. It ends when the link is lost. -/
structure TerminalStream where
  queue : EventQueue := {}
  ended : Bool := false
  deriving DecidableEq, Repr

namespace TerminalStream

/-- The stream after more events. -/
def push (s : TerminalStream) (events : List SessionEvent) : TerminalStream :=
  if s.ended then s else { s with queue := s.queue.push events }

/-- The texts of the output among events up to a lost link, and whether there was one. -/
def textsOf : List SessionEvent → List String × Bool
  | [] => ([], false)
  | .output text :: r => let (ts, ended) := textsOf r; (text :: ts, ended)
  | .stateChanged _ :: r => textsOf r
  | .disconnected _ :: _ => ([], true)

/-- Everything that can be read now, with a warning if output was lost. -/
def take (s : TerminalStream) : List String × List Notice × TerminalStream :=
  if s.ended then ([], [], s)
  else
    let (texts, ended) := textsOf s.queue.waiting
    (texts, if s.queue.lost = 0 then [] else [.streamBehind s.queue.lost], { ended })

end TerminalStream

end BlockBoard

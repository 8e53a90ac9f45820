import BlockBoard.Link.Transport
import BlockBoard.Repl.Prompt
/-!
# Links with a script

A link whose other end follows a script: what is sent is written down, answers come from a list or by a
simple rule, and the link fails where the script says so. It is the peer to use when what matters is the
order of what is sent and how bytes are cut, and not what a board would do with them.

- `Script`: what the other end does.
- `ScriptedLink`: the link, with everything that was asked of it.
- `WatchedLink`: any link, with a flag that goes up when a given command has been sent.
-/

namespace BlockBoard

/-- A rule for answers that a script does not list. -/
inductive AnswerRule where
  /-- No answers. -/
  | silence
  /-- Success for every command of the loader. -/
  | loader
  /-- The banner of the raw prompt, and an accepted program that ends at once. -/
  | rawPrompt
  deriving DecidableEq, Repr

/-- What reading gives once everything has been read. -/
inductive ScriptEnd where
  | silent | zero | closed
  deriving DecidableEq, Repr

/-- What can be asked of a link besides reading. -/
inductive LinkAction where
  | write (bs : List UInt8)
  | baud (n : UInt32)
  | enterLoader
  | hardReset
  deriving DecidableEq, Repr

/-- What the other end of a scripted link does. Writes are counted from zero. -/
structure Script where
  initial : List UInt8 := []
  rule : AnswerRule := .silence
  replies : List (Option (List UInt8)) := []
  /-- The most that one read gives. -/
  chunk : Option Nat := none
  ending : ScriptEnd := .silent
  failsBaud : Bool := false
  failsLoader : Bool := false
  failsReset : Bool := false
  /-- The write that fails. -/
  failWrite : Option Nat := none
  /-- The write that sets the flag for cancelling. -/
  cancelWrite : Option Nat := none
  deriving DecidableEq, Repr

/-- The answer that a rule gives to a write. -/
def AnswerRule.answer : AnswerRule → List UInt8 → List UInt8
  | silence, _ => []
  | loader, _ :: _ :: op :: _ => [0xC0, 0x01, op, 4, 0, 0, 0, 0, 0, 0, 0, 0, 0, 0xC0]
  | loader, _ => []
  | rawPrompt, bs =>
    if bs.getLast? = some ctrlA then rawBanner
    else if bs.getLast? = some ctrlD then accepted ++ ctrlD :: finishMark
    else []

/-- A scripted link: what can still be read, how many writes there were, what was asked of the link
with the latest first, and the flag for cancelling. -/
structure ScriptedLink where
  script : Script
  queue : List UInt8 := script.initial
  writes : Nat := 0
  latestActions : List LinkAction := []
  cancelled : Bool := false
  deriving DecidableEq, Repr

namespace ScriptedLink

/-- What was asked of the link, in order. -/
def actions (l : ScriptedLink) : List LinkAction := l.latestActions.reverse

/-- The link after an action has been written down. -/
def record (a : LinkAction) (l : ScriptedLink) : ScriptedLink :=
  { l with latestActions := a :: l.latestActions }

/-- The answer to a write. -/
def answerTo (l : ScriptedLink) (bs : List UInt8) : List UInt8 :=
  (l.script.replies[l.writes]?.join).getD (l.script.rule.answer bs)

/-- A write. One that fails leaves the flag alone. -/
def write (bs : List UInt8) (l : ScriptedLink) : Except LinkError Unit × ScriptedLink :=
  let logged := { l.record (.write bs) with writes := l.writes + 1 }
  if l.script.failWrite = some l.writes then (.error .closed, logged)
  else
    (.ok (), { logged with
      queue := l.queue ++ l.answerTo bs
      cancelled := l.cancelled || l.script.cancelWrite == some l.writes })

/-- A read of at most `n` bytes. -/
def read (n : Nat) (l : ScriptedLink) : Reading × ScriptedLink :=
  if l.queue.isEmpty then
    (match l.script.ending with
      | .silent => .silent
      | .zero => .bytes []
      | .closed => .failed .closed, l)
  else
    let n := (l.script.chunk.map (min n)).getD n
    (.bytes (l.queue.take n), { l with queue := l.queue.drop n })

/-- Something asked of the link that fails if the script says so. -/
def control (fails : Bool) (a : LinkAction) (l : ScriptedLink) :
    Except LinkError Unit × ScriptedLink :=
  (if fails then .error .closed else .ok (), l.record a)

instance : Transport ScriptedLink where
  read := read
  write := write
  setBaud n l := l.control l.script.failsBaud (.baud n)
  enterLoader l := l.control l.script.failsLoader .enterLoader
  hardReset l := l.control l.script.failsReset .hardReset
  backlog l := l.queue.length

instance : Connector ScriptedLink where
  openLink _ l := (.ok "script", l)

end ScriptedLink

/-- A link with a flag for cancelling, which goes up as soon as a command of the loader with a given
operation has been sent. -/
structure WatchedLink (σ : Type) where
  link : σ
  op : Option UInt8 := none
  cancelled : Bool := false

namespace WatchedLink

variable {σ : Type}

/-- Whether some bytes begin a command with a given operation. -/
def beginsCommand (op : Option UInt8) : List UInt8 → Bool
  | a :: b :: c :: _ => a == 0xC0 && b == 0 && op == some c
  | _ => false

/-- Something done with the link itself. -/
def onLink {α : Type} (f : σ → α × σ) (l : WatchedLink σ) : α × WatchedLink σ :=
  let (a, link) := f l.link
  (a, { l with link })

/-- A write that was handled raises the flag if it begins the command. -/
def write [Transport σ] (bs : List UInt8) (l : WatchedLink σ) :
    Except LinkError Unit × WatchedLink σ :=
  match onLink (Transport.write bs) l with
  | (.ok (), l) => (.ok (), { l with cancelled := l.cancelled || beginsCommand l.op bs })
  | (.error e, l) => (.error e, l)

instance [Transport σ] : Transport (WatchedLink σ) where
  read n := onLink (Transport.read n)
  write := write
  setBaud n := onLink (Transport.setBaud n)
  enterLoader := onLink Transport.enterLoader
  hardReset := onLink Transport.hardReset
  backlog l := Transport.backlog l.link

instance [Connector σ] : Connector (WatchedLink σ) where
  openLink d := onLink (Connector.openLink d)

end WatchedLink

end BlockBoard

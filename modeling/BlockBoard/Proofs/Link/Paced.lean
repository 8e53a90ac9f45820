import BlockBoard.Link.Receiving
import BlockBoard.Link.Scripted
import BlockBoard.Proofs.Link.Recorded
/-!
# Links that give out bytes at some pace

A link with a fixed peer at its other end. Whatever is asked of the link is answered in a way that
depends on nothing but what has been asked so far, and the peer's bytes wait in a queue. How many of
them one read gives is the pace of the link, and no affair of the peer's.

- `Peer`: what the other end says and does.
- `PacedLink`: a link to a peer, of a given pace.
- `PacedLink.read_cases`: a read gives the bytes in order, and at least one if there are any.
- `PacedLink.drain_eq`: forgetting what has arrived forgets all of it, at every pace.
- `Script.observes_paced`: **a scripted link is a paced link that is being watched**.
-/

namespace BlockBoard

/-- What a link gives that has nothing to be read: silence, its end, or a failure. -/
inductive Dry where
  | silent
  | ended
  | failed (e : LinkError)
  deriving DecidableEq, Repr

namespace Dry

/-- What a read gives. -/
def reading : Dry → Reading
  | silent => .silent
  | ended => .bytes []
  | failed e => .failed e

/-- What whoever waits for something learns. -/
def failure (timeout : Nat) : Dry → LinkError
  | silent => .timeout timeout
  | ended => .closed
  | failed e => e

/-- What whoever forgets what has arrived learns, after a number of bytes. -/
def drained (total : Nat) : Dry → Except LinkError Nat
  | silent => .ok total
  | ended => .error .closed
  | failed e => .error e

end Dry

/-- The other end of a link. What it does depends on what has been asked of the link so far, the latest
first. -/
structure Peer where
  /-- What can be read at first. -/
  greeting : List UInt8 := []
  /-- Whether the latest of what was asked succeeds, and what can be read because of it. -/
  answer : List LinkAction → Except LinkError Unit × List UInt8
  /-- What a read gives once everything has been read. -/
  ending : List LinkAction → Dry

/-- A link to a peer that gives at most a number of bytes to a read: what can still be read, and what
has been asked of the link, the latest first. -/
structure PacedLink (p : Peer) (most : Option Nat) where
  queue : List UInt8 := p.greeting
  asked : List LinkAction := []

namespace PacedLink

variable {p : Peer} {most : Option Nat}

/-- Asks something of the link. -/
def ask (a : LinkAction) (l : PacedLink p most) : Except LinkError Unit × PacedLink p most :=
  ((p.answer (a :: l.asked)).1,
    { queue := l.queue ++ (p.answer (a :: l.asked)).2, asked := a :: l.asked })

/-- How many bytes a read gives that asks for some. -/
def pace (most : Option Nat) (n : Nat) : Nat := (most.map (min n)).getD n

/-- Reads some bytes. -/
def read (n : Nat) (l : PacedLink p most) : Reading × PacedLink p most :=
  if l.queue.isEmpty then ((p.ending l.asked).reading, l)
  else (.bytes (l.queue.take (pace most n)), { l with queue := l.queue.drop (pace most n) })

instance : Transport (PacedLink p most) where
  read := read
  write bs := ask (.write bs)
  setBaud baud := ask (.baud baud)
  enterLoader := ask .enterLoader
  hardReset := ask .hardReset
  backlog l := l.queue.length

/-! ## Reading -/

theorem pace_pos (hmost : most ≠ some 0) {n : Nat} (hn : 0 < n) : 0 < pace most n := by
  cases most with
  | none => exact hn
  | some m =>
    have hm : m ≠ 0 := fun h => hmost (by rw [h])
    show 0 < min n m
    omega

/-- A read finds nothing, or gives the first byte of the queue and perhaps some more. -/
theorem read_cases (hmost : most ≠ some 0) {n : Nat} (hn : 0 < n) (l : PacedLink p most) :
    (l.queue = [] ∧ Transport.read n l = ((p.ending l.asked).reading, l)) ∨
      ∃ b bs rest, l.queue = (b :: bs) ++ rest ∧
        Transport.read n l = (.bytes (b :: bs), { l with queue := rest }) := by
  have hread : Transport.read n l = read n l := rfl
  rw [hread, read]
  rcases hqueue : l.queue with _ | ⟨b, rest⟩
  · exact .inl ⟨rfl, rfl⟩
  · obtain ⟨k, hk⟩ := Nat.exists_eq_add_one_of_ne_zero (Nat.ne_of_gt (pace_pos hmost hn))
    rw [hk]
    exact .inr ⟨b, rest.take k, rest.drop k, by simp, rfl⟩

theorem drainWithin_eq (hmost : most ≠ some 0) {fuel : Nat} {l : PacedLink p most}
    (hfuel : l.queue.length < fuel) (total : Nat) :
    drainWithin fuel total l =
      ((p.ending l.asked).drained (total + l.queue.length), { l with queue := [] }) := by
  induction fuel generalizing l total with
  | zero => exact absurd hfuel (Nat.not_lt_zero _)
  | succ fuel ih =>
    rw [drainWithin]
    rcases l.read_cases hmost (n := answerChunk) (by decide) with
      ⟨hempty, hread⟩ | ⟨b, bs, rest, hqueue, hread⟩
    · rw [hread, hempty]
      obtain ⟨queue, asked⟩ := l
      cases hempty
      dsimp only
      cases p.ending asked <;> rfl
    · rw [hread]
      have hlength : l.queue.length = (bs.length + 1) + rest.length := by
        rw [hqueue, List.length_append, List.length_cons]
      show drainWithin fuel (total + (bs.length + 1)) _ = _
      rw [ih (by show rest.length < fuel; omega), hlength, Nat.add_assoc]

/-- Forgetting what has arrived forgets all of it. -/
theorem drain_eq (hmost : most ≠ some 0) (l : PacedLink p most) :
    (drain : Operation (PacedLink p most) LinkError Nat).outcome l =
      ((p.ending l.asked).drained l.queue.length, { l with queue := [] }) := by
  have h := drainWithin_eq hmost (Nat.lt_succ_self l.queue.length) 0
  rwa [Nat.zero_add] at h

end PacedLink

/-! ## Scripted links -/

/-- How many writes there are. -/
def writesIn : List LinkAction → Nat
  | [] => 0
  | .write _ :: rest => writesIn rest + 1
  | _ :: rest => writesIn rest

def ScriptEnd.dry : ScriptEnd → Dry
  | silent => .silent
  | zero => .ended
  | closed => .failed .closed

namespace Script

/-- Success or failure, as the script has it. -/
def outcome (fails : Bool) : Except LinkError Unit := if fails then .error .closed else .ok ()

/-- The peer that follows a script. -/
def peer (s : Script) : Peer where
  greeting := s.initial
  answer
    | .write bs :: earlier =>
      if s.failWrite = some (writesIn earlier) then (.error .closed, [])
      else (.ok (), (s.replies[writesIn earlier]?.join).getD (s.rule.answer bs))
    | .baud _ :: _ => (outcome s.failsBaud, [])
    | .enterLoader :: _ => (outcome s.failsLoader, [])
    | .hardReset :: _ => (outcome s.failsReset, [])
    | [] => (.ok (), [])
  ending _ := s.ending.dry

/-- Whether the flag for cancelling is up. -/
def raisedAfter (s : Script) : List LinkAction → Bool
  | [] => false
  | .write _ :: earlier =>
    s.raisedAfter earlier ||
      (s.failWrite != some (writesIn earlier) && s.cancelWrite == some (writesIn earlier))
  | _ :: earlier => s.raisedAfter earlier

/-- The flag has nothing to do with the pace. -/
theorem raisedAfter_chunk (s : Script) (most : Option Nat) :
    ({ s with chunk := most } : Script).raisedAfter = s.raisedAfter := by
  funext asked
  induction asked with
  | nil => rfl
  | cons a earlier ih => cases a <;> simp only [raisedAfter, ih]

/-- The scripted link behind a link to the peer that follows the script. -/
def behind (s : Script) (l : PacedLink s.peer s.chunk) : ScriptedLink where
  script := s
  queue := l.queue
  writes := writesIn l.asked
  latestActions := l.asked
  cancelled := s.raisedAfter l.asked

/-- What the link itself is asked fails or succeeds, and is otherwise only written down. -/
theorem control_behind (s : Script) {fails : Bool} {a : LinkAction} {l : PacedLink s.peer s.chunk}
    (hanswer : s.peer.answer (a :: l.asked) = (outcome fails, []))
    (hwrites : writesIn (a :: l.asked) = writesIn l.asked)
    (hraised : s.raisedAfter (a :: l.asked) = s.raisedAfter l.asked) :
    (s.behind l).control fails a = ((l.ask a).1, s.behind (l.ask a).2) := by
  simp [ScriptedLink.control, ScriptedLink.record, behind, PacedLink.ask, outcome, hanswer, hwrites,
    hraised]

theorem write_behind (s : Script) (bs : List UInt8) (l : PacedLink s.peer s.chunk) :
    (s.behind l).write bs = ((l.ask (.write bs)).1, s.behind (l.ask (.write bs)).2) := by
  by_cases hfail : s.failWrite = some (writesIn l.asked)
  · have hanswer : s.peer.answer (.write bs :: l.asked) = (.error .closed, []) := if_pos hfail
    have hraised : s.raisedAfter (.write bs :: l.asked) = s.raisedAfter l.asked := by
      rw [raisedAfter, hfail]
      simp
    rw [ScriptedLink.write, if_pos (show (s.behind l).script.failWrite = some (s.behind l).writes from hfail)]
    simp [ScriptedLink.record, behind, PacedLink.ask, writesIn, hanswer, hraised]
  · have hanswer : s.peer.answer (.write bs :: l.asked) = (.ok (), (s.behind l).answerTo bs) :=
      if_neg hfail
    have hraised : s.raisedAfter (.write bs :: l.asked) =
        (s.raisedAfter l.asked || s.cancelWrite == some (writesIn l.asked)) := by
      rw [raisedAfter, bne_iff_ne.mpr hfail, Bool.true_and]
    rw [ScriptedLink.write, if_neg (show (s.behind l).script.failWrite ≠ some (s.behind l).writes from hfail)]
    simp [ScriptedLink.record, behind, PacedLink.ask, writesIn, hanswer, hraised]

/-- **A scripted link is a paced link that is being watched.** -/
theorem observes_paced (s : Script) : Observes s.behind where
  read n l := by
    show (s.behind l).read n = ((l.read n).1, s.behind (l.read n).2)
    rw [ScriptedLink.read, PacedLink.read, show (s.behind l).queue = l.queue from rfl]
    split
    · show (_, s.behind l) = (s.ending.dry.reading, s.behind l)
      rw [show (s.behind l).script.ending = s.ending from rfl]
      cases s.ending <;> rfl
    · rfl
  write bs l := s.write_behind bs l
  setBaud _ _ := s.control_behind rfl rfl rfl
  enterLoader _ := s.control_behind rfl rfl rfl
  hardReset _ := s.control_behind rfl rfl rfl
  backlog _ := rfl

end Script

end BlockBoard

import Mathlib.Control.Monad.Basic
import BlockBoard.Proofs.Link.Operation
/-!
# What is asked of a link

A link that writes down everything that is asked of it, with the answers. What a program does with a
link can then be said about the list of its calls, whatever the link is.

- `LinkCall`: a call with its answer.
- `Recorded`: a link with the calls so far.
- `Observes`: one link is another one that is being watched; `observes_recorded` says that a recorded
  link is.
- `Recorded.Adds`: **all calls that an operation makes, whatever its outcome, are of some kind**.
-/

namespace BlockBoard

/-- Something asked of a link, with the answer. -/
inductive LinkCall where
  | read (n : Nat) (answer : Reading)
  | write (bs : List UInt8) (answer : Except LinkError Unit)
  | setBaud (baud : UInt32) (answer : Except LinkError Unit)
  | enterLoader (answer : Except LinkError Unit)
  | hardReset (answer : Except LinkError Unit)
  | openLink (settings : DeviceSettings) (answer : Except LinkError String)
  deriving DecidableEq

namespace LinkCall

/-- Whether a call only reads. -/
def isRead : LinkCall → Bool
  | read _ _ => true
  | _ => false

/-- Whether a call is neither a read nor a write. -/
def isControl : LinkCall → Bool
  | read _ _ | write _ _ => false
  | _ => true

/-- The bytes that a call writes, if the link takes them. -/
def written : LinkCall → List UInt8
  | write bs (.ok ()) => bs
  | _ => []

/-- The bytes that a read gives. -/
def heard : LinkCall → List UInt8
  | read _ (.bytes bs) => bs
  | _ => []

/-- The speed that a call has set. -/
def baud? : LinkCall → Option UInt32
  | setBaud n (.ok ()) => some n
  | _ => none

end LinkCall

/-- A link with all calls so far, in order. -/
structure Recorded (σ : Type) where
  link : σ
  calls : List LinkCall := []

namespace Recorded

variable {σ : Type}

/-- Something asked of the link, written down with its answer. -/
def call {α : Type} (ask : σ → α × σ) (describe : α → LinkCall) (r : Recorded σ) : α × Recorded σ :=
  ((ask r.link).1, ⟨(ask r.link).2, r.calls ++ [describe (ask r.link).1]⟩)

instance [Transport σ] : Transport (Recorded σ) where
  read n := call (Transport.read n) (.read n)
  write bs := call (Transport.write bs) (.write bs)
  setBaud baud := call (Transport.setBaud baud) (.setBaud baud)
  enterLoader := call Transport.enterLoader .enterLoader
  hardReset := call Transport.hardReset .hardReset
  backlog r := Transport.backlog r.link

instance [Connector σ] : Connector (Recorded σ) where
  openLink d := call (Connector.openLink d) (.openLink d)

/-- The record has grown, by calls of some kind. -/
def Adds (P : LinkCall → Prop) (r r' : Recorded σ) : Prop :=
  ∃ new, r'.calls = r.calls ++ new ∧ ∀ c ∈ new, P c

variable {P : LinkCall → Prop}

theorem Adds.refl (r : Recorded σ) : Adds P r r := ⟨[], by simp, by simp⟩

theorem Adds.trans {a b c : Recorded σ} (h : Adds P a b) (h' : Adds P b c) : Adds P a c := by
  obtain ⟨new, hnew, hP⟩ := h
  obtain ⟨new', hnew', hP'⟩ := h'
  refine ⟨new ++ new', by rw [hnew', hnew, List.append_assoc], fun x hx => ?_⟩
  rcases List.mem_append.mp hx with hx | hx
  · exact hP x hx
  · exact hP' x hx

theorem adds_call {α : Type} {ask : σ → α × σ} {describe : α → LinkCall}
    (h : ∀ a, P (describe a)) (r : Recorded σ) : Adds P r (call ask describe r).2 :=
  ⟨[describe (ask r.link).1], rfl, by simpa using h _⟩

theorem steady_adds [Transport σ] (h : ∀ c : LinkCall, c.isRead = true → P c) :
    Transport.Steady (Adds P : Recorded σ → Recorded σ → Prop) where
  refl := Adds.refl
  trans _ _ _ := Adds.trans
  read n r := adds_call (fun answer => h (.read n answer) rfl) r

end Recorded

/-! ## Watching a link -/

/-- One link is another one that is being watched: it answers the same, and behind it the other one
changes as it would by itself. -/
structure Observes {τ σ : Type} [Transport τ] [Transport σ] (behind : τ → σ) : Prop where
  read : ∀ n t, Transport.read n (behind t) = ((Transport.read n t).1, behind (Transport.read n t).2)
  write : ∀ bs t,
    Transport.write bs (behind t) = ((Transport.write bs t).1, behind (Transport.write bs t).2)
  setBaud : ∀ baud t,
    Transport.setBaud baud (behind t) = ((Transport.setBaud baud t).1, behind (Transport.setBaud baud t).2)
  enterLoader : ∀ t : τ,
    Transport.enterLoader (behind t) = ((Transport.enterLoader t).1, behind (Transport.enterLoader t).2)
  hardReset : ∀ t : τ,
    Transport.hardReset (behind t) = ((Transport.hardReset t).1, behind (Transport.hardReset t).2)
  backlog : ∀ t : τ, Transport.backlog (behind t) = Transport.backlog t

/-- A recorded link is a link that is being watched. -/
theorem observes_recorded {σ : Type} [Transport σ] : Observes (Recorded.link : Recorded σ → σ) where
  read _ _ := rfl
  write _ _ := rfl
  setBaud _ _ := rfl
  enterLoader _ := rfl
  hardReset _ := rfl
  backlog _ := rfl

end BlockBoard

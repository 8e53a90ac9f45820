import BlockBoard.Proofs.Loader.Interrupting
import BlockBoard.Proofs.Loader.Waiting
/-!
# What a flash costs, and what it publishes

A plan says how often a flash may write to the link, and a run of it that goes through a block publishes
the bytes acknowledged by then.

- `Recorded.WritesAtMost`: the record has grown by a bounded number of writes.
- `Flash.takeAll_writesAtMost`: **a run writes at most as often as its steps may**.
- `Flash.Tracks`: steps that count the blocks, from some number of them on.
- `Flash.takeAll_tracks`: **what is published is what has been acknowledged**, wherever a run is.
- `flash_terminates`: a flash ends, after a bounded number of commands, and its progress is true.
-/

namespace BlockBoard

/-! ## Writing -/

/-- Whether a call is a write, taken by the link or not. -/
def LinkCall.isWrite : LinkCall → Bool
  | .write _ _ => true
  | _ => false

theorem LinkCall.isWrite_of_isRead {x : LinkCall} (h : x.isRead = true) : x.isWrite = false := by
  cases x with
  | read n answer => rfl
  | _ => cases h

namespace Recorded

variable {σ : Type} {k l : Nat} {a b c : Recorded σ}

/-- The record has grown, by at most some number of writes. -/
def WritesAtMost (k : Nat) (a b : Recorded σ) : Prop :=
  ∃ new, b.calls = a.calls ++ new ∧ new.countP LinkCall.isWrite ≤ k

theorem WritesAtMost.mono (h : WritesAtMost k a b) (hle : k ≤ l) : WritesAtMost l a b := by
  obtain ⟨new, hnew, hcount⟩ := h
  exact ⟨new, hnew, Nat.le_trans hcount hle⟩

theorem WritesAtMost.trans (h : WritesAtMost k a b) (h' : WritesAtMost l b c) :
    WritesAtMost (k + l) a c := by
  obtain ⟨new, hnew, hcount⟩ := h
  obtain ⟨new', hnew', hcount'⟩ := h'
  refine ⟨new ++ new', by rw [hnew', hnew, List.append_assoc], ?_⟩
  rw [List.countP_append]
  exact Nat.add_le_add hcount hcount'

/-- Calls that are no writes. -/
theorem Adds.writesAtMost (h : Adds (fun x => x.isWrite = false) a b) : WritesAtMost 0 a b := by
  obtain ⟨new, hnew, hkind⟩ := h
  refine ⟨new, hnew, Nat.le_of_eq (List.countP_eq_zero.mpr fun x hx => ?_)⟩
  rw [hkind x hx]
  exact Bool.false_ne_true

theorem steady_not_isWrite [Transport σ] : Transport.Steady
    (Adds (fun x => x.isWrite = false) : Recorded σ → Recorded σ → Prop) :=
  steady_adds fun _ => LinkCall.isWrite_of_isRead

end Recorded

namespace Flash

section Writes

open Recorded

variable {σ : Type} [Transport σ]

/-- How often a step may write. -/
def Action.writes : Action → Nat
  | .sync attempts => attempts
  | .command _ => 1
  | _ => 0

/-- How often steps may write in all. -/
def writesOf : List Step → Nat
  | [] => 0
  | s :: rest => s.action.writes + writesOf rest

theorem writesOf_append (a b : List Step) : writesOf (a ++ b) = writesOf a + writesOf b := by
  induction a with
  | nil => exact (Nat.zero_add _).symm
  | cons s rest ih => rw [List.cons_append, writesOf, writesOf, ih, Nat.add_assoc]

theorem Command.perform_writesAtMost (c : Command) (r : Run (Recorded σ)) :
    WritesAtMost 1 r.link (c.perform.outcome r).2.link := by
  rcases h : c.perform.outcome r with ⟨result, r'⟩
  rcases c.perform_cases h with ⟨e, -, -, hcalls⟩ | ⟨reads, taken, hcalls, hreads, -⟩
  · exact ⟨_, hcalls, Nat.le_refl 1⟩
  · refine ⟨_, hcalls, ?_⟩
    have hno : reads.countP LinkCall.isWrite = 0 := by
      refine List.countP_eq_zero.mpr fun x hx => ?_
      rw [LinkCall.isWrite_of_isRead (hreads x hx)]
      exact Bool.false_ne_true
    exact Nat.le_of_eq (by rw [List.countP_cons_of_pos rfl, hno])

theorem forget_writesAtMost (r : Run (Recorded σ)) :
    WritesAtMost 0 r.link (forget.outcome r).2.link :=
  (relates_forget steady_not_isWrite r).writesAtMost

/-- Every attempt to wake the loader is one write. -/
theorem syncWithin_writesAtMost (attempts left : Nat) (r : Run (Recorded σ)) :
    WritesAtMost left r.link (syncWithin attempts left r).2.link := by
  induction left generalizing r with
  | zero => exact (Adds.refl r.link).writesAtMost
  | succ left ih =>
    have hone := syncCommand.perform_writesAtMost r
    rw [syncWithin]
    rcases h : syncCommand.perform.outcome r with ⟨result, r₁⟩
    rw [h] at hone
    split
    · rename_i heq
      cases heq
      exact (hone.trans (forget_writesAtMost r₁)).mono (by omega)
    · rename_i heq
      cases heq
      exact (hone.trans (ih r₁)).mono (by omega)
    · rename_i heq
      cases heq
      exact hone.mono (by omega)

variable (j : Job) (cancelled : Recorded σ → Bool)

theorem Action.perform_writesAtMost (a : Action) (r : Run (Recorded σ)) :
    WritesAtMost a.writes r.link ((a.perform j cancelled).outcome r).2.link := by
  -- what has no command to send may only ask for what is no write
  have hquiet : a.commands = [] →
      WritesAtMost 0 r.link ((a.perform j cancelled).outcome r).2.link := by
    intro hnone
    refine (a.relates_perform steady_not_isWrite (Action.admits_adds fun x hx => ?_) j cancelled
      r).writesAtMost
    cases x with
    | write bs answer =>
      rw [MayCall, hnone] at hx
      cases hx
    | _ => rfl
  cases a with
  | sync attempts => exact syncWithin_writesAtMost attempts attempts r
  | command c => exact c.perform_writesAtMost r
  | _ => exact hquiet rfl

/-- **A run writes at most as often as its steps may.** -/
theorem takeAll_writesAtMost (steps : List Step) (r : Run (Recorded σ)) :
    WritesAtMost (writesOf steps) r.link ((takeAll j cancelled steps).outcome r).2.link := by
  induction steps generalizing r with
  | nil => exact (Adds.refl r.link).writesAtMost
  | cons s rest ih =>
    have hone := s.action.perform_writesAtMost j cancelled r
    rw [← s.link_take] at hone
    rw [takeAll_cons, Operation.outcome_bind, writesOf]
    rcases h : (s.take j cancelled).outcome r with ⟨_ | _, r₁⟩
    all_goals rw [h] at hone
    · exact hone.mono (Nat.le_add_right _ _)
    · exact hone.trans (ih r₁)

/-- A flash wakes the loader, and apart from that sends six commands and the blocks. -/
theorem Job.writes_plan (j : Job) :
    writesOf j.plan = j.settings.syncAttempts.toNat + j.blockCount + 6 := by
  have hblocks : ∀ bs : List (List UInt8 × Nat), writesOf (bs.flatMap j.blockSteps) = bs.length := by
    intro bs
    induction bs with
    | nil => rfl
    | cons b rest ih =>
      rw [List.flatMap_cons, writesOf_append, ih, List.length_cons, Nat.add_comm]
      rfl
  have hopening : writesOf (j.opening.map plainStep) = j.settings.syncAttempts.toNat + 4 := by
    simp [writesOf, opening, changeBaud, command, plainStep, Action.writes]
  have hclosing : writesOf j.closing = 2 := rfl
  rw [plan, writesOf_append, writesOf_append, hblocks, hopening, hclosing, List.length_zipIdx,
    j.length_blocks]
  omega

end Writes

/-! ## Publishing -/

section Published

variable {σ : Type}

/-- Nothing has been published. -/
def Quiet (r r' : Run σ) : Prop := r'.progress = r.progress

theorem quiet_onLink {α : Type} (x : Operation σ LinkError α) : (onLink x).Relates Quiet :=
  fun r => by rw [outcome_onLink]; rfl

theorem quiet_bind {α β : Type} {x : Operation (Run σ) SessionError α}
    {f : α → Operation (Run σ) SessionError β} (hx : x.Relates Quiet) (hf : ∀ a, (f a).Relates Quiet) :
    (x >>= f).Relates Quiet :=
  Operation.relates_bind (R := Quiet) (fun _ _ _ h h' => Eq.trans h' h) hx hf

variable [Transport σ]

theorem quiet_awaitWithin (op : Loader.Op) (timeout fuel : Nat) (r : Run σ) :
    Quiet r (awaitWithin op timeout fuel r).2 := by
  induction fuel generalizing r with
  | zero =>
    rw [awaitWithin]
    split <;> rfl
  | succ fuel ih =>
    rw [awaitWithin]
    split
    · rfl
    · rcases h : Transport.read loaderChunk r.link with ⟨answer, s⟩
      simp only [h]
      cases answer with
      | silent => rfl
      | failed e => rfl
      | bytes bs =>
        cases bs with
        | nil => rfl
        | cons b bs =>
          exact ih { r with
            link := s
            frames := (r.decoder.feed (b :: bs)).1
            decoder := (r.decoder.feed (b :: bs)).2 }

theorem Command.quiet_perform (c : Command) :
    (c.perform : Operation (Run σ) SessionError Unit).Relates Quiet :=
  quiet_bind (quiet_onLink _) fun _ r => quiet_awaitWithin c.op c.timeout _ r

theorem quiet_forget : (forget : Operation (Run σ) SessionError Unit).Relates Quiet :=
  quiet_bind (quiet_onLink drain) fun _ _ => rfl

theorem quiet_syncWithin (attempts left : Nat) (r : Run σ) :
    Quiet r (syncWithin attempts left r).2 := by
  induction left generalizing r with
  | zero => rfl
  | succ left ih =>
    have hone := syncCommand.quiet_perform r
    rw [syncWithin]
    rcases h : syncCommand.perform.outcome r with ⟨result, r₁⟩
    rw [h] at hone
    split
    · rename_i heq
      cases heq
      exact (quiet_forget r₁).trans hone
    · rename_i heq
      cases heq
      exact (ih r₁).trans hone
    · rename_i heq
      cases heq
      exact hone

/-- Whether a step publishes something. -/
def Action.isPublish : Action → Bool
  | .publish _ => true
  | _ => false

/-- No other step publishes anything. -/
theorem Action.quiet_perform {a : Action} (ha : a.isPublish = false) (j : Job) (cancelled : σ → Bool) :
    (a.perform j cancelled).Relates Quiet := by
  intro r
  cases a with
  | verify actual =>
    rw [outcome_verify]
    repeat' split
    all_goals rfl
  | checkCancel => rfl
  | checkCancelAt baud =>
    have hback : (onLink (Transport.setBaud baud) >>= fun _ => throw .cancelled :
        Operation (Run σ) SessionError Unit).Relates Quiet :=
      quiet_bind (quiet_onLink _) fun _ _ => rfl
    rw [outcome_checkCancelAt]
    split
    · exact hback r
    · rfl
  | enterLoader => exact quiet_onLink _ r
  | sync attempts => exact quiet_syncWithin attempts attempts r
  | command c => exact c.quiet_perform r
  | setBaud baud => exact quiet_onLink _ r
  | settle => exact quiet_forget r
  | noteCancel =>
    rw [outcome_noteCancel]
    dsimp only
    split <;> rfl
  | publish written => cases ha
  | hardReset => exact quiet_onLink _ r

theorem Step.quiet_take {s : Step} (hs : s.action.isPublish = false) (j : Job)
    (cancelled : σ → Bool) : (s.take j cancelled).Relates Quiet := by
  intro r
  have h := Action.quiet_perform hs j cancelled r
  rw [outcome_take]
  split
  · rename_i heq _
    rw [heq] at h
    exact h
  · exact h

end Published

/-! ## Blocks that were acknowledged -/

section Told

variable {σ : Type} {cs ds : List Command} {a b c : Run (Recorded σ)}

/-- The command of a turn in which a block is written and acknowledged. -/
def Turn.block? : Turn → Option Command
  | .told c => if c.op = .flashData then some c else none
  | _ => none

/-- The command of a step that writes a block. -/
def Action.block? : Action → Option Command
  | .command c => if c.op = .flashData then some c else none
  | _ => none

/-- Between two moments of a run the loader has acknowledged some commands that write blocks. -/
def BlocksTold (cs : List Command) (a b : Run (Recorded σ)) : Prop :=
  ∃ turns calls, b.link.calls = a.link.calls ++ calls ∧
    Dialogue turns a.receiver calls b.receiver ∧ turns.filterMap Turn.block? = cs

theorem BlocksTold.refl (a : Run (Recorded σ)) : BlocksTold [] a a :=
  ⟨[], [], (List.append_nil _).symm, .nil _, rfl⟩

theorem BlocksTold.trans (h : BlocksTold cs a b) (h' : BlocksTold ds b c) :
    BlocksTold (cs ++ ds) a c := by
  obtain ⟨turns, calls, hcalls, hdialogue, hblocks⟩ := h
  obtain ⟨turns', calls', hcalls', hdialogue', hblocks'⟩ := h'
  refine ⟨turns ++ turns', calls ++ calls', ?_, hdialogue.append hdialogue', ?_⟩
  · rw [hcalls', hcalls, List.append_assoc]
  · rw [List.filterMap_append, hblocks, hblocks']

variable [Transport σ]

/-- Waking the loader writes no block. -/
theorem blocksTold_syncWithin {attempts left : Nat}
    (h : syncWithin attempts left a = (.ok (), b)) : BlocksTold [] a b := by
  obtain ⟨k, -, calls, hcalls, hdialogue⟩ := syncWithin_dialogue h
  refine ⟨_, calls, hcalls, hdialogue, List.filterMap_eq_nil_iff.mpr fun t ht => ?_⟩
  rw [List.mem_append, List.mem_replicate] at ht
  rcases ht with ⟨-, rfl⟩ | ht
  · rfl
  · simp only [List.mem_cons, List.not_mem_nil, or_false] at ht
    rcases ht with rfl | rfl <;> rfl

variable {j : Job} {cancelled : Recorded σ → Bool}

/-- A step that succeeds has written a block if that is what it does. -/
theorem Step.blocksTold {s : Step} (h : (s.take j cancelled).outcome a = (.ok (), b)) :
    BlocksTold s.action.block?.toList a b := by
  have hperform := Step.perform_of_take h
  rcases s with ⟨action, written?⟩
  by_cases hsync : action.isSync = true
  · cases action with
    | sync attempts => exact blocksTold_syncWithin hperform
    | _ => cases hsync
  · obtain ⟨calls, hcalls, hdialogue⟩ := Action.perform_dialogue (by simpa using hsync) hperform
    refine ⟨_, calls, hcalls, hdialogue, ?_⟩
    cases action with
    | command c =>
      show [Turn.told c].filterMap Turn.block? = (Action.command c).block?.toList
      by_cases hop : c.op = .flashData
      · simp [Turn.block?, Action.block?, hop]
      · simp [Turn.block?, Action.block?, hop]
    | _ => rfl

end Told

/-! ## Plans that count the blocks -/

namespace Job

/-- What has been published when some number of blocks have been acknowledged. -/
def published (j : Job) (blocks : Nat) : List FlashProgress :=
  (List.range (blocks + 1)).map fun n => ⟨j.bytesIn n, j.image.length⟩

theorem published_succ (j : Job) (n : Nat) :
    j.published (n + 1) = j.published n ++ [⟨j.bytesIn (n + 1), j.image.length⟩] := by
  rw [published, List.range_succ, List.map_append]
  rfl

theorem getLast?_published (j : Job) (n : Nat) :
    (j.published n).getLast? = some ⟨j.bytesIn n, j.image.length⟩ := by
  rw [published, List.range_succ, List.map_append, List.map_singleton, List.getLast?_concat]

theorem bytesIn_mono (j : Job) {m n : Nat} (h : m ≤ n) : j.bytesIn m ≤ j.bytesIn n := by
  have := Nat.mul_le_mul_right j.blockSize h
  simp only [bytesIn]
  omega

theorem head?_published (j : Job) (n : Nat) :
    (j.published n).head? = some ⟨0, j.image.length⟩ := by
  simp [published, List.range_succ_eq_map, bytesIn]

theorem forward_published (j : Job) (n : Nat) :
    (j.published n).Pairwise fun p q => p.written ≤ q.written :=
  List.pairwise_map.mpr (List.pairwise_lt_range.imp fun h => j.bytesIn_mono (Nat.le_of_lt h))

theorem bounded_published (j : Job) {n : Nat} {p : FlashProgress} (h : p ∈ j.published n) :
    p.written ≤ p.total ∧ p.total = j.image.length := by
  obtain ⟨m, -, rfl⟩ := List.mem_map.mp h
  exact ⟨Nat.min_le_left _ _, rfl⟩

end Job

/-- A step neither writes a block nor counts one, and should the link fail in it, it reports the bytes of
some number of blocks. -/
structure Step.Keeps (j : Job) (n : Nat) (s : Step) : Prop where
  publishes : s.action.isPublish = false
  writes : s.action.block? = none
  reports : ∀ written, s.written? = some written → written = j.bytesIn n

/-- Steps that count the blocks, from some number of them on: the blocks are written in order, each is
counted as soon as it has been written, an interruption reports those that were counted, and in the end
all of the image was. -/
inductive Tracks (j : Job) : Nat → List Step → Prop
  | done {n : Nat} (h : j.bytesIn n = j.image.length) : Tracks j n []
  | other {n : Nat} {s : Step} {rest : List Step} (hs : s.Keeps j n) (h : Tracks j n rest) :
      Tracks j n (s :: rest)
  | block {n : Nat} {c : Command} {rest : List Step} (hc : j.blockCommands[n]? = some c)
      (h : Tracks j (n + 1) rest) :
      Tracks j n (⟨.command c, some (j.bytesIn n)⟩ :: plainStep (.publish (j.bytesIn (n + 1))) :: rest)

namespace Tracks

variable {j : Job} {n : Nat} {s : Step} {rest : List Step}

theorem append_others {steps : List Step} (hsteps : ∀ s ∈ steps, s.Keeps j n) (h : Tracks j n rest) :
    Tracks j n (steps ++ rest) := by
  induction steps with
  | nil => exact h
  | cons s steps ih =>
    exact .other (hsteps s (by simp)) (ih fun s' hs' => hsteps s' (List.mem_cons_of_mem s hs'))

theorem append_blocks {before blocks : List (List UInt8)} (hblocks : j.blocks = before ++ blocks)
    (h : Tracks j j.blocks.length rest) :
    Tracks j before.length ((blocks.zipIdx before.length).flatMap j.blockSteps ++ rest) := by
  induction blocks generalizing before with
  | nil =>
    rw [hblocks, List.append_nil] at h
    exact h
  | cons b blocks ih =>
    have hlater : j.blocks = (before ++ [b]) ++ blocks := by
      rw [hblocks, List.append_assoc, List.singleton_append]
    have hmore := ih hlater
    rw [List.length_append, List.length_singleton] at hmore
    rw [List.zipIdx_cons, List.flatMap_cons, List.append_assoc]
    refine .block ?_ hmore
    simp [Job.blockCommands, hblocks]

/-- Should the link fail in the next step, the bytes that were counted are reported. -/
theorem written_eq (h : Tracks j n (s :: rest)) {written : Nat} (hwritten : s.written? = some written) :
    written = j.bytesIn n := by
  cases h with
  | other hkeeps => exact hkeeps.reports written hwritten
  | block => exact (Option.some.inj hwritten).symm

end Tracks

theorem Job.op_of_mem_blockCommands {j : Job} {c : Command} (h : c ∈ j.blockCommands) :
    c.op = .flashData := by
  obtain ⟨b, -, rfl⟩ := List.mem_map.mp h
  rfl

/-- The blocks hold all of the image. -/
theorem Job.bytesIn_blocks {j : Job} (hsize : 0 < j.blockSize) :
    j.bytesIn j.blocks.length = j.image.length := by
  rw [j.length_blocks]
  exact Nat.min_eq_left (Loader.le_blockCount_mul hsize _)

/-- The plan of a flash counts its blocks. -/
theorem Job.tracks_plan {j : Job} (hsize : 0 < j.blockSize) : Tracks j 0 j.plan := by
  have hall := Job.bytesIn_blocks hsize
  have hopening : ∀ s ∈ j.opening.map plainStep, s.Keeps j 0 := by
    have hkind : (j.opening.map plainStep).all (fun s =>
        !s.action.isPublish && s.action.block?.isNone && s.written?.isNone) = true := rfl
    intro s hs
    have h := List.all_eq_true.mp hkind s hs
    simp only [Bool.and_eq_true, Bool.not_eq_true', Option.isNone_iff_eq_none] at h
    obtain ⟨⟨hpublish, hblock⟩, hnone⟩ := h
    exact ⟨hpublish, hblock, by simp [hnone]⟩
  have hclosing : ∀ s ∈ j.closing, s.Keeps j j.blocks.length := by
    have hkind : j.closing.all (fun s => !s.action.isPublish && s.action.block?.isNone) = true := rfl
    intro s hs
    have h := List.all_eq_true.mp hkind s hs
    simp only [Bool.and_eq_true, Bool.not_eq_true', Option.isNone_iff_eq_none] at h
    refine ⟨h.1, h.2, fun written hwritten => ?_⟩
    rw [closing, List.mem_cons] at hs
    rcases hs with rfl | hs
    · cases hwritten
    · obtain ⟨a, -, rfl⟩ := List.mem_map.mp hs
      exact (Option.some.inj hwritten).symm.trans hall.symm
  rw [plan, List.append_assoc]
  refine .append_others hopening (.append_blocks (List.nil_append _).symm ?_)
  rw [← List.append_nil j.closing]
  exact .append_others hclosing (.done hall)

section Runs

variable {σ : Type} [Transport σ] {j : Job} {cancelled : Recorded σ → Bool}

/-- **What is published is what has been acknowledged**, wherever a run is between two steps, a block
and its counting taken as one. -/
theorem takeAll_tracks {n : Nat} {before after : List Step} (h : Tracks j n (before ++ after))
    (hafter : ∀ s ∈ after.head?, s.action.isPublish = false) {r r' : Run (Recorded σ)}
    (hpublished : r.progress = j.published n)
    (hrun : (takeAll j cancelled before).outcome r = (.ok (), r')) :
    ∃ k, BlocksTold ((j.blockCommands.drop n).take k) r r' ∧ r'.progress = j.published (n + k) ∧
      Tracks j (n + k) after := by
  -- by induction on the plan: each of its parts goes on from a place where the invariant holds
  generalize hsteps : before ++ after = steps at h
  induction h generalizing before r with
  | done hall =>
    obtain ⟨rfl, rfl⟩ := List.append_eq_nil_iff.mp hsteps
    cases hrun
    exact ⟨0, .refl _, hpublished, .done hall⟩
  | @other n s rest hs hrest ih =>
    rcases before with _ | ⟨s', before⟩
    · cases hrun
      cases hsteps
      exact ⟨0, .refl _, hpublished, .other hs hrest⟩
    · rw [List.cons_append, List.cons.injEq] at hsteps
      obtain ⟨rfl, hsteps⟩ := hsteps
      obtain ⟨_, r₁, htake, hmore⟩ := Operation.eq_ok_of_bind hrun
      have htold := Step.blocksTold htake
      have hquiet := Step.quiet_take hs.publishes j cancelled r
      rw [htake] at hquiet
      obtain ⟨k, hafterwards, hprogress, htracks⟩ := ih (hquiet.trans hpublished) hmore hsteps
      refine ⟨k, ?_, hprogress, htracks⟩
      rw [hs.writes] at htold
      simpa using htold.trans hafterwards
  | @block n c rest hc hrest ih =>
    rcases before with _ | ⟨s', before⟩
    · cases hrun
      cases hsteps
      exact ⟨0, .refl _, hpublished, .block hc hrest⟩
    · rw [List.cons_append, List.cons.injEq] at hsteps
      obtain ⟨rfl, hsteps⟩ := hsteps
      rcases before with _ | ⟨s', before⟩
      · -- the block would have been written, but not counted yet
        cases hsteps
        cases hafter _ rfl
      · rw [List.cons_append, List.cons.injEq] at hsteps
        obtain ⟨rfl, hsteps⟩ := hsteps
        obtain ⟨_, r₁, htake, hmore⟩ := Operation.eq_ok_of_bind hrun
        obtain ⟨_, r₂, hcount, hmore⟩ := Operation.eq_ok_of_bind hmore
        have htold := (Step.blocksTold htake).trans (Step.blocksTold hcount)
        have hquiet := Step.quiet_take (s := ⟨.command c, some (j.bytesIn n)⟩) rfl j cancelled r
        rw [htake] at hquiet
        have hprogress : r₂.progress = j.published (n + 1) := by
          cases Step.perform_of_take hcount
          rw [j.published_succ, ← hpublished, ← hquiet]
        obtain ⟨k, hafterwards, hprogress, htracks⟩ := ih hprogress hmore hsteps
        refine ⟨1 + k, ?_, ?_, ?_⟩
        · have hop := Job.op_of_mem_blockCommands (List.mem_of_getElem? hc)
          rw [List.drop_eq_getElem?_toList_append, hc, Nat.add_comm, Option.toList_some,
            List.singleton_append, List.take_succ_cons]
          simpa [Action.block?, plainStep, hop] using htold.trans hafterwards
        · rw [hprogress, Nat.add_assoc]
        · rwa [← Nat.add_assoc]

/-- Counting a block does not fail. -/
theorem Step.isPublish_of_error {s : Step} {r r' : Run (Recorded σ)} {e : SessionError}
    (h : (s.take j cancelled).outcome r = (.error e, r')) : s.action.isPublish = false := by
  rcases s with ⟨action, _ | written⟩
  · cases action with
    | publish written => cases h
    | _ => rfl
  · cases action with
    | publish written => cases h
    | _ => rfl

/-- What a run of a whole plan has published at its end, by its outcome. -/
theorem takeAll_published {n : Nat} {steps : List Step} (h : Tracks j n steps)
    {r r' : Run (Recorded σ)} (hpublished : r.progress = j.published n)
    {result : Except SessionError Unit} (hrun : (takeAll j cancelled steps).outcome r = (result, r')) :
    ∃ k, r'.progress = j.published k ∧ (result = .ok () → j.bytesIn k = j.image.length) ∧
      ∀ written e, result = .error (.interrupted written e) → written = j.bytesIn k := by
  cases result with
  | ok _ =>
    rw [← List.append_nil steps] at h
    obtain ⟨k, -, hprogress, htracks⟩ := takeAll_tracks h (by simp) hpublished hrun
    cases htracks with
    | done hall => exact ⟨n + k, hprogress, fun _ => hall, by simp⟩
  | error e =>
    obtain ⟨before, s, after, r₁, rfl, hbefore, htake⟩ := takeAll_error hrun
    have hpublish := Step.isPublish_of_error htake
    obtain ⟨k, -, hprogress, htracks⟩ := takeAll_tracks h (by simpa using hpublish) hpublished hbefore
    have hquiet := Step.quiet_take hpublish j cancelled r₁
    rw [htake] at hquiet
    refine ⟨n + k, hquiet.trans hprogress, by simp, fun written l he => ?_⟩
    cases he
    exact htracks.written_eq (Step.take_interrupted_iff.mp (congrArg Prod.fst htake)).1

end Runs

end Flash

/-! ## A whole flash -/

open Flash in
/-- What a flash publishes is true: it never goes back, nor beyond its total, which is the length of the
image; wherever the run is between two steps, a block and its counting taken as one, it is the number of
bytes in the first blocks, which are those that the loader has acknowledged so far; and in the end it is
the number that is reported. -/
structure TrueProgress {σ : Type} [Transport σ] (j : Job) (cancelled : Recorded σ → Bool)
    (link : Recorded σ) : Prop where
  start : (flash j cancelled link).progress.head? = some ⟨0, j.image.length⟩
  forward : (flash j cancelled link).progress.Pairwise fun p q => p.written ≤ q.written
  bounded : ∀ p ∈ (flash j cancelled link).progress, p.written ≤ p.total ∧ p.total = j.image.length
  acknowledged : ∀ before s after r, j.plan = before ++ s :: after → s.action.isPublish = false →
    (takeAll j cancelled before).outcome (.start j link) = (.ok (), r) →
    ∃ k, BlocksTold (j.blockCommands.take k) (.start j link) r ∧
      r.progress.getLast? = some ⟨(j.image.take (k * j.blockSize)).length, j.image.length⟩ ∧
      ((s.take j cancelled).outcome r).2.progress = r.progress
  succeeds : ∀ report, (flash j cancelled link).result = .ok report →
    (flash j cancelled link).progress.getLast? = some ⟨report.written, j.image.length⟩
  interrupted : ∀ written e, (flash j cancelled link).result = .error (.interrupted written e) →
    (flash j cancelled link).progress.getLast? = some ⟨written, j.image.length⟩

section Whole

open Flash

variable {σ : Type} [Transport σ]

omit [Transport σ] in
theorem Flash.Run.progress_start (j : Job) (link : σ) : (Run.start j link).progress = j.published 0 := by
  simp [Run.start, Job.published, Job.bytesIn]

theorem trueProgress_flash {j : Job} (hsize : 0 < j.blockSize) (cancelled : Recorded σ → Bool)
    (link : Recorded σ) : TrueProgress j cancelled link := by
  have htracks := Job.tracks_plan hsize
  have hstart := Run.progress_start j link
  rcases hrun : (takeAll j cancelled j.plan).outcome (.start j link) with ⟨result, r'⟩
  obtain ⟨k, hprogress, hok, hinterrupted⟩ := takeAll_published htracks hstart hrun
  have hflash := flash_eq j cancelled link
  rw [hrun] at hflash
  have hpublished : (flash j cancelled link).progress = j.published k := by rw [hflash, ← hprogress]
  have hresult : (flash j cancelled link).result = result.map fun () => j.report := by rw [hflash]
  refine ⟨?_, ?_, ?_, ?_, ?_, ?_⟩
  · rw [hpublished, j.head?_published]
  · rw [hpublished]
    exact j.forward_published k
  · rw [hpublished]
    exact fun p => j.bounded_published
  · intro before s after r hplan hpublish hbefore
    rw [hplan] at htracks
    obtain ⟨k, htold, hprogress, -⟩ := takeAll_tracks htracks (by simpa using hpublish) hstart hbefore
    rw [List.drop_zero] at htold
    refine ⟨k, htold, ?_, Step.quiet_take hpublish j cancelled r⟩
    rw [hprogress, j.getLast?_published, Nat.zero_add, List.length_take, Nat.min_comm]
    rfl
  · intro report h
    obtain ⟨r₁, hrun', -, rfl⟩ := outcome_of_ok h
    cases hrun.symm.trans hrun'
    rw [hpublished, j.getLast?_published, hok rfl]
    rfl
  · intro written e h
    obtain ⟨r₁, hrun', -⟩ := outcome_of_error h
    cases hrun.symm.trans hrun'
    rw [hpublished, j.getLast?_published, hinterrupted written e rfl]

/-- **A flash ends, after a bounded number of commands, and its progress is true**, over every link that
gives out finitely many bytes by itself, whatever it answers and whenever the flash is cancelled.

The rules of a flash, which do not bound its reads, lead to one end. A write is counted even if the link
does not take it. The record of the calls changes nothing: over the link by itself, a flash goes the same
way. -/
theorem flash_terminates (hfinite : Transport.Finite σ) {s : Settings} (hs : s.check = .ok ()) {j : Job}
    (hsettings : j.settings = s.flash) (cancelled : Recorded σ → Bool) (link : Recorded σ) :
    (∀ f, Flashes j cancelled link f ↔ f = flash j cancelled link) ∧
    (∃ calls, (flash j cancelled link).link.calls = link.calls ++ calls ∧
      calls.countP LinkCall.isWrite ≤ j.settings.syncAttempts.toNat +
        (j.image.length + j.blockSize - 1) / j.blockSize + 6) ∧
    TrueProgress j cancelled link ∧
    ∀ stop : σ → Bool, flash j stop link.link =
      (flash j (fun l => stop l.link) link).over Recorded.link := by
  obtain ⟨hsize, -⟩ := Settings.blockSize_of_check hs
  rw [← hsettings] at hsize
  refine ⟨fun f => flashes_iff hfinite.recorded, ?_, trueProgress_flash hsize cancelled link,
    fun stop => flash_recorded j stop link⟩
  have hwrites := takeAll_writesAtMost j cancelled j.plan (.start j link)
  rw [j.writes_plan] at hwrites
  exact hwrites

end Whole

/-- A read that gives bytes takes them off what a scripted link holds. -/
theorem ScriptedLink.length_queue_lt {n : Nat} {b : UInt8} {bs : List UInt8} {l l' : ScriptedLink}
    (h : l.read n = (.bytes (b :: bs), l')) : l'.queue.length < l.queue.length := by
  rw [read] at h
  split at h
  · have hanswer := (Prod.mk.inj h).1
    split at hanswer <;> cases hanswer
  · obtain ⟨htaken, rfl⟩ := Prod.mk.inj h
    have hlength := congrArg List.length (Reading.bytes.inj htaken)
    rw [List.length_take, List.length_cons] at hlength
    show (l.queue.drop _).length < _
    rw [List.length_drop]
    omega

/-- A scripted link gives out no more than it holds. -/
theorem ScriptedLink.finite : Transport.Finite ScriptedLink := by
  intro k l l' h
  show k ≤ l.queue.length
  induction h with
  | nil l => exact Nat.zero_le _
  | cons h _ ih => exact Nat.lt_of_le_of_lt ih (length_queue_lt h)

theorem flash_terminates_twoBlocks :
    (∀ f, Flashes twoBlocks (fun _ => false) answeringLink f ↔
      f = flash twoBlocks (fun _ => false) answeringLink) ∧
    (∃ calls, (flash twoBlocks (fun _ => false) answeringLink).link.calls = calls ∧
      calls.countP LinkCall.isWrite ≤ 15) ∧
    TrueProgress twoBlocks (fun _ => false) answeringLink ∧
    (flash twoBlocks (fun _ => false) answeringLink).progress = [⟨0, 5⟩, ⟨4, 5⟩, ⟨5, 5⟩] := by
  have hs : Settings.check { flash := { blockSize := 4 } } = .ok () := by decide +kernel
  obtain ⟨hends, ⟨calls, hcalls, hwrites⟩, htrue, -⟩ :=
    flash_terminates ScriptedLink.finite hs (j := twoBlocks) rfl (fun _ => false) answeringLink
  refine ⟨hends, ⟨calls, hcalls, hwrites⟩, htrue, ?_⟩
  decide +kernel

end BlockBoard

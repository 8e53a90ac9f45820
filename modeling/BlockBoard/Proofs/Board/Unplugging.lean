import BlockBoard.Proofs.Board.Flashing
/-!
# A board that loses its cable

A board whose cable gives way once it has accepted a number of blocks. The block at which this happens
is written, but nobody hears of it: what has been acknowledged is one block less than what the flash of
the board holds.

- `Board.perform_lost`: a command in which the cable gives way.
- `Board.goes_until_lost`: the last block that is written, after those that are acknowledged.
- `Board.flash_lost`: **a flash over a board that loses its cable is interrupted**, with what has been
  acknowledged.
-/

namespace BlockBoard

namespace Board

open Flash

/-- A command is written to a board whose cable gives way, and no answer is left to be read. -/
theorem perform_lost {c : Command} {b b' : Board} (h : b.connected = true)
    (hreceive : b.receive c.frame = b') (hsilent : b'.outbox = []) (hlost : b'.connected = false)
    {r : Run Board} (hr : Idle b r) :
    ∃ r', (c.perform : Operation (Run Board) SessionError Unit).outcome r =
        (.error (.link .closed), r') ∧ r'.link = b' := by
  have hsend : (onLink (send (Slip.encode c.packet))).outcome r = (.ok (), { r with link := b' }) := by
    rw [outcome_onLink, hr.link, show Slip.encode c.packet = c.frame from rfl, outcome_send h, hreceive]
    rfl
  have hread : Transport.read loaderChunk b' = (.failed .closed, b') := by
    rw [read_eq, if_pos (by simp [hsilent]), if_neg (by simp [hlost])]
  refine ⟨{ r with link := b', frames := [] }, (Operation.bind_of_ok hsend).trans ?_, rfl⟩
  show awaitWithin c.op c.timeout (Transport.backlog b' + 1) { r with link := b' } = _
  rw [awaitWithin, show ({ r with link := b' } : Run Board).frames = [] from hr.frames]
  simp only [findAnswer?, hread]

/-- A board whose cable gave way with the last of some blocks. -/
def cutOff (j : Job) (b : Board) (blocks : List (List UInt8)) : Board := (b.filled j blocks).unplug

/-- The block with which the cable gives way is written all the same. -/
theorem receive_lostBlock {j : Job} (hj : j.Feasible) {b : Board} (hb : b.connected = true)
    {before : List (List UInt8)} {block : List UInt8}
    (hsizes : ∀ x ∈ before ++ [block], x.length = j.blockSize) (hcount : before.length < UInt32.size)
    (hcut : ∃ n ∈ b.options.unplugAfter, n ≤ before.length + 1) :
    (b.filled j before).receive (j.blockCommand before.length block).frame =
      b.cutOff j (before ++ [block]) := by
  have hflash : before.flatten.length = before.length * j.blockSize := by
    rw [List.length_flatten, List.map_congr_left fun x hx => hsizes x (List.mem_append_left _ hx),
      List.map_const', List.sum_replicate_nat]
  have hreceive := receive_block (listening_filled j hb before) hj.admitted (hsizes block (by simp)) rfl
    hflash hcount
  obtain ⟨n, hn, hle⟩ := hcut
  have hunplug : (b.filled j before).options.unplugAfter = some n := hn
  rw [hunplug, Option.any_some, if_pos (show decide (n ≤ (b.filled j before).blocks + 1) = true from
    decide_eq_true hle)] at hreceive
  have hwritten : (b.filled j before).written block = b.filled j (before ++ [block]) := by
    simp [written, filled]
  rwa [hwritten] at hreceive

/-- The command of a block that is written but not acknowledged is the last of a flash. -/
theorem takeAll_lost {j : Job} (hj : j.Feasible) {b : Board} (hb : b.Answering)
    {before after : List (List UInt8)} {block : List UInt8}
    (hblocks : j.blocks = before ++ block :: after) (hcable : b.CabledFor before.length)
    (hcut : ∃ n ∈ b.options.unplugAfter, n ≤ before.length + 1) :
    ∃ r', (takeAll j (fun _ => false) j.plan).outcome (.start j b) =
        (.error (.interrupted (j.bytesIn before.length) .closed), r') ∧
      r'.link = b.cutOff j (before ++ [block]) := by
  have hsizes : ∀ x ∈ before ++ [block], x.length = j.blockSize := fun x hx => by
    have hmem : x ∈ j.blocks := by
      rw [hblocks, List.append_cons]
      exact List.mem_append_left _ hx
    exact (Job.isPadded_blocks hj.positive).sizes x hmem
  have hcount : before.length < UInt32.size := by
    have hlength := congrArg List.length hblocks
    rw [j.length_blocks, List.length_append, List.length_cons] at hlength
    have := hj.blockCount_lt
    omega
  obtain ⟨r, hrun, hidle⟩ := goes_firstBlocks hj hb
    (fun x hx => hsizes x (List.mem_append_left _ hx)) hcable hcount (.start j b) ⟨rfl, rfl, rfl⟩
  obtain ⟨r', hperform, hlink⟩ := perform_lost (b := b.filled j before) hb.connected
    (receive_lostBlock hj hb.connected hsizes hcount hcut) rfl rfl hidle
  -- the failure of the link in this step is an interruption
  let step : Step := ⟨.command (j.blockCommand before.length block), some (j.bytesIn before.length)⟩
  have htake : (step.take j fun _ => false).outcome r =
      (.error (.interrupted (j.bytesIn before.length) .closed),
        { r' with notices := r'.notices ++ [.writingInterrupted (j.bytesIn before.length) .closed] }) := by
    rw [Step.outcome_take, show (step.action.perform j fun _ => false).outcome r = _ from hperform]
  have hplan : j.plan = (j.opening.map plainStep ++ before.zipIdx.flatMap j.blockSteps) ++
      step :: (plainStep (.publish (j.bytesIn (before.length + 1))) ::
        ((after.zipIdx (before.length + 1)).flatMap j.blockSteps ++ j.closing)) := by
    rw [Job.plan, hblocks, List.zipIdx_append, List.flatMap_append, List.zipIdx_cons, List.flatMap_cons]
    simp [Job.blockSteps, step]
  rw [hplan]
  exact ⟨_, takeAll_of_error hrun htake, hlink⟩

/-- **A flash over a board that loses its cable is interrupted.** The block with which the cable gives
way is written, and all those before it have been acknowledged. -/
theorem flash_cutOff {j : Job} (hj : j.Feasible) {b : Board} (hb : b.Answering) {n : Nat}
    (hcable : b.CabledFor n) (hcut : ∃ k ∈ b.options.unplugAfter, k ≤ n + 1) (hn : n < j.blockCount) :
    (BlockBoard.flash j (fun _ => false) b).result = .error (.interrupted (j.bytesIn n) .closed) ∧
      (BlockBoard.flash j (fun _ => false) b).link = b.cutOff j (j.blocks.take (n + 1)) := by
  have hlength : n < j.blocks.length := by rw [j.length_blocks]; exact hn
  have hbefore : (j.blocks.take n).length = n := List.length_take_of_le (Nat.le_of_lt hlength)
  have hsplit : j.blocks = j.blocks.take n ++ j.blocks[n] :: j.blocks.drop (n + 1) := by
    rw [List.getElem_cons_drop, List.take_append_drop]
  obtain ⟨r', hrun, hlink⟩ := takeAll_lost hj hb hsplit (by rwa [hbefore]) (by rwa [hbefore])
  rw [hbefore] at hrun
  rw [flash_eq, hrun]
  refine ⟨rfl, hlink.trans ?_⟩
  rw [List.take_append_getElem hlength]

end Board

end BlockBoard

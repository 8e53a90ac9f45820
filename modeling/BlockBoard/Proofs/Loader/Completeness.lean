import Mathlib.Control.Monad.Basic
import BlockBoard.Link.Scripted
import BlockBoard.Proofs.Loader.Blocks
import BlockBoard.Proofs.Loader.Dialogue
import BlockBoard.Proofs.Loader.Watching
import BlockBoard.Settings.Config
/-!
# Success means a complete flash

Whatever the link delivers, in whatever pieces, a flash that reports success has been carried out to
the end: every command was written in order and acknowledged before the next call.

- `Flash.Job.turns`: the dialogue of a complete flash.
- `Flash.Job.told`: what the loader is told in it.
- `flash_ok_complete`: **a flash that reports success is that dialogue**, and its bytes are those
  commands.
-/

namespace BlockBoard

namespace Flash

/-! ## A complete flash -/

namespace Job

/-- A command with the usual time for its answer, and without a check word. -/
def plainCommand (j : Job) (op : Loader.Op) (data : List UInt8) : Command := ⟨op, data, 0, j.timeout⟩

/-- The commands up to the erasing of the region, waking the loader apart. -/
def commandsBefore (j : Job) : List Command :=
  [j.plainCommand .spiAttach (List.replicate 8 0), j.plainCommand .spiSetParams j.chipParameters,
    j.plainCommand .changeBaudRate (Loader.words [j.device.flashBaud, 0]),
    ⟨.flashBegin, j.region, 0, j.eraseTimeout⟩]

/-- The commands that write the blocks. -/
def blockCommands (j : Job) : List Command := j.blocks.zipIdx.map fun b => j.blockCommand b.2 b.1

/-- The commands after the last block. -/
def commandsAfter (j : Job) : List Command :=
  [j.plainCommand .changeBaudRate (Loader.words [j.device.handshakeBaud, 0]),
    j.plainCommand .flashEnd (Loader.words [1])]

/-- The dialogue of a complete flash, the attempts to wake the loader apart. -/
def turnsAfterSync (j : Job) : List Turn :=
  [.told (j.plainCommand .spiAttach (List.replicate 8 0)),
    .told (j.plainCommand .spiSetParams j.chipParameters),
    .told (j.plainCommand .changeBaudRate (Loader.words [j.device.flashBaud, 0])),
    .control (.setBaud j.device.flashBaud (.ok ())), .silence,
    .told ⟨.flashBegin, j.region, 0, j.eraseTimeout⟩] ++
  j.blockCommands.map .told ++
  [.told (j.plainCommand .changeBaudRate (Loader.words [j.device.handshakeBaud, 0])),
    .control (.setBaud j.device.handshakeBaud (.ok ())), .silence,
    .told (j.plainCommand .flashEnd (Loader.words [1])), .control (.hardReset (.ok ()))]

/-- The dialogue of a complete flash, where the loader slept through some attempts to wake it. -/
def turns (j : Job) (unanswered : Nat) : List Turn :=
  .control (.enterLoader (.ok ())) ::
    (List.replicate unanswered (.unanswered syncCommand) ++
      .told syncCommand :: .silence :: j.turnsAfterSync)

/-- What the loader is told in a complete flash: operations with check words and data. -/
def told (j : Job) (attempts : Nat) (blocks : List (List UInt8)) :
    List (UInt8 × UInt32 × List UInt8) :=
  List.replicate attempts (Loader.Op.sync.code, 0, Loader.syncPayload) ++
  [(Loader.Op.spiAttach.code, 0, List.replicate 8 0),
    (Loader.Op.spiSetParams.code, 0,
      Loader.words [0, j.device.flashSize.bytes, 0x10000, 0x1000, 0x100, 0xFFFF]),
    (Loader.Op.changeBaudRate.code, 0, Loader.words [j.device.flashBaud, 0]),
    (Loader.Op.flashBegin.code, 0, Loader.words
      [.ofNat j.image.length, .ofNat blocks.length, j.settings.blockSize, j.device.flashAddress, 0])] ++
  blocks.zipIdx.map (fun b => (Loader.Op.flashData.code, Loader.checksum b.1,
    Loader.words [j.settings.blockSize, .ofNat b.2, 0, 0] ++ b.1)) ++
  [(Loader.Op.changeBaudRate.code, 0, Loader.words [j.device.handshakeBaud, 0]),
    (Loader.Op.flashEnd.code, 0, Loader.words [1])]

end Job

/-! ## What can be read off a dialogue -/

/-- The calls of a turn that are neither reads nor writes. -/
def Turn.controls : Turn → List LinkCall
  | .control call => [call].filter LinkCall.isControl
  | _ => []

/-- The bytes that a turn writes, if the link takes them all. -/
def Turn.written : Turn → List UInt8
  | .told c | .unanswered c => c.frame
  | .silence => []
  | .control call => call.written

theorem filter_isControl_of_isRead {calls : List LinkCall} (h : ∀ x ∈ calls, x.isRead = true) :
    calls.filter LinkCall.isControl = [] := by
  rw [List.filter_eq_nil_iff]
  intro x hx
  have := h x hx
  cases x <;> simp_all [LinkCall.isRead, LinkCall.isControl]

theorem written_of_isRead {calls : List LinkCall} (h : ∀ x ∈ calls, x.isRead = true) :
    calls.flatMap LinkCall.written = [] := by
  rw [List.flatMap_eq_nil_iff]
  intro x hx
  have := h x hx
  cases x <;> simp_all [LinkCall.isRead, LinkCall.written]

theorem Turn.Holds.controls_eq {t : Turn} {a b : Receiver} {calls : List LinkCall}
    (h : t.Holds a calls b) : calls.filter LinkCall.isControl = t.controls := by
  cases t with
  | told c =>
    obtain ⟨reads, _, _, rfl, hreads, -⟩ := h
    rw [List.filter_cons_of_neg (by simp [LinkCall.isControl]), filter_isControl_of_isRead hreads]
    rfl
  | unanswered c =>
    obtain ⟨_, reads, _, rfl, hreads, -⟩ := h
    rw [List.filter_cons_of_neg (by simp [LinkCall.isControl]), filter_isControl_of_isRead hreads]
    rfl
  | silence => exact filter_isControl_of_isRead h.1
  | control call =>
    obtain ⟨rfl, -⟩ := h
    rfl

theorem Dialogue.controls_eq {ts : List Turn} {a b : Receiver} {calls : List LinkCall}
    (h : Dialogue ts a calls b) : calls.filter LinkCall.isControl = ts.flatMap Turn.controls := by
  induction h with
  | nil _ => rfl
  | cons hturn _ ih => rw [List.filter_append, hturn.controls_eq, ih, List.flatMap_cons]

/-- Whether a turn is a command that is not answered. -/
def Turn.isUnanswered : Turn → Bool
  | .unanswered _ => true
  | _ => false

theorem Turn.Holds.written_eq {t : Turn} (ht : t.isUnanswered = false) {a b : Receiver}
    {calls : List LinkCall} (h : t.Holds a calls b) :
    calls.flatMap LinkCall.written = t.written := by
  cases t with
  | told c =>
    obtain ⟨reads, _, _, rfl, hreads, -⟩ := h
    rw [List.flatMap_cons, written_of_isRead hreads, List.append_nil]
    rfl
  | unanswered c => cases ht
  | silence => exact written_of_isRead h.1
  | control call =>
    obtain ⟨rfl, -⟩ := h
    exact List.append_nil _

theorem Dialogue.written_eq {ts : List Turn} (hts : ∀ t ∈ ts, t.isUnanswered = false)
    {a b : Receiver} {calls : List LinkCall} (h : Dialogue ts a calls b) :
    calls.flatMap LinkCall.written = ts.flatMap Turn.written := by
  induction h with
  | nil _ => rfl
  | cons hturn _ ih =>
    rw [List.flatMap_append, hturn.written_eq (hts _ (by simp)),
      ih fun t ht => hts t (List.mem_cons_of_mem _ ht), List.flatMap_cons]

/-- Attempts without an answer write their frame, except where the link does not take it. -/
theorem Dialogue.written_unanswered {k : Nat} {c : Command} {rest : List Turn} {a b : Receiver}
    {calls : List LinkCall}
    (h : Dialogue (List.replicate k (.unanswered c) ++ rest) a calls b)
    (hrest : ∀ t ∈ rest, t.isUnanswered = false) :
    ∃ n ≤ k, calls.flatMap LinkCall.written =
      (List.replicate n c).flatMap Command.frame ++ rest.flatMap Turn.written := by
  induction k generalizing a calls with
  | zero => exact ⟨0, Nat.le_refl 0, h.written_eq hrest⟩
  | succ k ih =>
    rw [List.replicate_succ, List.cons_append] at h
    cases h with
    | cons hturn htail =>
      obtain ⟨n, hn, hwritten⟩ := ih htail
      obtain ⟨answer, reads, _, rfl, hreads, -⟩ := hturn
      -- a frame that the link did not take was not written
      rw [List.flatMap_append, List.flatMap_cons, written_of_isRead hreads, List.append_nil, hwritten]
      cases answer with
      | error e => exact ⟨n, by omega, rfl⟩
      | ok _ =>
        refine ⟨n + 1, by omega, ?_⟩
        rw [List.replicate_succ, List.flatMap_cons, List.append_assoc]
        rfl

/-! ## The plan of a complete flash -/

variable {σ : Type} [Transport σ]

/-- The steps after the loader is awake. -/
def Job.stepsAfterSync (j : Job) : List Step := j.plan.drop 4

theorem Job.plan_eq (j : Job) :
    j.plan = ([.verify j.image.length, .checkCancel, .enterLoader].map plainStep) ++
      plainStep (.sync j.settings.syncAttempts.toNat) :: j.stepsAfterSync := rfl

theorem Job.turns_blockSteps (j : Job) :
    ((j.blocks.zipIdx.flatMap j.blockSteps).flatMap fun s => s.action.turns) =
      j.blockCommands.map .told := by
  rw [List.flatMap_assoc, blockCommands, List.map_map, List.map_eq_flatMap]
  rfl

theorem Job.turns_stepsAfterSync (j : Job) :
    (j.stepsAfterSync.flatMap fun s => s.action.turns) = j.turnsAfterSync := by
  have hsteps : j.stepsAfterSync =
      (j.opening.drop 4).map plainStep ++ j.blocks.zipIdx.flatMap j.blockSteps ++ j.closing := rfl
  rw [hsteps, List.flatMap_append, List.flatMap_append, j.turns_blockSteps]
  rfl

theorem Job.isSync_stepsAfterSync (j : Job) : ∀ s ∈ j.stepsAfterSync, s.action.isSync = false := by
  have hblocks : ∀ s ∈ j.blocks.zipIdx.flatMap j.blockSteps, s.action.isSync = false := by
    intro s hs
    obtain ⟨b, -, hb⟩ := List.mem_flatMap.mp hs
    simp only [Job.blockSteps, List.mem_cons, List.not_mem_nil, or_false] at hb
    rcases hb with rfl | rfl <;> rfl
  have hopening : ((j.opening.drop 4).map plainStep).all (fun s => !s.action.isSync) = true := rfl
  have hclosing : j.closing.all (fun s => !s.action.isSync) = true := rfl
  have hsteps : j.stepsAfterSync =
      (j.opening.drop 4).map plainStep ++ j.blocks.zipIdx.flatMap j.blockSteps ++ j.closing := rfl
  intro s hs
  rw [hsteps, List.mem_append, List.mem_append] at hs
  rcases hs with (hs | hs) | hs
  · simpa using List.all_eq_true.mp hopening s hs
  · exact hblocks s hs
  · simpa using List.all_eq_true.mp hclosing s hs

/-- A plan that was carried out to the end is the dialogue of a complete flash. -/
theorem takeAll_plan_dialogue {j : Job} {cancelled : Recorded σ → Bool} {r r' : Run (Recorded σ)}
    (h : (takeAll j cancelled j.plan).outcome r = (.ok (), r')) :
    ∃ k < j.settings.syncAttempts.toNat, ∃ calls, r'.link.calls = r.link.calls ++ calls ∧
      Dialogue (j.turns k) r.receiver calls r'.receiver := by
  rw [j.plan_eq, takeAll_append] at h
  obtain ⟨_, r₁, hbefore, h⟩ := Operation.eq_ok_of_bind h
  obtain ⟨_, r₂, hsync, hafter⟩ := Operation.eq_ok_of_bind h
  -- waking the loader is the one step whose turns depend on what the link answers: the plan is cut there
  have hfirst : ∀ s ∈ [Action.verify j.image.length, .checkCancel, .enterLoader].map plainStep,
      s.action.isSync = false := by simp [plainStep, Action.isSync]
  obtain ⟨calls₁, hcalls₁, hdialogue₁⟩ := takeAll_dialogue hfirst hbefore
  obtain ⟨k, hk, calls₂, hcalls₂, hdialogue₂⟩ := syncWithin_dialogue (Step.perform_of_take hsync)
  obtain ⟨calls₃, hcalls₃, hdialogue₃⟩ := takeAll_dialogue j.isSync_stepsAfterSync hafter
  rw [j.turns_stepsAfterSync] at hdialogue₃
  have hdialogue := hdialogue₁.append (hdialogue₂.append hdialogue₃)
  rw [List.append_assoc] at hdialogue
  refine ⟨k, hk, calls₁ ++ (calls₂ ++ calls₃), ?_, hdialogue⟩
  rw [hcalls₃, hcalls₂, hcalls₁, List.append_assoc, List.append_assoc]

/-! ## What a complete flash writes -/

/-- All commands of a complete flash. -/
def Job.commands (j : Job) (attempts : Nat) : List Command :=
  List.replicate attempts syncCommand ++ j.commandsBefore ++ j.blockCommands ++ j.commandsAfter

theorem Job.isUnanswered_turnsAfterSync (j : Job) :
    ∀ t ∈ j.turnsAfterSync, t.isUnanswered = false := by
  have hblocks : ∀ t ∈ j.blockCommands.map Turn.told, t.isUnanswered = false := by
    intro t ht
    obtain ⟨c, -, rfl⟩ := List.mem_map.mp ht
    rfl
  intro t ht
  rw [Job.turnsAfterSync, List.mem_append, List.mem_append] at ht
  rcases ht with (ht | ht) | ht
  · simp only [List.mem_cons, List.not_mem_nil, or_false] at ht
    rcases ht with rfl | rfl | rfl | rfl | rfl | rfl <;> rfl
  · exact hblocks t ht
  · simp only [List.mem_cons, List.not_mem_nil, or_false] at ht
    rcases ht with rfl | rfl | rfl | rfl | rfl <;> rfl

theorem Job.written_turnsAfterSync (j : Job) :
    j.turnsAfterSync.flatMap Turn.written =
      (j.commandsBefore ++ j.blockCommands ++ j.commandsAfter).flatMap Command.frame := by
  have hblocks : (j.blockCommands.map Turn.told).flatMap Turn.written =
      j.blockCommands.flatMap Command.frame := by
    rw [List.flatMap_map]
    rfl
  rw [Job.turnsAfterSync, List.flatMap_append, List.flatMap_append, hblocks, List.flatMap_append,
    List.flatMap_append]
  simp [Job.commandsBefore, Job.commandsAfter, Turn.written, LinkCall.written]

theorem Job.controls_turns (j : Job) (k : Nat) : (j.turns k).flatMap Turn.controls =
    [.enterLoader (.ok ()), .setBaud j.device.flashBaud (.ok ()),
      .setBaud j.device.handshakeBaud (.ok ()), .hardReset (.ok ())] := by
  have hattempts : (List.replicate k (Turn.unanswered syncCommand)).flatMap Turn.controls = [] := by
    rw [List.flatMap_eq_nil_iff]
    intro t ht
    rw [List.eq_of_mem_replicate ht]
    rfl
  have hblocks : (j.blockCommands.map Turn.told).flatMap Turn.controls = [] := by
    rw [List.flatMap_eq_nil_iff]
    intro t ht
    obtain ⟨c, -, rfl⟩ := List.mem_map.mp ht
    rfl
  simp only [Job.turns, Job.turnsAfterSync, List.flatMap_append, List.flatMap_cons, hattempts, hblocks]
  rfl

/-- The bytes of a complete flash are the frames of its commands. -/
theorem Dialogue.written_turns {j : Job} {k : Nat} {a b : Receiver} {calls : List LinkCall}
    (h : Dialogue (j.turns k) a calls b) :
    ∃ n ≤ k, calls.flatMap LinkCall.written = (j.commands (n + 1)).flatMap Command.frame := by
  cases h with
  | cons hturn htail =>
    have hrest : ∀ t ∈ Turn.told syncCommand :: .silence :: j.turnsAfterSync,
        t.isUnanswered = false := by
      intro t ht
      rcases List.mem_cons.mp ht with rfl | ht
      · rfl
      · rcases List.mem_cons.mp ht with rfl | ht
        · rfl
        · exact j.isUnanswered_turnsAfterSync t ht
    obtain ⟨n, hn, hwritten⟩ := htail.written_unanswered hrest
    obtain ⟨rfl, -⟩ := hturn
    refine ⟨n, hn, ?_⟩
    rw [List.flatMap_append, hwritten, Job.commands, List.replicate_succ']
    simp only [List.flatMap_append, List.flatMap_cons, List.flatMap_nil, j.written_turnsAfterSync]
    simp [LinkCall.written, Turn.written]

/-- Every command of a flash with blocks of an admitted size fits a packet. -/
theorem Job.length_data_lt {j : Job} (hsize : j.blockSize ≤ 0xFFE0)
    (hblocks : ∀ b ∈ j.blocks, b.length = j.blockSize) (attempts : Nat) :
    ∀ c ∈ j.commands attempts, c.data.length < 65536 := by
  intro c hc
  rw [Job.commands, List.mem_append, List.mem_append, List.mem_append] at hc
  rcases hc with ((hc | hc) | hc) | hc
  · rw [List.eq_of_mem_replicate hc]
    decide
  · simp only [Job.commandsBefore, List.mem_cons, List.not_mem_nil, or_false] at hc
    rcases hc with rfl | rfl | rfl | rfl <;>
      simp [Job.plainCommand, Job.chipParameters, Job.region]
  · obtain ⟨b, hb, rfl⟩ := List.mem_map.mp hc
    have hlength := hblocks b.1 (List.fst_mem_of_mem_zipIdx hb)
    exact j.length_blockCommand_lt hsize b.2 hlength
  · simp only [Job.commandsAfter, List.mem_cons, List.not_mem_nil, or_false] at hc
    rcases hc with rfl | rfl <;> simp [Job.plainCommand]

/-- What the commands of a complete flash say. -/
theorem Job.fields_commands (j : Job) (attempts : Nat) :
    (j.commands attempts).map Command.fields = j.told attempts j.blocks := by
  rw [Job.commands, Job.told, j.length_blocks, List.map_append, List.map_append, List.map_append,
    List.map_replicate, blockCommands, List.map_map]
  rfl

end Flash

/-! ## The result -/

/-- Settings that pass their check have blocks of an admitted size. -/
theorem Settings.blockSize_of_check {s : Settings} (h : s.check = .ok ()) :
    0 < s.flash.blockSize.toNat ∧ s.flash.blockSize.toNat ≤ 0xFFE0 := by
  have hsize : s.hasBlockSize = true := by
    unfold Settings.check at h
    split at h
    · cases h
    · split at h
      · cases h
      · rename_i hsize
        simpa using hsize
  simp only [Settings.hasBlockSize, Bool.and_eq_true, bne_iff_ne, decide_eq_true_eq] at hsize
  obtain ⟨⟨hzero, -⟩, hmax⟩ := hsize
  refine ⟨Nat.pos_of_ne_zero fun heq => hzero (UInt32.toNat_inj.mp heq), ?_⟩
  exact UInt32.le_iff_toNat_le.mp hmax

open Flash in
/-- A complete flash, by its calls: each command is acknowledged before the next call; the bytes that
were written are the commands of a complete flash, with numbers that fit their words; and the link
itself was asked for nothing else than entering the loader, both changes of speed and the restart. -/
structure CompleteFlash (j : Job) (calls : List LinkCall) : Prop where
  dialogue : ∃ k < j.settings.syncAttempts.toNat, ∃ after, Dialogue (j.turns k) {} calls after
  commands : ∃ n blocks, 1 ≤ n ∧ n ≤ j.settings.syncAttempts.toNat ∧
    Loader.commandsIn (calls.flatMap LinkCall.written) = (j.told n blocks).map some ∧
    IsPadded j.blockSize (Loader.patchHeader j.device j.image) blocks ∧ blocks.length < UInt32.size
  controls : calls.filter LinkCall.isControl =
    [.enterLoader (.ok ()), .setBaud j.device.flashBaud (.ok ()),
      .setBaud j.device.handshakeBaud (.ok ()), .hardReset (.ok ())]

open Flash in
/-- **A flash that reports success is complete**, whatever the link answered. The record of its calls changes
nothing: over the link by itself, the flash goes the same way. -/
theorem flash_ok_complete {σ : Type} [Transport σ] {s : Settings} (hs : s.check = .ok ()) {j : Job}
    (hsettings : j.settings = s.flash) (himage : j.image.length < UInt32.size)
    {cancelled : Recorded σ → Bool} {link : Recorded σ} {report : FlashReport}
    (h : (flash j cancelled link).result = .ok report) :
    (∃ calls, (flash j cancelled link).link.calls = link.calls ++ calls ∧ CompleteFlash j calls ∧
      report = ⟨j.image.length, j.expected, Loader.blockCount j.blockSize j.image.length,
        j.device.flashAddress⟩) ∧
    ∀ stop : σ → Bool, flash j stop link.link =
      (flash j (fun l => stop l.link) link).over Recorded.link := by
  obtain ⟨hpositive, hadmitted⟩ := Settings.blockSize_of_check hs
  rw [← hsettings] at hpositive hadmitted
  obtain ⟨r', hrun, hlink, hreport⟩ := outcome_of_ok h
  obtain ⟨k, hk, calls, hcalls, hdialogue⟩ := takeAll_plan_dialogue hrun
  obtain ⟨n, hn, hwritten⟩ := hdialogue.written_turns
  have hpadded := Job.isPadded_blocks hpositive
  -- an image that fits a word has a number of blocks that does
  have hcount : j.blockCount < UInt32.size :=
    Nat.lt_of_le_of_lt (Loader.blockCount_le hpositive j.image.length) himage
  refine ⟨⟨calls, by rw [hlink, hcalls]; rfl, ⟨⟨k, hk, _, hdialogue⟩, ⟨n + 1, j.blocks, by omega, by omega,
    ?_, hpadded, by rwa [j.length_blocks]⟩, ?_⟩, ?_⟩, fun stop => flash_recorded j stop link⟩
  · rw [hwritten, commandsIn_frames (Job.length_data_lt hadmitted hpadded.sizes _),
      Job.fields_commands]
  · rw [hdialogue.controls_eq, Job.controls_turns]
  · rw [hreport, Job.report, UInt32.toNat_ofNat_of_lt' hcount]
    rfl

/-- A flash of two blocks over a link that answers every command. -/
def twoBlocks : Flash.Job :=
  ⟨{}, { blockSize := 4 }, [0xE9, 1, 2, 3, 4], 5⟩

/-- A link that answers every command of the loader. -/
def answeringLink : Recorded ScriptedLink := { link := { script := { rule := .loader } } }

theorem flash_ok_complete_twoBlocks :
    (flash twoBlocks (fun _ => false) answeringLink).result = .ok ⟨5, 5, 2, 0⟩ ∧
      ∃ calls, (flash twoBlocks (fun _ => false) answeringLink).link.calls = calls ∧
        CompleteFlash twoBlocks calls := by
  have hs : Settings.check { flash := { blockSize := 4 } } = .ok () := by decide +kernel
  have hok : (flash twoBlocks (fun _ => false) answeringLink).result = .ok ⟨5, 5, 2, 0⟩ := by
    decide +kernel
  obtain ⟨⟨calls, hcalls, hcomplete, -⟩, -⟩ := flash_ok_complete hs rfl (by decide) hok
  exact ⟨hok, calls, hcalls, hcomplete⟩

end BlockBoard

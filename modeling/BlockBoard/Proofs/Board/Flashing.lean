import BlockBoard.Proofs.Board.Receiving
import BlockBoard.Proofs.Loader.Blocks
import BlockBoard.Proofs.Loader.Calls
/-!
# Flashing a simulated board

A flash and the loader of a simulated board, step by step. Between two steps the board listens at its
loader, nothing is on the wire, and the run holds nothing that has come; so the steps can be looked at
one by one.

- `Board.Idle`: a run between two steps.
- `Board.Goes`: steps that lead from one board to another, without failing.
- `Board.goes_told`: a command that the loader accepts.
- `Board.goes_blocks`: **the blocks of an image are written in order**, by induction on the blocks.
- `Board.CabledFor`: a board whose cable holds for some blocks.
- `Board.flash_cabled`: **a flash over a board whose cable holds for all its blocks succeeds**.
- `Board.storage_flashed`, `Board.wiring_flashed`: what is left of it.
-/

namespace BlockBoard

/-! ## Jobs and boards -/

/-- A job that a healthy board can do: the blocks fit the packets, the numbers fit their words, the
sizes are in order, and at least one attempt is made to wake the loader. -/
structure Flash.Job.Feasible (j : Flash.Job) : Prop where
  positive : 0 < j.blockSize
  admitted : j.blockSize ≤ 0xFFE0
  image : j.image.length < UInt32.size
  attempts : 1 ≤ j.settings.syncAttempts.toNat
  sizes : verifyTransferSize j.image.length j.expected j.settings.minTransferRatio = .ok ()

/-- The blocks of a job can be counted in a word. -/
theorem Flash.Job.Feasible.blockCount_lt {j : Flash.Job} (h : j.Feasible) :
    j.blockCount < UInt32.size :=
  Nat.lt_of_le_of_lt (Loader.blockCount_le h.positive _) h.image

namespace Board

open Flash

/-- A board that is connected and has no fault. -/
structure Healthy (b : Board) : Prop where
  connected : b.connected = true
  awake : b.options.silentLoader = false
  cabled : b.options.unplugAfter = none

/-- A board that is connected and whose loader wakes. -/
structure Answering (b : Board) : Prop where
  connected : b.connected = true
  awake : b.options.silentLoader = false

/-- The cable of a board holds while a number of blocks are accepted. It gives way with the first block
at the earliest. -/
def CabledFor (b : Board) (count : Nat) : Prop := ∀ n ∈ b.options.unplugAfter, count < max n 1

theorem Healthy.answering {b : Board} (h : b.Healthy) : b.Answering := ⟨h.connected, h.awake⟩

theorem Healthy.cabledFor {b : Board} (h : b.Healthy) (count : Nat) : b.CabledFor count := by
  simp [CabledFor, h.cabled]

theorem CabledFor.mono {b : Board} {count fewer : Nat} (h : b.CabledFor count) (hle : fewer ≤ count) :
    b.CabledFor fewer :=
  fun n hn => Nat.lt_of_le_of_lt hle (h n hn)

/-- A board goes on answering while its wiring is left alone. -/
theorem Answering.of_untouched {b b' : Board} (h : b.Answering) (h' : Untouched b b') : b'.Answering := by
  have hoptions : b'.options = b.options := congrArg Wiring.options h'.wiring
  exact ⟨h'.connected.trans h.connected, by rw [hoptions]; exact h.awake⟩

theorem CabledFor.of_untouched {b b' : Board} {count : Nat} (h : b.CabledFor count)
    (h' : Untouched b b') : b'.CabledFor count := by
  have hoptions : b'.options = b.options := congrArg Wiring.options h'.wiring
  rwa [CabledFor, hoptions]

/-! ## Steps that lead from one board to another -/

/-- The loader listens, holds nothing of a frame, and has said nothing that is still on its way. -/
structure Listening (b : Board) : Prop extends AtLoader b where
  outbox : b.outbox = []

/-- A run between two steps: it holds nothing that has come over its link. -/
structure Idle (b : Board) (r : Run Board) : Prop where
  link : r.link = b
  decoder : r.decoder = {}
  frames : r.frames = []

/-- Steps that lead from one board to another, if nobody asks to cancel them. -/
def Goes (j : Job) (steps : List Step) (b b' : Board) : Prop :=
  ∀ r, Idle b r → ∃ r', (takeAll j (fun _ => false) steps).outcome r = (.ok (), r') ∧ Idle b' r'

theorem Goes.append {j : Job} {x y : List Step} {a b c : Board} (h : Goes j x a b)
    (h' : Goes j y b c) : Goes j (x ++ y) a c := by
  intro r hr
  obtain ⟨r₁, hrun, hr₁⟩ := h r hr
  obtain ⟨r₂, hrun', hr₂⟩ := h' r₁ hr₁
  exact ⟨r₂, by rw [takeAll_append, Operation.bind_of_ok hrun, hrun'], hr₂⟩

theorem goes_nil (j : Job) (b : Board) : Goes j [] b b := fun r hr => ⟨r, rfl, hr⟩

/-- One step that does not fail. -/
theorem goes_of_perform {j : Job} {a : Action} {written? : Option Nat} {b b' : Board}
    (h : ∀ r, Idle b r → ∃ r', (a.perform j fun _ => false).outcome r = (.ok (), r') ∧ Idle b' r') :
    Goes j [⟨a, written?⟩] b b' := by
  intro r hr
  obtain ⟨r', hperform, hr'⟩ := h r hr
  have htake : ((⟨a, written?⟩ : Step).take j fun _ => false).outcome r = (.ok (), r') := by
    rw [Step.outcome_take, hperform]
  exact ⟨r', by rw [takeAll_cons, Operation.bind_of_ok htake]; rfl, hr'⟩

/-! ## Steps without a command -/

theorem goes_verify {j : Job} {actual : Nat} {written? : Option Nat} {b : Board}
    (h : verifyTransferSize actual j.expected j.settings.minTransferRatio = .ok ()) :
    Goes j [⟨.verify actual, written?⟩] b b := by
  refine goes_of_perform fun r hr => ?_
  rw [outcome_verify, h]
  refine ⟨_, rfl, ?_⟩
  split
  · exact ⟨hr.link, hr.decoder, hr.frames⟩
  · exact hr

theorem goes_checkCancel (j : Job) (b : Board) : Goes j [plainStep .checkCancel] b b :=
  goes_of_perform fun r hr => ⟨r, rfl, hr⟩

theorem goes_checkCancelAt (j : Job) (baud : UInt32) (b : Board) :
    Goes j [plainStep (.checkCancelAt baud)] b b :=
  goes_of_perform fun r hr => ⟨r, rfl, hr⟩

theorem goes_noteCancel (j : Job) (b : Board) : Goes j [plainStep .noteCancel] b b :=
  goes_of_perform fun r hr => ⟨r, rfl, hr⟩

theorem goes_publish (j : Job) (written : Nat) (b : Board) :
    Goes j [plainStep (.publish written)] b b :=
  goes_of_perform fun _ hr => ⟨_, rfl, hr.link, hr.decoder, hr.frames⟩

/-- Something asked of the link itself. -/
theorem goes_onLink {j : Job} {a : Action} {written? : Option Nat} {b b' : Board}
    {x : Operation Board LinkError Unit} (ha : a.perform j (fun _ => false) = onLink x)
    (hx : x.outcome b = (.ok (), b')) : Goes j [⟨a, written?⟩] b b' := by
  refine goes_of_perform fun r hr => ?_
  rw [ha, outcome_onLink, hr.link, hx]
  exact ⟨_, rfl, rfl, hr.decoder, hr.frames⟩

theorem goes_setBaud {j : Job} {baud : UInt32} {written? : Option Nat} {b : Board}
    (h : b.connected = true) :
    Goes j [⟨.setBaud baud, written?⟩] b { b with bauds := b.bauds ++ [baud] } :=
  goes_onLink rfl ((setBaud_eq baud b).trans (ifConnected_of h _))

/-- A board that has just entered its loader. -/
def entered (b : Board) : Board :=
  { b with
    resets := b.resets + 1, running := false, mode := .loader, decoder := {}, outbox := loaderBanner }

theorem goes_enterLoader {j : Job} {b : Board} (h : b.connected = true) :
    Goes j [plainStep .enterLoader] b b.entered :=
  goes_onLink rfl ((enterLoader_eq b).trans (ifConnected_of h _))

/-! ## Forgetting -/

/-- Reading everything that is on the wire empties it. -/
theorem drainWithin_connected {b : Board} (h : b.connected = true) {fuel : Nat}
    (hfuel : b.outbox.length < fuel) (total : Nat) :
    ∃ n, drainWithin fuel total b = (.ok n, { b with outbox := [] }) := by
  induction fuel generalizing b total with
  | zero => omega
  | succ fuel ih =>
    rw [drainWithin, read_eq]
    by_cases hempty : b.outbox = []
    · have hsame : b = { b with outbox := [] } := by rw [← hempty]
      rw [if_pos (by simp [hempty]), if_pos h]
      exact ⟨total, by rw [← hsame]⟩
    · obtain ⟨byte, more, houtbox⟩ := List.exists_cons_of_ne_nil hempty
      rw [if_neg (by simp [hempty])]
      have htake : b.outbox.take answerChunk = byte :: more.take 255 := by rw [houtbox]; rfl
      rw [htake]
      -- a read takes one byte at least, which pays for it
      have hlength : (b.outbox.drop answerChunk).length < fuel := by
        have hchunk : answerChunk = 256 := rfl
        rw [List.length_drop]
        rw [houtbox, List.length_cons] at hfuel ⊢
        omega
      exact ih (b := { b with outbox := b.outbox.drop answerChunk }) h hlength _

theorem outcome_send {b : Board} (h : b.connected = true) (bs : List UInt8) :
    (send bs : Operation Board LinkError Unit).outcome b = (.ok (), b.receive bs) :=
  (write_eq bs b).trans (ifConnected_of h _)

theorem drain_connected {b : Board} (h : b.connected = true) :
    ∃ n, (drain : Operation Board LinkError Nat).outcome b = (.ok n, { b with outbox := [] }) :=
  drainWithin_connected h (Nat.lt_succ_self _) 0

/-- Forgetting what has come leaves a run idle. -/
theorem forget_connected {b : Board} (h : b.connected = true) {r : Run Board} (hr : r.link = b) :
    ∃ r', (forget : Operation (Run Board) SessionError Unit).outcome r = (.ok (), r') ∧
      Idle { b with outbox := [] } r' := by
  obtain ⟨n, hdrain⟩ := drain_connected h
  have hlink : (onLink drain).outcome r = (.ok n, { r with link := { b with outbox := [] } }) := by
    rw [outcome_onLink, hr, hdrain]
    rfl
  exact ⟨_, Operation.bind_of_ok hlink, rfl, rfl, rfl⟩

theorem goes_settle {j : Job} {written? : Option Nat} {b : Board} (h : Listening b) :
    Goes j [⟨.settle, written?⟩] b b := by
  refine goes_of_perform fun r hr => ?_
  obtain ⟨r', hforget, hidle⟩ := forget_connected h.connected hr.link
  have hsame : { b with outbox := [] } = b := by rw [← h.outbox]
  rw [hsame] at hidle
  exact ⟨r', hforget, hidle⟩

/-! ## Commands -/

/-- What the loader says when it has done what an operation asks for. -/
def acknowledgement (op : UInt8) : List UInt8 :=
  [Loader.responseByte, op, 4, 0, 0, 0, 0, 0, 0, 0, 0, 0]

/-- An acknowledgement is taken as one. -/
theorem findAnswer?_acknowledgement (op : Loader.Op) (rest : List (List UInt8)) :
    findAnswer? op (acknowledgement op.code :: rest) = some (.ok (), rest) := by
  cases op <;> rfl

theorem length_acknowledgement (op : Loader.Op) : (responseFrame op.code 0 0).length = 14 := by
  cases op <;> rfl

/-- Waiting for an answer that is on the wire already. -/
theorem awaitWithin_answered (op : Loader.Op) (timeout fuel : Nat) {b : Board} {r : Run Board}
    (hr : Idle b r) (hne : b.outbox ≠ []) (hlength : b.outbox.length ≤ loaderChunk)
    {frames rest : List (List UInt8)} (hfeed : ({} : Slip.Decoder).feed b.outbox = (frames, {}))
    (hanswer : findAnswer? op frames = some (.ok (), rest)) :
    awaitWithin op timeout (fuel + 1) r =
      (.ok (), { r with link := { b with outbox := [] }, frames := rest }) := by
  have hread : Transport.read loaderChunk b = (.bytes b.outbox, { b with outbox := [] }) := by
    rw [read_eq, if_neg (by simpa using hne), List.take_of_length_le hlength,
      List.drop_eq_nil_of_le hlength]
  obtain ⟨byte, more, houtbox⟩ := List.exists_cons_of_ne_nil hne
  rw [awaitWithin, hr.frames]
  simp only [findAnswer?]
  rw [hr.link, hread, houtbox]
  dsimp only
  rw [← houtbox, hr.decoder, hfeed, awaitWithin.eq_def]
  dsimp only
  rw [hanswer]

/-- **A command that the loader accepts is acknowledged**, and leads to the board that it leads to. -/
theorem perform_told {c : Command} {b b' : Board} (h : b.connected = true) (hb' : b'.outbox = [])
    (hreceive : b.receive c.frame = b'.respond c.op.code 0 0) {r : Run Board} (hr : Idle b r) :
    ∃ r', (c.perform : Operation (Run Board) SessionError Unit).outcome r = (.ok (), r') ∧
      Idle b' r' := by
  have hsend : (onLink (send (Slip.encode c.packet))).outcome r =
      (.ok (), { r with link := b'.respond c.op.code 0 0 }) := by
    rw [outcome_onLink, hr.link]
    have hwrite : (send (Slip.encode c.packet) : Operation Board LinkError Unit).outcome b =
        (.ok (), b'.respond c.op.code 0 0) := by
      show Transport.write c.frame b = _
      rw [write_eq, ifConnected_of h, hreceive]
    rw [hwrite]
    rfl
  have houtbox : (b'.respond c.op.code 0 0).outbox = responseFrame c.op.code 0 0 := by
    rw [respond, emit]
    simp [hb']
  have hlength := length_acknowledgement c.op
  have hidle : Idle (b'.respond c.op.code 0 0) { r with link := b'.respond c.op.code 0 0 } :=
    ⟨rfl, hr.decoder, hr.frames⟩
  have hawait := awaitWithin_answered c.op c.timeout (Transport.backlog (b'.respond c.op.code 0 0))
    hidle
    (by rw [houtbox]; exact List.ne_nil_of_length_eq_add_one hlength)
    (by rw [houtbox, hlength]; decide)
    (by rw [houtbox]; exact Slip.Decoder.feed_encode (by simp))
    (findAnswer?_acknowledgement c.op [])
  refine ⟨_, (Operation.bind_of_ok hsend).trans hawait, ?_, hr.decoder, rfl⟩
  show { b'.respond c.op.code 0 0 with outbox := [] } = b'
  rw [← hb']
  rfl

theorem goes_told {j : Job} {c : Command} {written? : Option Nat} {b b' : Board}
    (h : b.connected = true) (hb' : b'.outbox = [])
    (hreceive : b.receive c.frame = b'.respond c.op.code 0 0) :
    Goes j [⟨.command c, written?⟩] b b' :=
  goes_of_perform fun _ hr => perform_told h hb' hreceive hr

/-- A listening loader does what a command says that fits a packet. -/
theorem receive_listening {b : Board} (h : Listening b) {c : Command} (hdata : c.data.length < 65536) :
    b.receive c.frame = b.handleCommand c.op.code c.check c.data := by
  rw [Command.frame, receive_frame h.toAtLoader c.packet_ne_nil, Command.packet,
    Loader.commandOfFrame?_commandPacket _ _ hdata]

/-! ## Waking the loader -/

/-- The loader answers a command that wakes it four times. -/
theorem receive_sync {b : Board} (h : b.AtLoader) (hsilent : b.options.silentLoader = false) :
    b.receive syncCommand.frame =
      b.emit ((List.replicate 4 (acknowledgement Loader.Op.sync.code)).flatMap Slip.encode) := by
  have hdata : syncCommand.data.length < 65536 := by decide
  rw [Command.frame, receive_frame h syncCommand.packet_ne_nil, Command.packet,
    Loader.commandOfFrame?_commandPacket _ _ hdata]
  show (if b.options.silentLoader = true then b
    else (((b.respond _ 0 0).respond _ 0 0).respond _ 0 0).respond _ 0 0) = _
  rw [if_neg (by simp [hsilent])]
  simp only [respond, emit, List.append_assoc]
  rfl

/-- **Waking the loader.** It answers more than once, after its banner; what is not looked at is
forgotten. -/
theorem goes_sync {j : Job} {n : Nat} {b : Board} (h : b.AtLoader) (houtbox : b.outbox = loaderBanner)
    (hsilent : b.options.silentLoader = false) :
    Goes j [plainStep (.sync (n + 1))] b { b with outbox := [] } := by
  refine goes_of_perform fun r hr => ?_
  -- the first of the four answers is taken, after the noise of the banner, and the others are forgotten
  let answers := List.replicate 4 (acknowledgement Loader.Op.sync.code)
  let later := List.replicate 3 (acknowledgement Loader.Op.sync.code)
  let b₁ := b.emit (answers.flatMap Slip.encode)
  have hsend : (onLink (send (Slip.encode syncCommand.packet))).outcome r =
      (.ok (), { r with link := b₁ }) := by
    have hwrite : (send (Slip.encode syncCommand.packet) : Operation Board LinkError Unit).outcome b =
        (.ok (), b₁) := by
      show Transport.write syncCommand.frame b = _
      rw [write_eq, ifConnected_of h.connected, receive_sync h hsilent]
    rw [outcome_onLink, hr.link, hwrite]
    rfl
  have hwire : b₁.outbox = loaderBanner ++ answers.flatMap Slip.encode := by
    show b.outbox ++ _ = _
    rw [houtbox]
  have hfeed : ({} : Slip.Decoder).feed b₁.outbox = (answers, {}) := by
    rw [hwire, Slip.Decoder.feed_append, Slip.Decoder.feed_noise (by decide +kernel)]
    dsimp only
    rw [Slip.Decoder.feed_flatMap_encode fun p hp => by rw [List.eq_of_mem_replicate hp]; simp
      [acknowledgement]]
    rfl
  have hidle : Idle b₁ { r with link := b₁ } := ⟨rfl, hr.decoder, hr.frames⟩
  have hawait := awaitWithin_answered .sync syncTimeout (Transport.backlog b₁) hidle
    (by rw [hwire]; decide +kernel) (by rw [hwire]; decide +kernel) hfeed
    (findAnswer?_acknowledgement .sync later)
  have hperform := (Operation.bind_of_ok (f := fun _ => await .sync syncTimeout) hsend).trans hawait
  obtain ⟨r', hforget, hr'⟩ := forget_connected (b := { b₁ with outbox := [] })
    (r := { r with link := { b₁ with outbox := [] }, frames := later }) h.connected rfl
  refine ⟨r', ?_, hr'⟩
  show syncWithin (n + 1) (n + 1) r = _
  rw [syncWithin]
  rw [show syncCommand.perform.outcome r = _ from hperform]
  exact hforget

/-! ## The words of a command -/

theorem dataWord_zero (w : UInt32) (rest : List UInt8) :
    dataWord (Loader.wordBytes w ++ rest) 0 = w :=
  Loader.wordOf_wordBytes w

theorem dataWord_succ (w : UInt32) (rest : List UInt8) (i : Nat) :
    dataWord (Loader.wordBytes w ++ rest) (i + 1) = dataWord rest i := by
  have hdrop : (Loader.wordBytes w ++ rest).drop (4 * (i + 1)) = rest.drop (4 * i) := by
    rw [Nat.mul_succ, Nat.add_comm, ← List.drop_drop]
    rfl
  rw [dataWord, dataWord, hdrop]

/-! ## Blocks -/

/-- A block that follows right after the contents is put at their end. -/
theorem putBlock_end {contents : List UInt8} {start : Nat} (h : contents.length = start)
    (block : List UInt8) : putBlock contents start block = contents ++ block := by
  rw [putBlock, List.take_of_length_le (by omega), List.drop_eq_nil_of_le (by omega), h, Nat.sub_self]
  simp

/-- A board after a block. -/
def written (b : Board) (block : List UInt8) : Board :=
  { b with flash := b.flash ++ block, blocks := b.blocks + 1 }

/-- **The next block is written at the end of those before it**, and acknowledged if the cable holds. -/
theorem receive_block {j : Job} {b : Board} (h : Listening b) {block : List UInt8}
    (hsize : j.blockSize ≤ 0xFFE0) (hblock : block.length = j.blockSize)
    (hblockSize : b.flashBlockSize = j.settings.blockSize)
    (hflash : b.flash.length = b.blocks * j.blockSize) (hcount : b.blocks < UInt32.size) :
    b.receive (j.blockCommand b.blocks block).frame =
      if b.options.unplugAfter.any (· ≤ b.blocks + 1) then (b.written block).unplug
      else (b.written block).respond Loader.Op.flashData.code 0 0 := by
  have hdata := j.length_blockCommand_lt hsize b.blocks hblock
  -- four words stand in front of a block: its size, its number and two that are not used
  have hwords : (j.blockCommand b.blocks block).data = Loader.wordBytes j.settings.blockSize ++
      (Loader.wordBytes (UInt32.ofNat b.blocks) ++ (Loader.words [0, 0] ++ block)) := by
    simp [Job.blockCommand, Loader.words_cons]
  have hdrop : (j.blockCommand b.blocks block).data.drop 16 = block := by rw [hwords]; rfl
  have hfirst : dataWord (j.blockCommand b.blocks block).data 0 = j.settings.blockSize := by
    rw [hwords, dataWord_zero]
  have hsecond : (dataWord (j.blockCommand b.blocks block).data 1).toNat = b.blocks := by
    rw [hwords, dataWord_succ, dataWord_zero, UInt32.toNat_ofNat_of_lt' hcount]
  rw [receive_listening h hdata]
  show b.writeBlock Loader.Op.flashData.code (Loader.checksum block) _ = _
  rw [writeBlock]
  dsimp only
  rw [hdrop, hfirst, hsecond, if_neg (by simp [hblock, Job.blockSize]), if_neg (by simp),
    putBlock_end (by rw [hflash, hblockSize]; rfl)]
  rfl

theorem CabledFor.any_eq_false {b : Board} {count : Nat} (h : b.CabledFor (count + 1)) :
    b.options.unplugAfter.any (· ≤ count + 1) = false := by
  cases hafter : b.options.unplugAfter with
  | none => rfl
  | some n =>
    have hn := h n hafter
    rw [Option.any_some, decide_eq_false (by omega)]

theorem Listening.written {b : Board} (h : Listening b) (block : List UInt8) :
    Listening (b.written block) where
  connected := h.connected
  mode := h.mode
  decoder := h.decoder
  outbox := h.outbox

/-- **The blocks of an image are written in order**, as long as the cable holds. -/
theorem goes_blocks {j : Job} (hsize : j.blockSize ≤ 0xFFE0) {bs : List (List UInt8)}
    (hbs : ∀ x ∈ bs, x.length = j.blockSize) {b : Board} (h : Listening b)
    (hcable : b.CabledFor (b.blocks + bs.length)) (hblockSize : b.flashBlockSize = j.settings.blockSize)
    (hflash : b.flash.length = b.blocks * j.blockSize) (hcount : b.blocks + bs.length < UInt32.size) :
    Goes j ((bs.zipIdx b.blocks).flatMap j.blockSteps) b
      { b with flash := b.flash ++ bs.flatten, blocks := b.blocks + bs.length } := by
  induction bs generalizing b with
  | nil =>
    simp only [List.flatten_nil, List.append_nil, List.length_nil, Nat.add_zero]
    exact goes_nil j b
  | cons block r ih =>
    rw [List.length_cons] at hcount hcable
    -- the board after the first block is where the others begin
    have hblock := hbs block (by simp)
    have hfirst : b.CabledFor (b.blocks + 1) := hcable.mono (by omega)
    have hreceive : b.receive (j.blockCommand b.blocks block).frame =
        (b.written block).respond Loader.Op.flashData.code 0 0 := by
      rw [receive_block h hsize hblock hblockSize hflash (by omega), hfirst.any_eq_false, if_neg nofun]
    have htold : Goes j [⟨.command (j.blockCommand b.blocks block), some (j.bytesIn b.blocks)⟩] b
        (b.written block) :=
      goes_told h.connected (h.written block).outbox hreceive
    have hothers : (b.written block).CabledFor ((b.written block).blocks + r.length) :=
      hcable.mono (by show b.blocks + 1 + r.length ≤ _; omega)
    have hrest := ih (fun x hx => hbs x (List.mem_cons_of_mem _ hx)) (h.written block) hothers
      hblockSize (by
        show (b.flash ++ block).length = (b.blocks + 1) * j.blockSize
        rw [List.length_append, hflash, hblock, Nat.succ_mul])
      (by show b.blocks + 1 + r.length < UInt32.size; omega)
    have hgoes := (htold.append (goes_publish j (j.bytesIn (b.blocks + 1)) (b.written block))).append
      hrest
    have hboard : { b.written block with
          flash := (b.written block).flash ++ r.flatten
          blocks := (b.written block).blocks + r.length } =
        { b with
          flash := b.flash ++ (block :: r).flatten, blocks := b.blocks + (block :: r).length } := by
      simp only [written, List.flatten_cons, List.append_assoc, List.length_cons]
      rw [Nat.add_assoc, Nat.add_comm 1]
    rw [hboard] at hgoes
    rw [List.zipIdx_cons, List.flatMap_cons]
    exact hgoes

/-! ## A whole flash -/

/-- A command that the loader only acknowledges. -/
theorem goes_plain {j : Job} {op : Loader.Op} {data : List UInt8} {written? : Option Nat} {b : Board}
    (h : Listening b) (hop : op = .spiAttach ∨ op = .spiSetParams ∨ op = .changeBaudRate)
    (hdata : data.length < 65536) : Goes j [⟨j.command op data, written?⟩] b b := by
  refine goes_told h.connected h.outbox ?_
  rw [receive_listening h hdata]
  rcases hop with rfl | rfl | rfl <;> rfl

/-- A change of speed. -/
theorem goes_changeBaud {j : Job} {baud : UInt32} {written? : Option Nat} {b : Board}
    (h : Listening b) : Goes j ((j.changeBaud baud).map fun a => ⟨a, written?⟩) b
      { b with bauds := b.bauds ++ [baud] } := by
  have hafter : Listening { b with bauds := b.bauds ++ [baud] } :=
    ⟨⟨h.connected, h.mode, h.decoder⟩, h.outbox⟩
  have htold : Goes j [⟨j.command .changeBaudRate (Loader.words [baud, 0]), written?⟩] b b :=
    goes_plain h (.inr (.inr rfl)) (by simp)
  exact (htold.append (goes_setBaud h.connected)).append (goes_settle hafter)

/-- A board after its region has been erased. -/
def erased (j : Job) (b : Board) : Board :=
  { b with
    flash := [], flashBlockSize := j.settings.blockSize, flashOffset := j.device.flashAddress
    blocks := 0, flashFinished := false }

/-- **The region is erased**, and the loader knows what is to come. -/
theorem goes_flashBegin {j : Job} {timeout : Nat} {b : Board} (h : Listening b) :
    Goes j [plainStep (.command ⟨.flashBegin, j.region, 0, timeout⟩)] b (b.erased j) := by
  refine goes_told h.connected h.outbox ?_
  have hdata : j.region.length < 65536 := by
    simp [Job.region]
  have hblockSize : dataWord j.region 2 = j.settings.blockSize := by
    rw [Job.region, Loader.words_cons, Loader.words_cons, Loader.words_cons, dataWord_succ,
      dataWord_succ, dataWord_zero]
  have haddress : dataWord j.region 3 = j.device.flashAddress := by
    rw [Job.region, Loader.words_cons, Loader.words_cons, Loader.words_cons, Loader.words_cons,
      dataWord_succ, dataWord_succ, dataWord_succ, dataWord_zero]
  rw [receive_listening h hdata, erased, ← hblockSize, ← haddress]
  rfl

/-- A board after the steps up to the erasing. -/
def opened (j : Job) (b : Board) : Board :=
  { b.entered with outbox := [], bauds := b.bauds ++ [j.device.flashBaud] }.erased j

theorem goes_opening {j : Job} (hj : j.Feasible) {b : Board} (hb : b.Answering) :
    Goes j (j.opening.map plainStep) b (b.opened j) := by
  have h := hb.connected
  obtain ⟨n, hn⟩ := Nat.exists_eq_add_of_le' hj.attempts
  have hlistening : Listening { b.entered with outbox := [] } := ⟨⟨h, rfl, rfl⟩, rfl⟩
  have hsync : Goes j [plainStep (.sync j.settings.syncAttempts.toNat)] b.entered
      { b.entered with outbox := [] } := by
    rw [hn]
    exact goes_sync ⟨h, rfl, rfl⟩ rfl hb.awake
  -- four parts: waking the loader, the parameters of the chip, the speed, the erase
  have hwake : Goes j ([plainStep (.verify j.image.length)] ++ [plainStep .checkCancel] ++
      [plainStep .enterLoader] ++ [plainStep (.sync j.settings.syncAttempts.toNat)]) b
        { b.entered with outbox := [] } :=
    (((goes_verify hj.sizes).append (goes_checkCancel j b)).append (goes_enterLoader h)).append hsync
  have hchip : Goes j ([plainStep .checkCancel] ++
      [plainStep (j.command .spiAttach (List.replicate 8 0))] ++
      [plainStep (j.command .spiSetParams j.chipParameters)] ++ [plainStep .checkCancel])
        { b.entered with outbox := [] } { b.entered with outbox := [] } :=
    (((goes_checkCancel j _).append (goes_plain hlistening (.inl rfl) (by decide))).append
      (goes_plain hlistening (.inr (.inl rfl))
        (by simp [Job.chipParameters]))).append (goes_checkCancel j _)
  have hspeed : Goes j ((j.changeBaud j.device.flashBaud).map plainStep)
      { b.entered with outbox := [] }
      { b.entered with outbox := [], bauds := b.bauds ++ [j.device.flashBaud] } :=
    goes_changeBaud hlistening
  have hfast : Listening { b.entered with
      outbox := [], bauds := b.bauds ++ [j.device.flashBaud] } := ⟨⟨h, rfl, rfl⟩, rfl⟩
  have herase : Goes j ([plainStep (.checkCancelAt j.device.handshakeBaud)] ++
      [plainStep (.command ⟨.flashBegin, j.region, 0, j.eraseTimeout⟩)] ++ [plainStep .noteCancel])
        { b.entered with outbox := [], bauds := b.bauds ++ [j.device.flashBaud] } (b.opened j) :=
    ((goes_checkCancelAt j _ _).append (goes_flashBegin hfast)).append (goes_noteCancel j _)
  exact ((hwake.append hchip).append hspeed).append herase

/-- A board after the steps that follow the last block. -/
def closed (j : Job) (b : Board) : Board :=
  { { b with bauds := b.bauds ++ [j.device.handshakeBaud], flashFinished := true } with
    resets := b.resets + 1 }.boot

theorem goes_closing {j : Job} (hj : j.Feasible) {b : Board} (h : Listening b) :
    Goes j j.closing b (b.closed j) := by
  let slow : Board := { b with bauds := b.bauds ++ [j.device.handshakeBaud] }
  have hslow : Listening slow := ⟨⟨h.connected, h.mode, h.decoder⟩, h.outbox⟩
  have hspeed : Goes j ((j.changeBaud j.device.handshakeBaud).map fun a =>
      ⟨a, some j.image.length⟩) b slow := goes_changeBaud h
  have hend : Goes j [⟨j.command .flashEnd (Loader.words [1]), some j.image.length⟩] slow
      { slow with flashFinished := true } := by
    refine goes_told h.connected h.outbox ?_
    rw [receive_listening hslow (by simp)]
    rfl
  have hreset : Goes j [⟨.hardReset, some j.image.length⟩] { slow with flashFinished := true }
      (b.closed j) :=
    goes_onLink rfl ((hardReset_eq _).trans
      (ifConnected_of (b := { slow with flashFinished := true }) h.connected _))
  exact (goes_verify hj.sizes).append ((hspeed.append hend).append hreset)

/-- A board after a flash. -/
def flashed (j : Job) (b : Board) : Board :=
  ({ b.opened j with flash := j.blocks.flatten, blocks := j.blocks.length } : Board).closed j

/-- A board in the middle of a flash, with some blocks written. -/
def filled (j : Job) (b : Board) (blocks : List (List UInt8)) : Board :=
  { b.opened j with flash := blocks.flatten, blocks := blocks.length }

theorem listening_filled (j : Job) {b : Board} (h : b.connected = true) (blocks : List (List UInt8)) :
    Listening (b.filled j blocks) :=
  ⟨⟨h, rfl, rfl⟩, rfl⟩

/-- The first blocks of a flash, on a board whose cable holds for these. -/
theorem goes_firstBlocks {j : Job} (hj : j.Feasible) {b : Board} (hb : b.Answering)
    {bs : List (List UInt8)} (hbs : ∀ x ∈ bs, x.length = j.blockSize) (hcable : b.CabledFor bs.length)
    (hcount : bs.length < UInt32.size) :
    Goes j (j.opening.map plainStep ++ bs.zipIdx.flatMap j.blockSteps) b (b.filled j bs) := by
  have hopened : Listening (b.opened j) := ⟨⟨hb.connected, rfl, rfl⟩, rfl⟩
  -- the region has just been erased: the blocks are counted from zero
  have hzero : (b.opened j).blocks = 0 := rfl
  have hgoes := goes_blocks hj.admitted hbs hopened
    (by rw [hzero, Nat.zero_add]; exact hcable) rfl (by rw [hzero, Nat.zero_mul]; rfl)
    (by rw [hzero, Nat.zero_add]; exact hcount)
  rw [hzero, show (b.opened j).flash = [] from rfl, List.nil_append, Nat.zero_add] at hgoes
  exact (goes_opening hj hb).append hgoes

/-- **A job that can be done is done**, on every board that answers and whose cable holds. -/
theorem goes_plan {j : Job} (hj : j.Feasible) {b : Board} (hb : b.Answering)
    (hcable : b.CabledFor j.blockCount) : Goes j j.plan b (b.flashed j) := by
  have hblocks := goes_firstBlocks hj hb (Job.isPadded_blocks hj.positive).sizes
    (by rw [j.length_blocks]; exact hcable) (by rw [j.length_blocks]; exact hj.blockCount_lt)
  exact hblocks.append (goes_closing hj (listening_filled j hb.connected j.blocks))

/-! ## What is left of it -/

/-- A flash over a board that answers and whose cable holds succeeds, and leads to the board after it. -/
theorem flash_cabled {j : Job} (hj : j.Feasible) {b : Board} (hb : b.Answering)
    (hcable : b.CabledFor j.blockCount) :
    (BlockBoard.flash j (fun _ => false) b).result = .ok j.report ∧
      (BlockBoard.flash j (fun _ => false) b).link = b.flashed j := by
  obtain ⟨r', hrun, hidle⟩ := goes_plan hj hb hcable (.start j b) ⟨rfl, rfl, rfl⟩
  obtain ⟨hresult, hlink⟩ := flash_of_takeAll hrun
  exact ⟨hresult, hlink.trans hidle.link⟩

/-- What the flash of a board holds after a flash. The board has restarted since, which leaves it
alone. -/
theorem storage_flashed (j : Job) (b : Board) : (b.flashed j).storage =
    ⟨j.blocks.flatten, j.device.flashAddress, j.settings.blockSize, j.blocks.length, true⟩ :=
  (untouched_boot _).storage

/-- A flash changes the speed of the link twice, and nothing else of how the board is connected. -/
theorem wiring_flashed (j : Job) (b : Board) : (b.flashed j).wiring = { b.wiring with
    bauds := b.bauds ++ [j.device.flashBaud, j.device.handshakeBaud] } := by
  have hwiring : (b.flashed j).wiring = { b.wiring with
      bauds := b.bauds ++ [j.device.flashBaud] ++ [j.device.handshakeBaud] } :=
    (untouched_boot _).wiring
  rw [hwiring, List.append_assoc]
  rfl

end Board

end BlockBoard

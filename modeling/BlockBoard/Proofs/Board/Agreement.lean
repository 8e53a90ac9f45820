import Mathlib.Algebra.Order.Floor.Div
import BlockBoard.Proofs.Board.Receiving
import BlockBoard.Proofs.Loader.Interrupting
/-!
# Host and loader agree on the wire

What one side of the wire writes, the other side reads. The size field of a packet has sixteen bits, so
that this needs data of a bounded size; the check of the settings keeps every packet of a flash below
that bound.

- `Loader.Response.ofFrame?_packet`: **a response is read back from its packet**, whatever follows it;
  `Loader.Response.ofFrame?_eq_some_iff` says that nothing else is read as a response.
- `Board.receive_commandPacket`: **a loader does what the packet of a command says**.
- `Flash.Job.Declares`: the words that announce the image of a job.
- `Flash.Job.length_data_of_mem_plan`: **every packet of a flash fits its size field**.
- `wire_agreement`: all of it, for every configuration that passes its check.
-/

namespace BlockBoard

namespace Loader

/-! ## Responses -/

/-- The packet of a response. -/
def Response.packet (r : Response) : List UInt8 :=
  [responseByte, r.op] ++ halfWord r.data.length ++ wordBytes r.value ++ r.data

/-- The fields after the direction of a packet are read back, whatever follows the packet. -/
theorem packetFields?_append (op : UInt8) (word : UInt32) {data : List UInt8}
    (h : data.length < 65536) (trailing : List UInt8) :
    packetFields? ([op] ++ halfWord data.length ++ wordBytes word ++ data ++ trailing) =
      some (op, word, data) := by
  have hsize := toNat_halfWord h
  have hcovered : data.length ≤ (data ++ trailing).length := by
    rw [List.length_append]
    omega
  show packetFields? (op :: UInt8.ofNat data.length :: UInt8.ofNat (data.length / 256) ::
    word.toUInt8 :: (word >>> 8).toUInt8 :: (word >>> 16).toUInt8 :: (word >>> 24).toUInt8 ::
    (data ++ trailing)) = _
  rw [packetFields?]
  simp only [hsize, if_pos hcovered, List.take_left, wordOf_wordBytes]

/-- **A response is read back from its packet**, whatever follows it. -/
theorem Response.ofFrame?_packet {r : Response} (h : r.data.length < 65536)
    (trailing : List UInt8) : Response.ofFrame? (r.packet ++ trailing) = some r := by
  show Response.ofFrame? (responseByte ::
    ([r.op] ++ halfWord r.data.length ++ wordBytes r.value ++ r.data ++ trailing)) = _
  rw [Response.ofFrame?, if_pos rfl, packetFields?_append r.op r.value h]
  rfl

/-- Four bytes are the bytes of their word. -/
theorem wordBytes_wordOf (a b c d : UInt8) : wordBytes (wordOf a b c d) = [a, b, c, d] := by
  have ha := a.toNat_lt
  have hb := b.toNat_lt
  have hc := c.toNat_lt
  have hd := d.toNat_lt
  have hword := toNat_wordOf a b c d
  have hlow : (wordOf a b c d).toUInt8 = a := by
    apply UInt8.toNat_inj.mp
    rw [UInt32.toNat_toUInt8, hword]
    omega
  have hshifted (shift : UInt32) (k : Nat) (x : UInt8) (hk : shift.toNat % 32 = k)
      (h : (wordOf a b c d).toNat / 2 ^ k % 256 = x.toNat) :
      (wordOf a b c d >>> shift).toUInt8 = x := by
    apply UInt8.toNat_inj.mp
    rw [UInt32.toNat_toUInt8, UInt32.toNat_shiftRight, hk, Nat.shiftRight_eq_div_pow]
    exact h
  rw [wordBytes, hlow, hshifted 8 8 b rfl (by omega), hshifted 16 16 c rfl (by omega),
    hshifted 24 24 d rfl (by omega)]

/-- Two bytes are the bytes of their number. -/
theorem halfWord_of_bytes (a b : UInt8) : halfWord (a.toNat + 256 * b.toNat) = [a, b] := by
  have ha := a.toNat_lt
  have hb := b.toNat_lt
  have hlow : UInt8.ofNat (a.toNat + 256 * b.toNat) = a := by
    apply UInt8.toNat_inj.mp
    rw [UInt8.toNat_ofNat']
    omega
  have hhigh : UInt8.ofNat ((a.toNat + 256 * b.toNat) / 256) = b := by
    apply UInt8.toNat_inj.mp
    rw [UInt8.toNat_ofNat']
    omega
  rw [halfWord, hlow, hhigh]

/-- What is read as a response is the packet of one, and then anything. -/
theorem Response.ofFrame?_eq_some_iff {frame : List UInt8} {r : Response} :
    Response.ofFrame? frame = some r ↔
      r.data.length < 65536 ∧ ∃ trailing, frame = r.packet ++ trailing := by
  constructor
  · intro h
    unfold Response.ofFrame? packetFields? at h
    split at h
    · rename_i direction rest
      split at h
      · rename_i hdirection
        split at h
        · rename_i op s₀ s₁ w₀ w₁ w₂ w₃ rest
          dsimp only at h
          split at h
          · rename_i hsize
            obtain rfl := Option.some.inj h
            have hlength : (rest.take (s₀.toNat + 256 * s₁.toNat)).length =
                s₀.toNat + 256 * s₁.toNat := List.length_take_of_le hsize
            have h₀ := s₀.toNat_lt
            have h₁ := s₁.toNat_lt
            refine ⟨by dsimp only; omega, rest.drop (s₀.toNat + 256 * s₁.toNat), ?_⟩
            rw [Response.packet, hdirection]
            dsimp only
            rw [hlength, halfWord_of_bytes, wordBytes_wordOf, List.append_assoc, List.take_append_drop]
            rfl
          · cases h
        · cases h
      · cases h
    · cases h
  · rintro ⟨hlength, trailing, rfl⟩
    exact Response.ofFrame?_packet hlength trailing

end Loader

/-! ## Commands at the loader -/

namespace Board

/-- **A loader does what the packet of a command says.** -/
theorem receive_commandPacket {b : Board} (h : b.AtLoader) (op : UInt8) (check : UInt32)
    {data : List UInt8} (hdata : data.length < 65536) :
    b.receive (Slip.encode (Loader.commandPacket op data check)) = b.handleCommand op check data := by
  rw [receive_frame h (Loader.commandPacket_ne_nil op data check),
    Loader.commandOfFrame?_commandPacket op check hdata]

/-- The words of data are read back one by one. -/
theorem dataWord_words {ws : List UInt32} {i : Nat} (h : i < ws.length) :
    dataWord (Loader.words ws) i = ws[i] := by
  induction ws generalizing i with
  | nil => cases h
  | cons w r ih =>
    cases i with
    | zero => exact Loader.wordOf_wordBytes w
    | succ i =>
      have hdrop : (Loader.words (w :: r)).drop (4 * (i + 1)) = (Loader.words r).drop (4 * i) := by
        rw [Loader.words_cons, Nat.mul_succ, Nat.add_comm, ← List.drop_drop]
        rfl
      rw [dataWord, hdrop, List.getElem_cons_succ]
      exact ih (Nat.lt_of_succ_lt_succ h)

end Board

/-! ## The packets of a flash -/

namespace Flash

/-- The data of a command announces the image of a job: its length, its number of blocks, their size,
and where it goes. -/
structure Job.Declares (j : Job) (data : List UInt8) : Prop where
  length : (Board.dataWord data 0).toNat = j.image.length
  blocks : (Board.dataWord data 1).toNat = j.image.length ⌈/⌉ j.blockSize
  blockSize : (Board.dataWord data 2).toNat = j.blockSize
  address : Board.dataWord data 3 = j.device.flashAddress

/-- The command that erases the region announces the image. -/
theorem Job.declares_region {j : Job} (hsize : 0 < j.blockSize)
    (himage : j.image.length < UInt32.size) : j.Declares j.region := by
  have hcount : j.blockCount < UInt32.size :=
    Nat.lt_of_le_of_lt (Loader.blockCount_le hsize j.image.length) himage
  constructor
  · rw [Job.region, Board.dataWord_words (by simp)]
    exact UInt32.toNat_ofNat_of_lt' himage
  · rw [Job.region, Board.dataWord_words (by simp), Nat.ceilDiv_eq_add_pred_div]
    exact UInt32.toNat_ofNat_of_lt' hcount
  · rw [Job.region, Board.dataWord_words (by simp)]
    rfl
  · rw [Job.region, Board.dataWord_words (by simp)]
    rfl

/-- The commands of a plan are those of a complete flash. -/
theorem Job.mem_commands_of_mem_plan {j : Job} {s : Step} (hs : s ∈ j.plan) {c : Command}
    (hc : c ∈ s.action.commands) : c ∈ j.commands 1 := by
  rw [Job.plan, List.mem_append, List.mem_append, List.mem_map, List.mem_flatMap] at hs
  rcases hs with (⟨a, ha, rfl⟩ | ⟨b, hb, hs⟩) | hs
  · have hopening : ∀ a ∈ j.opening, ∀ c ∈ a.commands, c ∈ syncCommand :: j.commandsBefore := by
      simp [Job.opening, Job.changeBaud, Action.commands, Job.command, Job.commandsBefore,
        Job.plainCommand]
    have hmem := hopening a ha c hc
    simp only [Job.commands, List.replicate_one, List.cons_append,
      List.mem_append, List.mem_cons] at hmem ⊢
    tauto
  · simp only [Job.blockSteps, List.mem_cons, List.not_mem_nil, or_false] at hs
    rcases hs with rfl | rfl
    · obtain rfl := List.mem_singleton.mp hc
      have hmem : j.blockCommand b.2 b.1 ∈ j.blockCommands := List.mem_map.mpr ⟨b, hb, rfl⟩
      simp [Job.commands, hmem]
    · cases hc
  · have hclosing : ∀ s ∈ j.closing, ∀ c ∈ s.action.commands, c ∈ j.commandsAfter := by
      simp [Job.closing, Job.changeBaud, plainStep, Action.commands, Job.command, Job.commandsAfter,
        Job.plainCommand]
    have hmem := hclosing s hs c hc
    simp [Job.commands, hmem]

/-- **Every packet of a flash fits its size field.** -/
theorem Job.length_data_of_mem_plan {j : Job} (hpositive : 0 < j.blockSize)
    (hsize : j.blockSize ≤ 0xFFE0) {s : Step} (hs : s ∈ j.plan) {c : Command}
    (hc : c ∈ s.action.commands) : c.data.length < 65536 :=
  Job.length_data_lt hsize (Job.isPadded_blocks hpositive).sizes 1 c (j.mem_commands_of_mem_plan hs hc)

/-- The one command of a plan that erases announces the image. -/
theorem Job.data_of_flashBegin {j : Job} {s : Step} (hs : s ∈ j.plan) {c : Command}
    (hc : c ∈ s.action.commands) (hop : c.op = .flashBegin) : c.data = j.region := by
  have hmem := j.mem_commands_of_mem_plan hs hc
  simp only [Job.commands, List.mem_append, List.mem_replicate, Job.commandsBefore, Job.commandsAfter,
    Job.blockCommands, List.mem_map, List.mem_cons, List.not_mem_nil, or_false] at hmem
  rcases hmem with ((⟨-, rfl⟩ | (rfl | rfl | rfl | rfl)) | ⟨b, -, rfl⟩) | (rfl | rfl)
  all_goals first | rfl | cases hop

end Flash

open Flash

/-- **Host and loader agree on the wire.**

Every command whose data fits the size field is one frame, which a loader reads back, and every response
is read back by the host, whatever follows it in its frame; nothing else is read as a response. A
configuration that passes its check has a block size that can be divided by, and whatever the link answers
and whenever the flash is cancelled, everything that the flash writes is the frame of a command whose data
fits; the command that erases announces the image as it is. The record of the calls changes nothing: over
the link by itself, a flash goes the same way. -/
theorem wire_agreement :
    (∀ (op : UInt8) (check : UInt32) (data : List UInt8), data.length ≤ 65535 →
      ({} : Slip.Decoder).feed (Slip.encode (Loader.commandPacket op data check)) =
          ([Loader.commandPacket op data check], {}) ∧
        Loader.commandOfFrame? (Loader.commandPacket op data check) = some (op, check, data) ∧
        ∀ b : Board, b.AtLoader →
          b.receive (Slip.encode (Loader.commandPacket op data check)) =
            b.handleCommand op check data) ∧
    (∀ (r : Loader.Response) (frame : List UInt8), Loader.Response.ofFrame? frame = some r ↔
      r.data.length ≤ 65535 ∧ ∃ trailing, frame = r.packet ++ trailing) ∧
    (∀ (s : Settings) (j : Job), s.check = .ok () → j.settings = s.flash →
      j.image.length < UInt32.size → 0 < j.blockSize ∧
        ∀ {σ : Type} [Transport σ] (cancelled : Recorded σ → Bool) (port : σ) (bs : List UInt8)
          (answer : Except LinkError Unit),
          .write bs answer ∈ (recordedFlash j cancelled port).link.calls →
            ∃ c : Command, bs = Slip.encode (Loader.commandPacket c.op.code c.data c.check) ∧
              c.data.length ≤ 65535 ∧ (c.op = .flashBegin → j.Declares c.data)) ∧
    ∀ (σ : Type) [Transport σ] (j : Job) (stop : σ → Bool) (port : σ),
      flash j stop port = (recordedFlash j (fun l => stop l.link) port).over Recorded.link := by
  refine ⟨fun op check data hdata => ⟨?_, ?_, fun b hb => ?_⟩, fun r frame => ?_,
    fun s j hs hsettings himage => ?_, fun σ _ => flash_eq_recordedFlash⟩
  · exact Slip.Decoder.feed_encode (Loader.commandPacket_ne_nil op data check)
  · exact Loader.commandOfFrame?_commandPacket op check (Nat.lt_succ_of_le hdata)
  · exact Board.receive_commandPacket hb op check (Nat.lt_succ_of_le hdata)
  · rw [Loader.Response.ofFrame?_eq_some_iff, Nat.lt_succ_iff]
  · obtain ⟨hpositive, hsize⟩ := Settings.blockSize_of_check hs
    rw [← hsettings] at hpositive hsize
    refine ⟨hpositive, fun cancelled port bs answer hmem => ?_⟩
    obtain ⟨calls, hcalls, hof⟩ := takeAll_adds j cancelled j.plan (.start j { link := port })
    have hmem : .write bs answer ∈ calls := by
      have hlink : (recordedFlash j cancelled port).link.calls = [] ++ calls := hcalls
      rwa [hlink] at hmem
    -- a write is none of the reads, so that it comes from a step of the plan
    rcases hof _ hmem with hread | ⟨step, hstep, hmay⟩
    · cases hread
    · obtain ⟨c, hc, rfl⟩ := List.mem_map.mp
        (show bs ∈ step.action.commands.map Command.frame from hmay)
      refine ⟨c, rfl, ?_, fun hop => ?_⟩
      · exact Nat.le_of_lt_succ (Job.length_data_of_mem_plan hpositive hsize hstep hc)
      · rw [Job.data_of_flashBegin hstep hc hop]
        exact Job.declares_region hpositive himage

/-- A packet full of bytes that have to be escaped, a response with a byte after it, and the announcement
of two blocks. -/
theorem wire_agreement_twoBlocks :
    Loader.commandOfFrame? (Loader.commandPacket 8 [0xC0, 0xDB] 0xC0DBC0DB) =
      some (8, 0xC0DBC0DB, [0xC0, 0xDB]) ∧
    Loader.Response.ofFrame? (Loader.Response.packet ⟨8, 0xC0DB, [0, 0]⟩ ++ [0xC0]) =
      some ⟨8, 0xC0DB, [0, 0]⟩ ∧
    ∃ c : Command, twoBlocks.eraseCommand.frame =
        Slip.encode (Loader.commandPacket c.op.code c.data c.check) ∧
      c.data.length ≤ 65535 ∧ (c.op = .flashBegin → twoBlocks.Declares c.data) := by
  obtain ⟨hcommand, hresponse, hflash, -⟩ := wire_agreement
  have hs : Settings.check { flash := { blockSize := 4 } } = .ok () := by decide +kernel
  have hmem : .write twoBlocks.eraseCommand.frame (.ok ()) ∈
      (recordedFlash twoBlocks (fun _ => false) silentLink).link.calls := by decide +kernel
  refine ⟨(hcommand 8 0xC0DBC0DB [0xC0, 0xDB] (by decide)).2.1,
    (hresponse ⟨8, 0xC0DB, [0, 0]⟩ _).mpr ⟨by decide, [0xC0], rfl⟩, ?_⟩
  exact (hflash _ twoBlocks hs rfl (by decide)).2 (fun _ => false) silentLink _ _ hmem

end BlockBoard

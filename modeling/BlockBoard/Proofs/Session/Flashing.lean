import BlockBoard.Proofs.Board.Running
import BlockBoard.Proofs.Loader.Completeness
import BlockBoard.Proofs.Session.Reachable
/-!
# Flashing from end to end

A session that is asked to flash an image stops a program that runs, sends the image, and is connected
again. Over a simulated board without a fault nothing of this fails, whatever has happened to the session
and to the board before, and the board holds the image.

- `Board.halt_untouched`: a program on a connected board can be stopped.
- `Conduct.flash_cabled_board`: a request to flash, from any session that holds a link.
- `flash_reachable_board`: **an image that is flashed ends up on the board**, for every session that can
  be reached.
-/

namespace BlockBoard

/-! ## Stopping a program -/

/-- What is said to stop a program reaches every connected board. -/
theorem Board.halt_connected {b : Board} (h : b.connected = true) :
    (Conduct.halt : Operation Board SessionError Unit).outcome b =
      (.ok (), ({ b.receive Conduct.interruption with outbox := [] } : Board).receive Conduct.leave) := by
  have huntouched : Untouched b (b.receive Conduct.interruption) := untouched_receive (by decide)
  exact (Operation.bind_of_ok (interrupt_connected h)).trans (Operation.mapError_of_ok
    (outcome_send (b := { b.receive Conduct.interruption with outbox := [] })
      (huntouched.connected.trans h) _))

/-- It leaves flash and wiring of the board alone. -/
theorem Board.halt_untouched {b : Board} (h : b.connected = true) :
    ∃ b', (Conduct.halt : Operation Board SessionError Unit).outcome b = (.ok (), b') ∧
      Untouched b b' := by
  have htold : Untouched b (b.receive Conduct.interruption) := untouched_receive (by decide)
  have hheard : Untouched b { b.receive Conduct.interruption with outbox := [] } :=
    htold.trans ⟨rfl, rfl⟩
  exact ⟨_, halt_connected h, hheard.trans (untouched_receive (by decide))⟩

namespace Conduct

/-- A session that is about to flash: it is connected, with its link and its settings. -/
structure Prepared (d d' : Desk Board) : Prop where
  state : d'.session.state = .connected
  linked : d'.session.linked = true
  device : d'.session.device = d.session.device
  flashing : d'.session.flashing = d.session.flashing
  port : Board.Untouched d.port d'.port

/-- Whether a program runs or not, none does afterwards. -/
theorem quiesce_connected {d : Desk Board}
    (hstate : d.session.state = .connected ∨ d.session.state = .running)
    (hlinked : d.session.linked = true) (hport : d.port.connected = true) :
    ∃ d', (quiesce : Conduct Board Unit).outcome d = (.ok (), d') ∧ Prepared d d' := by
  rcases hstate with hconnected | hrunning
  · exact ⟨d, quiesce_of_not_running (by simp [hconnected]), hconnected, hlinked, rfl, rfl, .refl _⟩
  · obtain ⟨port, hhalt, huntouched⟩ := Board.halt_untouched hport
    exact ⟨_, quiesce_of_halt hrunning hlinked hhalt, rfl, hlinked, rfl, rfl, huntouched⟩

/-! ## A request to flash -/

theorem Prepared.job_eq {d d' : Desk Board} (h : Prepared d d') (image : List UInt8) (expected : Nat) :
    job d' image expected = job d image expected := by
  rw [job, h.device, h.flashing]
  rfl

/-- A session that holds a link to a board that answers flashes whatever the cable of the board holds
for. -/
theorem flash_cabled_board (image : List UInt8) (expected : Nat) {d : Desk Board}
    (hstate : d.session.state = .connected ∨ d.session.state = .running)
    (hlinked : d.session.linked = true) (hboard : d.port.Answering)
    (hcable : d.port.CabledFor (job d image expected).blockCount)
    (hjob : (job d image expected).Feasible) :
    ∃ d' b, (flash (fun _ => false) image expected).outcome d =
        (.ok (job d image expected).report, d') ∧
      Board.Untouched d.port b ∧ d'.port = b.flashed (job d image expected) ∧
      d'.session.state = .connected := by
  obtain ⟨d₁, hquiesce, hready⟩ :=
    quiesce_connected (d := begun image d) hstate hlinked hboard.connected
  have hsame : job d₁ image expected = job d image expected := hready.job_eq image expected
  obtain ⟨hresult, hlink⟩ := Board.flash_cabled hjob (hboard.of_untouched hready.port)
    (hcable.of_untouched hready.port)
  have hflash := flash_of_ok hstate hquiesce hready.state hready.linked (hsame ▸ hresult)
  rw [hsame] at hflash
  exact ⟨_, d₁.port, hflash, hready.port, hlink, rfl⟩

end Conduct

/-! ## Everything together -/

/-- What a flash of an image with some settings makes of a board: it holds the image and then only ones,
up to the end of the last block, at the address in the settings. -/
structure Board.Reflashed (s : Settings) (image : List UInt8) (b b' : Board) : Prop where
  contents : b'.flash = s.device.stamp image ++
    List.replicate ((image.length + s.flash.blockSize.toNat - 1) / s.flash.blockSize.toNat *
      s.flash.blockSize.toNat - image.length) 0xFF
  address : b'.flashOffset = s.device.flashAddress
  finished : b'.flashFinished = true
  bauds : b'.bauds = b.bauds ++ [s.device.flashBaud, s.device.handshakeBaud]

/-- A session that can be reached and is connected, or runs a program, holds a link. -/
theorem Desk.Reachable.linked {σ : Type} [Connector σ] {s : Settings} {d : Desk σ} (hd : d.Reachable s)
    (hstate : d.session.state = .connected ∨ d.session.state = .running) : d.session.linked = true := by
  refine hd.sound.1.linked ?_
  rcases hstate with h | h <;> rw [h] <;> rfl

/-- What it is to flash follows its settings. -/
theorem Desk.Reachable.job_eq {σ : Type} [Connector σ] {s : Settings} {d : Desk σ} (hd : d.Reachable s)
    (image : List UInt8) (expected : Nat) :
    Conduct.job d image expected = ⟨s.device, s.flash, image, expected⟩ := by
  obtain ⟨-, hdevice, hflashing⟩ := hd.sound
  rw [Conduct.job, hdevice, hflashing]

/-- With settings that pass their check, every image whose sizes are in order can be sent. -/
theorem Settings.feasible {s : Settings} (hs : s.check = .ok ()) (hattempts : 1 ≤ s.flash.syncAttempts.toNat)
    {image : List UInt8} (himage : image.length < UInt32.size) {expected : Nat}
    (hsizes : verifyTransferSize image.length expected s.flash.minTransferRatio = .ok ()) :
    (⟨s.device, s.flash, image, expected⟩ : Flash.Job).Feasible :=
  ⟨(blockSize_of_check hs).1, (blockSize_of_check hs).2, himage, hattempts, hsizes⟩

theorem Board.reflashed_flashed {s : Settings} (hs : s.check = .ok ()) (image : List UInt8)
    (expected : Nat) {b₀ b : Board} (h : Untouched b₀ b) :
    Reflashed s image b₀ (b.flashed ⟨s.device, s.flash, image, expected⟩) := by
  have hpadded := Flash.Job.isPadded_blocks (j := ⟨s.device, s.flash, image, expected⟩)
    (Settings.blockSize_of_check hs).1
  have hstorage := Board.storage_flashed ⟨s.device, s.flash, image, expected⟩ b
  have hwiring := Board.wiring_flashed ⟨s.device, s.flash, image, expected⟩ b
  refine ⟨?_, congrArg Storage.offset hstorage, congrArg Storage.finished hstorage, ?_⟩
  · rw [show Board.flash _ = _ from congrArg Storage.flash hstorage, hpadded.contents, hpadded.count,
      Loader.length_patchHeader, Loader.patchHeader_eq_stamp]
    rfl
  · have hbauds : b.bauds = b₀.bauds := congrArg Wiring.bauds h.wiring
    rw [← hbauds]
    exact congrArg Wiring.bauds hwiring

/-- An image whose blocks the cable of the board holds for ends up on the board. -/
theorem Desk.Reachable.flash_cabled {s : Settings} (hs : s.check = .ok ())
    (hattempts : 1 ≤ s.flash.syncAttempts.toNat) {d : Desk Board} (hd : d.Reachable s)
    (hstate : d.session.state = .connected ∨ d.session.state = .running) (hboard : d.port.Answering)
    {image : List UInt8} (himage : image.length < UInt32.size) {expected : Nat}
    (hsizes : verifyTransferSize image.length expected s.flash.minTransferRatio = .ok ())
    (hcable : d.port.CabledFor ((image.length + s.flash.blockSize.toNat - 1) / s.flash.blockSize.toNat)) :
    ∃ d', ((Request.flash image expected).perform fun _ => false).outcome d =
        (.ok (.flashed
          { written := image.length, expected
            blocks := (image.length + s.flash.blockSize.toNat - 1) / s.flash.blockSize.toNat
            address := s.device.flashAddress }), d') ∧
      Board.Reflashed s image d.port d'.port ∧ d'.session.state = .connected := by
  have hjob := Settings.feasible hs hattempts himage hsizes
  have hsame := hd.job_eq image expected
  obtain ⟨d', b, hflash, hb, hport, hdone⟩ := Conduct.flash_cabled_board image expected hstate
    (hd.linked hstate) hboard (by rw [hsame]; exact hcable) (by rw [hsame]; exact hjob)
  rw [hsame] at hflash hport
  -- the number of blocks is reported as a word, which holds it
  have hcount : (UInt32.ofNat (Flash.Job.blockCount ⟨s.device, s.flash, image, expected⟩)).toNat =
      (image.length + s.flash.blockSize.toNat - 1) / s.flash.blockSize.toNat :=
    UInt32.toNat_ofNat_of_lt' hjob.blockCount_lt
  refine ⟨d', ?_, hport ▸ Board.reflashed_flashed hs image expected hb, hdone⟩
  rw [← hcount]
  exact Operation.bind_of_ok hflash

/-- **An image that is flashed ends up on the board.**

For all settings that pass their check and allow an attempt to wake the loader, every session that can be
reached with them and is connected, whether or not a program runs, every healthy board at its other end,
every image whose length fits a word and every declared size that is in order: the flash succeeds and says
what it has written, the board holds the image, and the session is connected. -/
theorem flash_reachable_board {s : Settings} (hs : s.check = .ok ())
    (hattempts : 1 ≤ s.flash.syncAttempts.toNat) {d : Desk Board} (hd : d.Reachable s)
    (hstate : d.session.state = .connected ∨ d.session.state = .running) (hboard : d.port.Healthy)
    {image : List UInt8} (himage : image.length < UInt32.size) {expected : Nat}
    (hsizes : verifyTransferSize image.length expected s.flash.minTransferRatio = .ok ()) :
    ∃ d', ((Request.flash image expected).perform fun _ => false).outcome d =
        (.ok (.flashed
          { written := image.length, expected
            blocks := (image.length + s.flash.blockSize.toNat - 1) / s.flash.blockSize.toNat
            address := s.device.flashAddress }), d') ∧
      Board.Reflashed s image d.port d'.port ∧ d'.session.state = .connected := by
  exact hd.flash_cabled hs hattempts hstate hboard.answering himage hsizes (hboard.cabledFor _)

/-- Settings with small blocks. -/
def smallBlocks : Settings := { flash := { blockSize := 4 } }

/-- A program that never ends. -/
def endlessProgram : Program := ⟨[], "", "while True:\n    pass"⟩

/-- A session that has connected to a board and runs a program that never ends. -/
def runningDesk : Desk Board :=
  ((Desk.start smallBlocks.device smallBlocks.flash smallBlocks.maxLines.toNat ({} : Board)).after
    (.request (fun _ => false) .connect)).after (.request (fun _ => false) (.run endlessProgram))

theorem runningDesk_reachable : runningDesk.Reachable smallBlocks :=
  ((Desk.Reachable.start _).after _).after _

/-- The session says that its program runs, and so it does. -/
theorem runningDesk_runs : runningDesk.session.state = .running ∧
    runningDesk.states = [.connecting, .connected, .running] ∧
    runningDesk.port =
      { connected := true, mode := .interpreter true, running := true, programs := [endlessProgram.source] } := by
  decide +kernel

theorem flash_reachable_board_running :
    runningDesk.Reachable smallBlocks ∧ runningDesk.session.state = .running ∧
    ∃ d', ((Request.flash [0xE9, 1, 2, 3, 4] 5).perform fun _ => false).outcome runningDesk =
        (.ok (.flashed ⟨5, 5, 2, 0⟩), d') ∧
      d'.port.flash = [0xE9, 1, 2, 0x3F, 4, 0xFF, 0xFF, 0xFF] ∧
      d'.port.bauds = [921600, 115200] ∧ d'.session.state = .connected := by
  obtain ⟨hstate, -, hport⟩ := runningDesk_runs
  obtain ⟨d', hrun, hflashed, hdone⟩ := flash_reachable_board (s := smallBlocks) (by decide +kernel)
    (by decide) runningDesk_reachable (.inr hstate)
    ⟨by rw [hport], by rw [hport], by rw [hport]⟩
    (show ([0xE9, 1, 2, 3, 4] : List UInt8).length < UInt32.size by decide)
    (show verifyTransferSize 5 5 smallBlocks.flash.minTransferRatio = .ok () by decide +kernel)
  refine ⟨runningDesk_reachable, hstate, d', hrun, hflashed.contents, ?_, hdone⟩
  rw [hflashed.bauds, hport]
  rfl

end BlockBoard

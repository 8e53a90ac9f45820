import BlockBoard.Proofs.Board.Unplugging
import BlockBoard.Proofs.Session.Flashing
/-!
# Losing the board in the middle of a flash

A board that is unplugged while it is being flashed answers nothing any more, not even to the block that
it has just written. The session then reports the bytes that were acknowledged, and holds no link.

- `Conduct.flash_cutOff_board`: a request to flash, from any session that holds a link.
- `flash_unplugged`: **link loss during a flash is reported with the acknowledged bytes**, for every
  session that can be reached and every block after which the cable gives way.
-/

namespace BlockBoard

namespace Conduct

/-- A session whose board loses its cable after some blocks that were acknowledged. -/
theorem flash_cutOff_board (image : List UInt8) (expected : Nat) {n : Nat} {d : Desk Board}
    (hstate : d.session.state = .connected ∨ d.session.state = .running)
    (hlinked : d.session.linked = true) (hboard : d.port.Answering) (hcable : d.port.CabledFor n)
    (hcut : ∃ k ∈ d.port.options.unplugAfter, k ≤ n + 1)
    (hjob : (job d image expected).Feasible) (hn : n < (job d image expected).blockCount) :
    ∃ d', ∃ b : Board, (flash (fun _ => false) image expected).outcome d =
        (.error (.interrupted ((job d image expected).bytesIn n) .closed), d') ∧
      d'.port = b.cutOff (job d image expected) ((job d image expected).blocks.take (n + 1)) ∧
      d'.session.state = .error := by
  obtain ⟨d₁, hquiesce, hready⟩ :=
    quiesce_connected (d := begun image d) hstate hlinked hboard.connected
  have hsame : job d₁ image expected = job d image expected := hready.job_eq image expected
  have hoptions : d₁.port.options = d.port.options := congrArg Board.Wiring.options hready.port.wiring
  obtain ⟨hresult, hlink⟩ := Board.flash_cutOff hjob (hboard.of_untouched hready.port)
    (hcable.of_untouched hready.port) (by rwa [hoptions]) hn
  rw [← hsame] at hresult
  obtain ⟨notices, hflash⟩ :=
    flash_of_error (by nofun) hstate hquiesce hready.state hready.linked hresult
  rw [hsame] at hflash
  refine ⟨_, d₁.port, hflash, ?_, rfl⟩
  show (Desk.movedIfPossible _ _).port = _
  rw [Desk.port_movedIfPossible]
  exact hlink

end Conduct

/-- **Link loss during a flash is reported with the acknowledged bytes.**

For all settings that pass their check and allow an attempt to wake the loader, every session that can be
reached with them and is connected, whether or not a program runs, every board at its other end that
answers and is unplugged once it has accepted `n` blocks, every image that is not empty and whose length
fits a word, and every declared size that is in order: the cable gives way with block `max n 1`. If the
image has fewer blocks, the flash succeeds. Otherwise the session reports an interruption with the bytes
of all the blocks before that one, although the board has written it too; the flash is not finished, and
the session has failed. -/
theorem flash_unplugged {s : Settings} (hs : s.check = .ok ()) (hattempts : 1 ≤ s.flash.syncAttempts.toNat)
    {d : Desk Board} (hd : d.Reachable s)
    (hstate : d.session.state = .connected ∨ d.session.state = .running) (hboard : d.port.Answering)
    {n : Nat} (hunplug : d.port.options.unplugAfter = some n) {image : List UInt8} (hne : image ≠ [])
    (himage : image.length < UInt32.size) {expected : Nat}
    (hsizes : verifyTransferSize image.length expected s.flash.minTransferRatio = .ok ()) :
    let size := s.flash.blockSize.toNat
    let count := (image.length + size - 1) / size
    let last := max n 1
    (count < last → ∃ d', ((Request.flash image expected).perform fun _ => false).outcome d =
        (.ok (.flashed
          { written := image.length, expected, blocks := count, address := s.device.flashAddress }), d') ∧
      Board.Reflashed s image d.port d'.port ∧ d'.session.state = .connected) ∧
    (last ≤ count → ∃ d', ((Request.flash image expected).perform fun _ => false).outcome d =
        (.error (.interrupted ((last - 1) * size) .closed), d') ∧
      d'.port.flash = (s.device.stamp image ++
        List.replicate (count * size - image.length) 0xFF).take (last * size) ∧
      d'.port.flashFinished = false ∧ d'.session.state = .error) := by
  intro size count last
  have hpositive : 0 < size := (Settings.blockSize_of_check hs).1
  have hlength : 0 < image.length := List.length_pos_iff.mpr hne
  have hcount : 0 < count := Nat.div_pos (by omega) hpositive
  refine ⟨fun hlong => ?_, fun hshort => ?_⟩
  · refine hd.flash_cabled hs hattempts hstate hboard himage hsizes fun k hk => ?_
    obtain rfl : n = k := Option.some.inj (hunplug.symm.trans hk)
    exact hlong
  · -- the blocks before the last one that is written are acknowledged, and hold bytes of the image only
    have hlast : last - 1 + 1 = last := by omega
    have hsame := hd.job_eq image expected
    have hjob := Settings.feasible hs hattempts himage hsizes
    have hbefore : last - 1 < Loader.blockCount size image.length := by
      show last - 1 < count
      omega
    have hcable : d.port.CabledFor (last - 1) := fun k hk => by
      obtain rfl : n = k := Option.some.inj (hunplug.symm.trans hk)
      omega
    obtain ⟨d', b, hflash, hport, hfailed⟩ := Conduct.flash_cutOff_board image expected hstate
      (hd.linked hstate) hboard hcable ⟨n, hunplug, by omega⟩ (by rw [hsame]; exact hjob)
      (by rw [hsame]; exact hbefore)
    rw [hsame] at hflash hport
    have hpadded := Flash.Job.isPadded_blocks hjob.positive
    have hbytes : Flash.Job.bytesIn ⟨s.device, s.flash, image, expected⟩ (last - 1) = (last - 1) * size :=
      Nat.min_eq_right (Nat.le_of_lt (Loader.mul_lt_of_lt_blockCount hpositive hbefore))
    rw [hbytes] at hflash
    refine ⟨d', Operation.bind_of_error hflash, ?_, ?_, hfailed⟩
    · rw [hport, hlast]
      show (List.take last _).flatten = _
      rw [flatten_take hpadded.sizes, hpadded.contents, hpadded.count, Loader.length_patchHeader,
        Loader.patchHeader_eq_stamp]
      rfl
    · rw [hport]
      rfl

/-- A session that runs a program that never ends, on a board that is unplugged after two blocks. -/
def frayedDesk : Desk Board :=
  ((Desk.start smallBlocks.device smallBlocks.flash smallBlocks.maxLines.toNat
    ({ options := { unplugAfter := some 2 } } : Board)).after
      (.request (fun _ => false) .connect)).after (.request (fun _ => false) (.run endlessProgram))

/-- Both blocks of an image are on the board, and the first of them is reported. -/
theorem flash_unplugged_last :
    frayedDesk.Reachable smallBlocks ∧ frayedDesk.session.state = .running ∧
    ∃ d', ((Request.flash [0xE9, 1, 2, 3, 4] 5).perform fun _ => false).outcome frayedDesk =
        (.error (.interrupted 4 .closed), d') ∧
      d'.port.flash = [0xE9, 1, 2, 0x3F, 4, 0xFF, 0xFF, 0xFF] ∧
      d'.port.flashFinished = false ∧ d'.session.state = .error := by
  have hreachable : frayedDesk.Reachable smallBlocks := ((Desk.Reachable.start _).after _).after _
  have hdesk : frayedDesk.session.state = .running ∧ frayedDesk.port.connected = true ∧
      frayedDesk.port.options = { unplugAfter := some 2 } := by decide +kernel
  obtain ⟨hstate, hconnected, hoptions⟩ := hdesk
  refine ⟨hreachable, hstate, (flash_unplugged (s := smallBlocks) (by decide +kernel) (by decide)
    hreachable (.inr hstate) ⟨hconnected, by rw [hoptions]⟩ (by rw [hoptions])
    (show ([0xE9, 1, 2, 3, 4] : List UInt8) ≠ [] by decide) (by decide)
    (show verifyTransferSize 5 5 smallBlocks.flash.minTransferRatio = .ok () by decide +kernel)).2 ?_⟩
  decide

end BlockBoard

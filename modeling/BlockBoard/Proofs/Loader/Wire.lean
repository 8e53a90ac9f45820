import BlockBoard.Loader.Flashing
import BlockBoard.Proofs.Link.Framing
/-!
# Commands on the wire

What can be read off the bytes that carry commands to the loader.

- `Loader.wordOf_wordBytes`: a word is read back from its bytes.
- `Loader.commandOfFrame?_commandPacket`: **a command is read back from its packet**, as long as its
  data fits the sixteen bits of the size field.
- `Loader.commandsIn`: the commands in a stream of bytes, by the loader's own receiver.
- `Loader.commandsIn_frames`: the commands in the frames of some commands are those commands.
-/

namespace BlockBoard

namespace Loader

/-! ## Words -/

/-- The bytes of a word are its digits to the base 256. -/
theorem toNat_wordOf (a b c d : UInt8) :
    (wordOf a b c d).toNat = a.toNat + 256 * b.toNat + 65536 * c.toNat + 16777216 * d.toNat := by
  have ha := a.toNat_lt
  have hb := b.toNat_lt
  have hc := c.toNat_lt
  have hd := d.toNat_lt
  -- no byte overlaps those below it, so that each disjunction is a sum
  have hab : a.toNat ||| b.toNat <<< 8 = a.toNat + 256 * b.toNat := by
    rw [Nat.or_comm, ← Nat.shiftLeft_add_eq_or_of_lt (by omega), Nat.shiftLeft_eq]
    omega
  have habc : (a.toNat + 256 * b.toNat) ||| c.toNat <<< 16 =
      a.toNat + 256 * b.toNat + 65536 * c.toNat := by
    rw [Nat.or_comm, ← Nat.shiftLeft_add_eq_or_of_lt (by omega), Nat.shiftLeft_eq]
    omega
  have habcd : (a.toNat + 256 * b.toNat + 65536 * c.toNat) ||| d.toNat <<< 24 =
      a.toNat + 256 * b.toNat + 65536 * c.toNat + 16777216 * d.toNat := by
    rw [Nat.or_comm, ← Nat.shiftLeft_add_eq_or_of_lt (by omega), Nat.shiftLeft_eq]
    omega
  have hb' : b.toNat <<< 8 % 4294967296 = b.toNat <<< 8 :=
    Nat.mod_eq_of_lt (by rw [Nat.shiftLeft_eq]; omega)
  have hc' : c.toNat <<< 16 % 4294967296 = c.toNat <<< 16 :=
    Nat.mod_eq_of_lt (by rw [Nat.shiftLeft_eq]; omega)
  have hd' : d.toNat <<< 24 % 4294967296 = d.toNat <<< 24 :=
    Nat.mod_eq_of_lt (by rw [Nat.shiftLeft_eq]; omega)
  simp only [wordOf, UInt32.toNat_or, UInt32.toNat_shiftLeft, UInt8.toNat_toUInt32]
  show ((a.toNat ||| b.toNat <<< 8 % 4294967296) ||| c.toNat <<< 16 % 4294967296) |||
    d.toNat <<< 24 % 4294967296 = _
  rw [hb', hc', hd', hab, habc, habcd]

/-- A word is read back from its bytes. -/
theorem wordOf_wordBytes (w : UInt32) :
    wordOf w.toUInt8 (w >>> 8).toUInt8 (w >>> 16).toUInt8 (w >>> 24).toUInt8 = w := by
  have hw := w.toNat_lt
  apply UInt32.toNat_inj.mp
  rw [toNat_wordOf]
  simp only [UInt32.toNat_toUInt8, UInt32.toNat_shiftRight]
  show w.toNat % 256 + 256 * (w.toNat >>> 8 % 256) + 65536 * (w.toNat >>> 16 % 256) +
    16777216 * (w.toNat >>> 24 % 256) = _
  simp only [Nat.shiftRight_eq_div_pow]
  omega

theorem length_wordBytes (w : UInt32) : (wordBytes w).length = 4 := rfl

theorem words_cons (w : UInt32) (ws : List UInt32) : words (w :: ws) = wordBytes w ++ words ws := rfl

@[simp] theorem length_words (ws : List UInt32) : (words ws).length = 4 * ws.length := by
  induction ws with
  | nil => rfl
  | cons w r ih =>
    rw [words_cons, List.length_append, length_wordBytes, ih, List.length_cons]
    omega

/-! ## Packets -/

theorem commandPacket_ne_nil (op : UInt8) (data : List UInt8) (check : UInt32) :
    commandPacket op data check ≠ [] := by
  simp [commandPacket]

/-- The size field holds what fits sixteen bits. -/
theorem toNat_halfWord {n : Nat} (h : n < 65536) :
    (UInt8.ofNat n).toNat + 256 * (UInt8.ofNat (n / 256)).toNat = n := by
  simp only [UInt8.toNat_ofNat']
  omega

/-- **A command is read back from its packet.** -/
theorem commandOfFrame?_commandPacket (op : UInt8) (check : UInt32) {data : List UInt8}
    (h : data.length < 65536) :
    commandOfFrame? (commandPacket op data check) = some (op, check, data) := by
  have hsize := toNat_halfWord h
  show packetFields? (op :: UInt8.ofNat data.length :: UInt8.ofNat (data.length / 256) ::
    check.toUInt8 :: (check >>> 8).toUInt8 :: (check >>> 16).toUInt8 :: (check >>> 24).toUInt8 ::
    data) = _
  rw [packetFields?]
  simp only [hsize, Nat.le_refl, if_true, List.take_length, wordOf_wordBytes]

/-! ## Streams of commands -/

/-- Whether an operation changes what the flash holds. -/
def Op.writesFlash : Op → Bool
  | .flashBegin | .flashData | .flashEnd => true
  | _ => false

/-- The operation of a packet is what the loader takes it for. -/
theorem op_of_commandOfFrame? {op op' : UInt8} {check : UInt32} {rest data : List UInt8}
    (h : commandOfFrame? (requestByte :: op :: rest) = some (op', check, data)) : op' = op := by
  rw [commandOfFrame?, if_pos rfl] at h
  unfold packetFields? at h
  split at h
  · rename_i heq
    obtain ⟨rfl, -⟩ := List.cons.inj heq
    dsimp only at h
    split at h
    · simp only [Option.some.injEq, Prod.mk.injEq] at h
      exact h.1.symm
    · cases h
  · cases h

/-- The commands in a stream of bytes: each frame of it as the loader understands it. -/
def commandsIn (bs : List UInt8) : List (Option (UInt8 × UInt32 × List UInt8)) :=
  (({} : Slip.Decoder).feed bs).1.map commandOfFrame?

end Loader

namespace Flash

/-- What a command says to the loader: its operation, its check word and its data. -/
def Command.fields (c : Command) : UInt8 × UInt32 × List UInt8 := (c.op.code, c.check, c.data)

/-- What carries a command over the link. -/
def Command.frame (c : Command) : List UInt8 := Slip.encode c.packet

theorem Command.packet_ne_nil (c : Command) : c.packet ≠ [] := Loader.commandPacket_ne_nil _ _ _

/-- The frame of a command, read by a loader that holds nothing. -/
theorem Command.feed_frame (c : Command) :
    ({} : Slip.Decoder).feed c.frame = ([c.packet], {}) :=
  Slip.Decoder.feed_encode c.packet_ne_nil

/-- A block of an admitted size fits a packet, with the four words in front of it. -/
theorem Job.length_blockCommand_lt (j : Job) (hsize : j.blockSize ≤ 0xFFE0) (index : Nat)
    {block : List UInt8} (hblock : block.length = j.blockSize) :
    (j.blockCommand index block).data.length < 65536 := by
  have hlength : (j.blockCommand index block).data.length = 16 + j.blockSize := by
    simp [Job.blockCommand, hblock]
  omega

/-- The commands in the frames of some commands are those commands. -/
theorem commandsIn_frames {cs : List Command} (h : ∀ c ∈ cs, c.data.length < 65536) :
    Loader.commandsIn (cs.flatMap Command.frame) = (cs.map Command.fields).map some := by
  have hframes : cs.flatMap Command.frame = (cs.map Command.packet).flatMap Slip.encode := by
    rw [List.flatMap_map]
    rfl
  have hne : ∀ p ∈ cs.map Command.packet, p ≠ [] := by
    intro p hp
    obtain ⟨c, -, rfl⟩ := List.mem_map.mp hp
    exact c.packet_ne_nil
  rw [Loader.commandsIn, hframes, Slip.Decoder.feed_flatMap_encode hne, List.map_map, List.map_map]
  exact List.map_congr_left fun c hc =>
    Loader.commandOfFrame?_commandPacket c.op.code c.check (h c hc)

end Flash

end BlockBoard

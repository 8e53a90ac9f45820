import BlockBoard.Loader.Flashing
/-!
# The blocks of an image

An image goes to the board in blocks of one size, and the last of them is filled up with ones.

- `Loader.patchHeader_eq_stamp`: what is replaced in the header of an image.
- `Loader.flatten_blocksOf`: **blocks in a row are the image and then ones**.
- `Flash.IsPadded`: an image in blocks; `Flash.Job.isPadded_blocks` says that those of a flash are.
-/

namespace BlockBoard

/-- The image as it ends up on a board: one of an application has two bytes of its header replaced. -/
def DeviceSettings.stamp (d : DeviceSettings) (image : List UInt8) : List UInt8 :=
  if 4 ≤ image.length ∧ image.head? = some 0xE9 then
    (image.set 2 d.flashMode.headerByte).set 3 (Loader.sizeAndClock d)
  else image

namespace Loader

theorem length_patchHeader (d : DeviceSettings) (image : List UInt8) :
    (patchHeader d image).length = image.length := by
  unfold patchHeader
  split
  · split <;> rfl
  · rfl

/-- The header of an image is replaced where it has one. -/
theorem patchHeader_eq_stamp (d : DeviceSettings) (image : List UInt8) :
    patchHeader d image = d.stamp image := by
  unfold DeviceSettings.stamp
  match image with
  | [] | [_] | [_, _] | [_, _, _] => simp [patchHeader]
  | magic :: segments :: mode :: size :: rest =>
    rw [patchHeader]
    by_cases h : magic = imageMagic
    · rw [if_pos h, if_pos ⟨by simp, by rw [h]; rfl⟩]
      rfl
    · rw [if_neg h, if_neg]
      rintro ⟨-, hmagic⟩
      exact h (Option.some.inj hmagic)

theorem length_blocksOf (size n : Nat) (image : List UInt8) : (blocksOf size n image).length = n := by
  induction n generalizing image with
  | zero => rfl
  | succ n ih => rw [blocksOf, List.length_cons, ih]

theorem length_of_mem_blocksOf {size n : Nat} {image block : List UInt8}
    (h : block ∈ blocksOf size n image) : block.length = size := by
  induction n generalizing image with
  | zero => simp [blocksOf] at h
  | succ n ih =>
    rw [blocksOf, List.mem_cons] at h
    rcases h with rfl | h
    · rw [List.length_append, List.length_replicate, List.length_take]
      omega
    · exact ih h

/-- Blocks in a row are the image, and then ones. -/
theorem flatten_blocksOf {size n : Nat} {image : List UInt8} (h : image.length ≤ n * size) :
    (blocksOf size n image).flatten = image ++ List.replicate (n * size - image.length) 0xFF := by
  induction n generalizing image with
  | zero =>
    have : image = [] := by simpa using h
    simp [blocksOf, this]
  | succ n ih =>
    rw [Nat.succ_mul] at h ⊢
    have hdrop : (image.drop size).length = image.length - size := List.length_drop
    rw [blocksOf, List.flatten_cons, ih (by omega), hdrop, List.length_take]
    -- either a block is full, or it is the last one and filled up
    by_cases hlong : size ≤ image.length
    · rw [Nat.min_eq_left hlong, Nat.sub_self, List.replicate_zero, List.append_nil,
        ← List.append_assoc, List.take_append_drop]
      congr 2
      omega
    · rw [List.take_of_length_le (by omega), List.drop_eq_nil_of_le (by omega), List.nil_append,
        List.append_assoc, List.replicate_append_replicate]
      congr 2
      omega

/-- The blocks of an image hold all of it. -/
theorem le_blockCount_mul {size : Nat} (hsize : 0 < size) (length : Nat) :
    length ≤ blockCount size length * size := by
  have := Nat.div_add_mod (length + size - 1) size
  have := Nat.mod_lt (length + size - 1) hsize
  rw [blockCount, Nat.mul_comm]
  omega

/-- Each block holds a byte of the image. -/
theorem blockCount_le {size : Nat} (hsize : 0 < size) (length : Nat) :
    blockCount size length ≤ length := by
  rw [blockCount]
  cases length with
  | zero => exact Nat.le_of_eq (Nat.div_eq_of_lt (by omega))
  | succ n =>
    apply Nat.div_le_of_le_mul
    have : n ≤ size * n := Nat.le_mul_of_pos_left n hsize
    rw [Nat.mul_succ]
    omega

/-- Blocks that are not the last are full. -/
theorem mul_lt_of_lt_blockCount {size n length : Nat} (hsize : 0 < size) (h : n < blockCount size length) :
    n * size < length := by
  have hle : (n + 1) * size ≤ length + size - 1 := (Nat.le_div_iff_mul_le hsize).mp h
  rw [Nat.succ_mul] at hle
  omega

end Loader

/-- The first lists of some of equal length are the first elements of them all. -/
theorem flatten_take {α : Type} {size : Nat} {lists : List (List α)} (h : ∀ x ∈ lists, x.length = size)
    (n : Nat) : (lists.take n).flatten = lists.flatten.take (n * size) := by
  induction lists generalizing n with
  | nil => simp
  | cons x r ih =>
    cases n with
    | zero => simp
    | succ n =>
      have hx : x.length = size := h x (by simp)
      rw [List.take_succ_cons, List.flatten_cons, List.flatten_cons, List.take_append,
        ih fun y hy => h y (List.mem_cons_of_mem _ hy), hx, Nat.succ_mul, Nat.add_sub_cancel,
        List.take_of_length_le (l := x) (by omega)]

namespace Flash

/-- An image in blocks of equal size, the last one filled up with ones. -/
structure IsPadded (size : Nat) (image : List UInt8) (blocks : List (List UInt8)) : Prop where
  count : blocks.length = Loader.blockCount size image.length
  sizes : ∀ b ∈ blocks, b.length = size
  contents : blocks.flatten =
    image ++ List.replicate (blocks.length * size - image.length) 0xFF

/-- The blocks of a flash are its image with the board's parameters in the header. -/
theorem Job.isPadded_blocks {j : Job} (h : 0 < j.blockSize) :
    IsPadded j.blockSize (Loader.patchHeader j.device j.image) j.blocks := by
  have hlength := Loader.length_patchHeader j.device j.image
  refine ⟨?_, fun b hb => Loader.length_of_mem_blocksOf hb, ?_⟩
  · rw [hlength]
    exact Loader.length_blocksOf _ _ _
  · rw [Job.blocks, Loader.length_blocksOf]
    exact Loader.flatten_blocksOf (by rw [hlength]; exact Loader.le_blockCount_mul h _)

theorem Job.length_blocks (j : Job) : j.blocks.length = j.blockCount := Loader.length_blocksOf _ _ _

end Flash

end BlockBoard

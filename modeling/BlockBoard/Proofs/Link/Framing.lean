import BlockBoard.Link.Slip
/-!
# Frames are read back

What a receiver makes of frames that were written by `Slip.encode`, and of the noise around them.

- `Slip.Decoder.feed_append`: a receiver does not notice where its input is cut.
- `Slip.Decoder.feed_encode_of_latest_nil`: a frame for a receiver that holds nothing, also if an escape was
  left over.
- `Slip.Decoder.feed_encode`: **a fresh receiver reads a frame back**, and is as good as new again.
- `Slip.Decoder.feed_noise`: bytes without an end byte are noise outside of a frame.
-/

namespace BlockBoard

namespace Slip

namespace Decoder

theorem feed_cons (d : Decoder) (b : UInt8) (r : List UInt8) :
    d.feed (b :: r) =
      ((d.push b).1.toList ++ ((d.push b).2.feed r).1, ((d.push b).2.feed r).2) := rfl

theorem feed_append (d : Decoder) (a b : List UInt8) :
    d.feed (a ++ b) = ((d.feed a).1 ++ ((d.feed a).2.feed b).1, ((d.feed a).2.feed b).2) := by
  induction a generalizing d with
  | nil => rfl
  | cons x r ih => simp only [List.cons_append, feed_cons, ih, List.append_assoc]

/-- A receiver inside a frame, with some bytes of it. -/
def inside (latest : List UInt8) : Decoder := { latest, inFrame := true }

/-- What the first byte of a frame becomes: an escape that was left over makes a code of it. -/
def opening (d : Decoder) (b : UInt8) : UInt8 := if d.escaped then unescape b else b

/-- A byte of a payload joins the frame, whichever way it is written, also after an escape that was left
over. -/
theorem feed_escape_of_inFrame {d : Decoder} (hin : d.inFrame = true) (b : UInt8) :
    d.feed (escape b) = ([], inside (d.opening b :: d.latest)) := by
  obtain ⟨latest, inFrame, escaped⟩ := d
  obtain rfl : inFrame = true := hin
  unfold escape
  by_cases hend : b = endByte
  · subst hend
    cases escaped <;> rfl
  · by_cases hescape : b = escapeByte
    · subst hescape
      cases escaped <;> rfl
    · rw [if_neg hend, if_neg hescape]
      cases escaped <;> simp [feed, push, inside, opening, hend, hescape]

theorem feed_escape (latest : List UInt8) (b : UInt8) :
    (inside latest).feed (escape b) = ([], inside (b :: latest)) :=
  feed_escape_of_inFrame rfl b

theorem feed_flatMap_escape (latest payload : List UInt8) :
    (inside latest).feed (payload.flatMap escape) = ([], inside (payload.reverse ++ latest)) := by
  induction payload generalizing latest with
  | nil => rfl
  | cons b r ih =>
    rw [List.flatMap_cons, feed_append, feed_escape, ih]
    simp

/-- An end byte opens a frame where a receiver holds nothing, and leaves an escape as it was. -/
theorem push_endByte_of_latest_nil {d : Decoder} (h : d.latest = []) :
    d.push endByte = (none, { d with inFrame := true }) := by
  obtain ⟨latest, inFrame, escaped⟩ := d
  obtain rfl : latest = [] := h
  cases inFrame <;> rfl

/-- An end byte completes what a receiver holds of a frame. -/
theorem push_endByte_of_latest_ne_nil {d : Decoder} (hin : d.inFrame = true) (h : d.latest ≠ []) :
    d.push endByte = (some d.latest.reverse, {}) := by
  rw [push, if_pos hin, if_pos rfl, if_neg (by simpa using h)]

/-- **A frame for a receiver that holds nothing** comes out with the same bytes, apart from the first one if
an escape was left over. -/
theorem feed_encode_of_latest_nil {d : Decoder} (h : d.latest = []) (b : UInt8) (r : List UInt8) :
    d.feed (encode (b :: r)) = ([d.opening b :: r], {}) := by
  have hopen : d.feed [endByte] = ([], { d with inFrame := true }) := by
    rw [feed_cons, push_endByte_of_latest_nil h]
    rfl
  have hfirst : ({ d with inFrame := true } : Decoder).feed (escape b) = ([], inside [d.opening b]) := by
    rw [feed_escape_of_inFrame rfl, h]
    rfl
  have hclose : (inside (r.reverse ++ [d.opening b])).feed [endByte] = ([d.opening b :: r], {}) := by
    rw [feed_cons, push_endByte_of_latest_ne_nil rfl (by simp [inside])]
    simp [feed, inside]
  rw [show encode (b :: r) = [endByte] ++ (escape b ++ (r.flatMap escape ++ [endByte])) from by simp [encode],
    feed_append, hopen, feed_append, hfirst, feed_append, feed_flatMap_escape, hclose]
  rfl

/-- **A frame is read back**, by a fresh receiver. -/
theorem feed_encode {payload : List UInt8} (h : payload ≠ []) :
    ({} : Decoder).feed (encode payload) = ([payload], {}) := by
  obtain ⟨b, r, rfl⟩ := List.exists_cons_of_ne_nil h
  exact feed_encode_of_latest_nil rfl b r

/-- Frames in a row are read back, one after the other. -/
theorem feed_flatMap_encode {payloads : List (List UInt8)} (h : ∀ p ∈ payloads, p ≠ []) :
    ({} : Decoder).feed (payloads.flatMap encode) = (payloads, {}) := by
  induction payloads with
  | nil => rfl
  | cons p r ih =>
    have ih := ih fun q hq => h q (List.mem_cons_of_mem _ hq)
    rw [List.flatMap_cons, feed_append, feed_encode (h p (by simp)), ih]
    rfl

/-- Bytes without an end byte are noise outside of a frame. -/
theorem feed_noise {noise : List UInt8} (h : endByte ∉ noise) :
    ({} : Decoder).feed noise = ([], {}) := by
  induction noise with
  | nil => rfl
  | cons b r ih =>
    have hb : b ≠ endByte := fun heq => h (by simp [heq])
    have ih := ih fun hmem => h (by simp [hmem])
    have hpush : push {} b = (none, {}) := by simp [push, hb]
    rw [feed_cons, hpush, ih]
    rfl

/-- Only an end byte completes a frame. -/
theorem push_of_ne {d : Decoder} {b : UInt8} (h : b ≠ endByte) : (d.push b).1 = none := by
  unfold push
  rw [if_neg h, if_neg h]
  repeat' split
  all_goals rfl

end Decoder

end Slip

end BlockBoard

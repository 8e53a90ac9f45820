import BlockBoard.Proofs.Link.Framing
/-!
# Frames after noise and garbage

A receiver that starts fresh may hear anything before a frame begins: noise without an end byte, or bytes
that break off in the middle of a frame. What it makes of the frames that follow depends only on what it
then holds: nothing, or the beginning of a frame that never ends properly.

- `Slip.Decoder.feedReads`: a receiver that is given its input in several reads.
- `Slip.Decoder.tidy_feed`: outside of a frame a receiver holds nothing.
- `Slip.Decoder.feed_encode_of_latest_ne_nil`: a frame after garbage of which the receiver holds something.
- `Slip.Decoder.frames_amid_noise`: **frames between which there is noise are read back, however they are
  cut**.
- `Slip.Decoder.frames_after_garbage`: **garbage spoils at most the one frame that follows it**.
- `Slip.Decoder.frame_after_nothing_held`: what becomes of that frame if the receiver holds nothing.
- `Slip.Decoder.leftover_escape_spoils`: an escape that was left over changes its first byte.
-/

namespace BlockBoard

namespace Slip

/-! ## Codes -/

theorem unescape_of_ne {b : UInt8} (hend : b ≠ endCode) (hescape : b ≠ escapeCode) : unescape b = b := by
  rw [unescape, if_neg hend, if_neg hescape]

/-- A byte is its own meaning after an escape, unless it is one of the two codes. -/
theorem unescape_eq_self_iff {b : UInt8} : unescape b = b ↔ b ≠ endCode ∧ b ≠ escapeCode := by
  constructor
  · intro h
    constructor
    · rintro rfl
      exact absurd h (by decide)
    · rintro rfl
      exact absurd h (by decide)
  · rintro ⟨hend, hescape⟩
    exact unescape_of_ne hend hescape

/-- No byte of a payload puts an end byte into its frame. -/
theorem endByte_not_mem_flatMap_escape (payload : List UInt8) : endByte ∉ payload.flatMap escape := by
  rw [List.mem_flatMap]
  rintro ⟨b, -, hmem⟩
  unfold escape at hmem
  split at hmem
  · exact absurd hmem (by decide)
  · split at hmem
    · exact absurd hmem (by decide)
    · next hend _ => exact hend (List.mem_singleton.mp hmem).symm

namespace Decoder

/-! ## Input in several reads -/

/-- The receiver after several reads, and the frames that they complete. -/
def feedReads (d : Decoder) : List (List UInt8) → List (List UInt8) × Decoder
  | [] => ([], d)
  | bs :: reads =>
    let (frames, d) := d.feed bs
    let (more, d) := feedReads d reads
    (frames ++ more, d)

/-- Where the input is cut does not matter. -/
theorem feedReads_eq_feed_flatten (d : Decoder) (reads : List (List UInt8)) :
    d.feedReads reads = d.feed reads.flatten := by
  induction reads generalizing d with
  | nil => rfl
  | cons bs reads ih =>
    rw [List.flatten_cons, feed_append, ← ih]
    rfl

/-! ## What a receiver holds -/

/-- Outside of a frame a receiver holds nothing. -/
def Tidy (d : Decoder) : Prop := d.inFrame = false → d = {}

theorem tidy_fresh : ({} : Decoder).Tidy := fun _ => rfl

theorem tidy_of_inFrame {d : Decoder} (h : d.inFrame = true) : d.Tidy :=
  fun hout => nomatch h.symm.trans hout

theorem tidy_push {d : Decoder} (h : d.Tidy) (b : UInt8) : (d.push b).2.Tidy := by
  unfold push
  by_cases hin : d.inFrame = true
  · rw [if_pos hin]
    -- inside a frame only the end byte that completes it leads outside
    by_cases hend : b = endByte
    · rw [if_pos hend]
      split
      · exact h
      · exact tidy_fresh
    · rw [if_neg hend]
      split
      · exact tidy_of_inFrame hin
      · split
        · exact tidy_of_inFrame hin
        · exact tidy_of_inFrame hin
  · rw [if_neg hin]
    split
    · exact tidy_of_inFrame rfl
    · exact h

/-- Whatever a receiver is fed, it stays tidy. -/
theorem tidy_feed {d : Decoder} (h : d.Tidy) (bs : List UInt8) : (d.feed bs).2.Tidy := by
  induction bs generalizing d with
  | nil => exact h
  | cons b r ih => exact ih (tidy_push h b)

/-! ## A frame after garbage -/

/-- Only an escape byte begins an escape. -/
theorem escaped_push_of_ne {d : Decoder} (h : d.escaped = false) {b : UInt8} (hb : b ≠ escapeByte) :
    (d.push b).2.escaped = false := by
  unfold push
  by_cases hin : d.inFrame = true
  · rw [if_pos hin]
    by_cases hend : b = endByte
    · rw [if_pos hend]
      split
      · exact h
      · rfl
    · rw [if_neg hend, if_neg hb, if_neg (by simp [h])]
      exact h
  · rw [if_neg hin]
    split
    · exact h
    · exact h

/-- Without an escape byte no escape is left over. -/
theorem escaped_feed_of_not_mem {d : Decoder} (h : d.escaped = false) {bs : List UInt8}
    (hbs : escapeByte ∉ bs) : (d.feed bs).2.escaped = false := by
  induction bs generalizing d with
  | nil => exact h
  | cons b r ih =>
    have hb : b ≠ escapeByte := fun heq => hbs (by simp [heq])
    exact ih (escaped_push_of_ne h hb) fun hmem => hbs (List.mem_cons_of_mem b hmem)

/-- **A frame after garbage of which something is held**: its first end byte completes the garbage, its
bytes are noise, and its last end byte opens the next frame. -/
theorem feed_encode_of_latest_ne_nil {d : Decoder} (hin : d.inFrame = true) (h : d.latest ≠ [])
    (payload : List UInt8) : d.feed (encode payload) = ([d.latest.reverse], inside []) := by
  have hopen : ({} : Decoder).feed [endByte] = ([], inside []) := rfl
  rw [encode, feed_cons, push_endByte_of_latest_ne_nil hin h, feed_append,
    feed_noise (endByte_not_mem_flatMap_escape payload), hopen]
  rfl

/-- After any garbage one frame comes out where one was sent, and then the receiver holds nothing, whether
it is outside of a frame or has just begun one. -/
theorem feed_encode_of_tidy {d : Decoder} (htidy : d.Tidy) {payload : List UInt8} (h : payload ≠ []) :
    ∃ first, d.feed (encode payload) = ([first], {}) ∨ d.feed (encode payload) = ([first], inside []) := by
  by_cases hheld : d.latest = []
  · obtain ⟨b, r, rfl⟩ := List.exists_cons_of_ne_nil h
    exact ⟨_, .inl (feed_encode_of_latest_nil hheld b r)⟩
  · have hin : d.inFrame = true := by
      cases hin : d.inFrame with
      | true => rfl
      | false => exact absurd (congrArg latest (htidy hin)) hheld
    exact ⟨_, .inr (feed_encode_of_latest_ne_nil hin hheld payload)⟩

/-- A frame that has just begun begins once more with the next one. -/
theorem feed_encode_of_inside {payload : List UInt8} (h : payload ≠ []) :
    (inside []).feed (encode payload) = ([payload], {}) := by
  obtain ⟨b, r, rfl⟩ := List.exists_cons_of_ne_nil h
  exact feed_encode_of_latest_nil rfl b r

theorem feed_flatMap_encode_of_inside {payloads : List (List UInt8)} (h : ∀ p ∈ payloads, p ≠ []) :
    ((inside []).feed (payloads.flatMap encode)).1 = payloads ∧
      (payloads ≠ [] → ((inside []).feed (payloads.flatMap encode)).2 = {}) := by
  cases payloads with
  | nil => exact ⟨rfl, fun hne => absurd rfl hne⟩
  | cons p r =>
    have hrest := feed_flatMap_encode fun q hq => h q (List.mem_cons_of_mem p hq)
    rw [List.flatMap_cons, feed_append, feed_encode_of_inside (h p List.mem_cons_self), hrest]
    exact ⟨rfl, fun _ => rfl⟩

/-! ## Whole streams -/

theorem feed_flatMap_noise_encode {pairs : List (List UInt8 × List UInt8)}
    (h : ∀ p ∈ pairs, endByte ∉ p.1 ∧ p.2 ≠ []) :
    ({} : Decoder).feed (pairs.flatMap fun p => p.1 ++ encode p.2) = (pairs.map Prod.snd, {}) := by
  induction pairs with
  | nil => rfl
  | cons p r ih =>
    obtain ⟨hnoise, hpayload⟩ := h p List.mem_cons_self
    rw [List.flatMap_cons, feed_append, feed_append, feed_noise hnoise, feed_encode hpayload,
      ih fun q hq => h q (List.mem_cons_of_mem p hq)]
    rfl

/-- **Frames between which there is noise are read back, however they are cut.**

For all frames and all noise without an end byte before each of them, and all reads that give these bytes:
exactly the payloads come out, in order, and the receiver is then as good as new. -/
theorem frames_amid_noise {pairs : List (List UInt8 × List UInt8)}
    (h : ∀ p ∈ pairs, endByte ∉ p.1 ∧ p.2 ≠ []) {reads : List (List UInt8)}
    (hreads : reads.flatten = pairs.flatMap fun p => p.1 ++ encode p.2) :
    ({} : Decoder).feedReads reads = (pairs.map Prod.snd, {}) := by
  rw [feedReads_eq_feed_flatten, hreads, feed_flatMap_noise_encode h]

/-- The noise has an escape in it, the payloads are made of special bytes, and reads end after an escape. -/
theorem frames_amid_noise_escapes :
    ({} : Decoder).feedReads [[escapeByte, 7, endByte, escapeByte], [endCode, endCode, endByte, endCode],
        [endByte, escapeByte], [escapeCode, endByte]] =
      ([[endByte, endCode], [escapeByte]], {}) := by
  have hreads : [[escapeByte, 7, endByte, escapeByte], [endCode, endCode, endByte, endCode],
      [endByte, escapeByte], [escapeCode, endByte]].flatten =
        [([escapeByte, 7], [endByte, endCode]), ([endCode], [escapeByte])].flatMap
          fun p => p.1 ++ encode p.2 := by decide
  exact frames_amid_noise (by decide) hreads

/-- **Garbage spoils at most the one frame that follows it.**

For any garbage, all frames after it, and all reads that give these bytes: after whatever the garbage
completes by itself, one frame comes out where the first one was sent, and then exactly the others, in
order. If there are any, the receiver is then as good as new. -/
theorem frames_after_garbage {garbage x : List UInt8} {ys : List (List UInt8)} (hx : x ≠ [])
    (hys : ∀ y ∈ ys, y ≠ []) {reads : List (List UInt8)}
    (hreads : reads.flatten = garbage ++ (encode x ++ ys.flatMap encode)) :
    (∃ first, (({} : Decoder).feedReads reads).1 = (({} : Decoder).feed garbage).1 ++ first :: ys) ∧
      (ys ≠ [] → (({} : Decoder).feedReads reads).2 = {}) := by
  have htidy : (({} : Decoder).feed garbage).2.Tidy := tidy_feed tidy_fresh garbage
  obtain ⟨first, hfirst⟩ := feed_encode_of_tidy htidy hx
  rw [feedReads_eq_feed_flatten, hreads, feed_append, feed_append]
  rcases hfirst with hfirst | hfirst
  · rw [hfirst, feed_flatMap_encode hys]
    exact ⟨⟨first, rfl⟩, fun _ => rfl⟩
  · obtain ⟨hframes, hfresh⟩ := feed_flatMap_encode_of_inside hys
    rw [hfirst]
    exact ⟨⟨first, by rw [hframes]; rfl⟩, hfresh⟩

/-- Garbage that breaks off after an escape inside a frame swallows the frame after it, and no more. -/
theorem frames_after_garbage_inside :
    (({} : Decoder).feedReads [[endByte, 1, escapeByte, endByte], [2, endByte, endByte, escapeByte],
        [endCode, endByte, endByte, 3, endByte]]) = ([[1], [endByte], [3]], {}) ∧
      ∃ first, (({} : Decoder).feedReads [[endByte, 1, escapeByte, endByte],
          [2, endByte, endByte, escapeByte], [endCode, endByte, endByte, 3, endByte]]).1 =
        (({} : Decoder).feed [endByte, 1, escapeByte]).1 ++ first :: [[endByte], [3]] :=
  ⟨by decide, (frames_after_garbage (x := [2]) (by decide) (by decide) (by decide)).1⟩

/-- **A frame after garbage of which nothing is held.**

For any garbage after which the receiver holds nothing of a frame: one frame comes out, and the receiver is
then as good as new. The frame is the one that was sent, exactly if the garbage has not left an escape
behind or the frame does not begin with a code; otherwise its first byte is taken for the code. Garbage
without an escape byte leaves no escape behind. -/
theorem frame_after_nothing_held {garbage : List UInt8}
    (h : (({} : Decoder).feed garbage).2.latest = []) (b : UInt8) (r : List UInt8) :
    (({} : Decoder).feed garbage).2.feed (encode (b :: r)) =
        ([(({} : Decoder).feed garbage).2.opening b :: r], {}) ∧
      ((({} : Decoder).feed garbage).2.opening b = b ↔
        ((({} : Decoder).feed garbage).2.escaped = true → b ≠ endCode ∧ b ≠ escapeCode)) ∧
      (escapeByte ∉ garbage → (({} : Decoder).feed garbage).2.escaped = false) := by
  refine ⟨feed_encode_of_latest_nil h b r, ?_, escaped_feed_of_not_mem rfl⟩
  unfold opening
  split
  · next hescaped => exact unescape_eq_self_iff.trans ⟨fun h _ => h, fun h => h hescaped⟩
  · next hescaped => simp [hescaped]

theorem frame_after_nothing_held_escaped :
    (({} : Decoder).feed [endByte, escapeByte, endByte]).2.latest = [] ∧
      (({} : Decoder).feed [endByte, escapeByte, endByte]).2.feed (encode [5, endCode]) =
        ([[5, endCode]], {}) := by
  have h : (({} : Decoder).feed [endByte, escapeByte, endByte]).2.latest = [] := by decide
  obtain ⟨hframe, hsame, -⟩ := frame_after_nothing_held h 5 [endCode]
  rw [hsame.mpr fun _ => by decide] at hframe
  exact ⟨h, hframe⟩

/-- **An escape that was left over spoils a frame that begins with a code**, although the receiver holds
nothing: the end byte that begins the frame afresh does not end the escape. -/
theorem leftover_escape_spoils :
    (({} : Decoder).feed [endByte, escapeByte]).2.latest = [] ∧
      ((({} : Decoder).feed [endByte, escapeByte]).2.feed (encode [endCode])).1 = [[endByte]] ∧
      [[endByte]] ≠ [[endCode]] := by
  decide

end Decoder

end Slip

end BlockBoard

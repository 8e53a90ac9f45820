import BlockBoard.Proofs.Link.Paced
import BlockBoard.Proofs.Loader.Completeness
import BlockBoard.Proofs.Loader.Watching
/-!
# A flash does not depend on the pace of its link

Two links to the same peer give out its bytes in pieces of different sizes. At any moment of two runs
the bytes that have come are in different places: on the link, in a frame that is not complete yet, or
among the frames that have not been looked at. What the runs will have heard once they have read
everything is the same, and this decides what they do next.

- `Flash.Run.heard`: what a run will have heard once it has read everything there is.
- `Flash.Abreast`: two runs that have heard the same. `Flash.Level`: all that can be told of them from
  outside is the same.
- `Flash.Together`: operations that keep runs abreast as long as they succeed.
- `Flash.awaitWithin_heard`: what waiting for an answer comes to, at every pace.
- `Flashed.Alike`, `flash_alike`: **flashes over links to one peer go alike at every pace**.
-/

namespace BlockBoard

namespace Flash

variable {p : Peer} {m n : Option Nat}

/-! ## Runs abreast of each other -/

/-- What a run will have heard once it has read everything there is. -/
def Run.heard (r : Run (PacedLink p m)) : Receiver := r.receiver.hear r.link.queue

/-- All that can be told of two runs from outside is the same. -/
structure Level (r : Run (PacedLink p m)) (s : Run (PacedLink p n)) : Prop where
  asked : r.link.asked = s.link.asked
  progress : r.progress = s.progress
  notices : r.notices = s.notices

/-- Two runs have heard the same, or will have. -/
structure Abreast (r : Run (PacedLink p m)) (s : Run (PacedLink p n)) : Prop extends Level r s where
  heard : r.heard = s.heard

section Sequences

variable {α β : Type} {L : Run (PacedLink p m) → Run (PacedLink p n) → Prop}
  {r : Run (PacedLink p m)} {s : Run (PacedLink p n)}
  {x : Operation (Run (PacedLink p m)) SessionError α}
  {y : Operation (Run (PacedLink p n)) SessionError α}

/-- Two outcomes are the same success of runs that are abreast, or the same failure of runs that are in
a relation. -/
def Alongside (L : Run (PacedLink p m) → Run (PacedLink p n) → Prop)
    (a : Except SessionError α × Run (PacedLink p m)) (b : Except SessionError α × Run (PacedLink p n)) :
    Prop :=
  (∃ x r s, a = (.ok x, r) ∧ b = (.ok x, s) ∧ Abreast r s) ∨
    ∃ e r s, a = (.error e, r) ∧ b = (.error e, s) ∧ L r s

theorem alongside_ok (h : Abreast r s) (a : α) : Alongside L (.ok a, r) (.ok a, s) :=
  .inl ⟨a, r, s, rfl, rfl, h⟩

theorem alongside_error (h : L r s) (e : SessionError) :
    Alongside L ((.error e, r) : Except SessionError α × _) (.error e, s) :=
  .inr ⟨e, r, s, rfl, rfl, h⟩

/-- Two operations go alongside each other from runs that are abreast. -/
def Together (L : Run (PacedLink p m) → Run (PacedLink p n) → Prop)
    (x : Operation (Run (PacedLink p m)) SessionError α)
    (y : Operation (Run (PacedLink p n)) SessionError α) : Prop :=
  ∀ r s, Abreast r s → Alongside L (x.outcome r) (y.outcome s)

theorem together_pure (a : α) :
    Together L (pure a : Operation (Run (PacedLink p m)) SessionError α) (pure a) :=
  fun _ _ h => alongside_ok h a

theorem together_throw (hL : ∀ r s, Abreast r s → L r s) (e : SessionError) :
    Together L (throw e : Operation (Run (PacedLink p m)) SessionError α) (throw e) :=
  fun r s h => alongside_error (hL r s h) e

theorem together_bind {f : α → Operation (Run (PacedLink p m)) SessionError β}
    {g : α → Operation (Run (PacedLink p n)) SessionError β} (h : Together L x y)
    (hf : ∀ a, Together L (f a) (g a)) : Together L (x >>= f) (y >>= g) := by
  intro r s habreast
  rcases h r s habreast with ⟨a, r', s', hx, hy, habreast'⟩ | ⟨e, r', s', hx, hy, hleft⟩
  · rw [Operation.bind_of_ok hx, Operation.bind_of_ok hy]
    exact hf a r' s' habreast'
  · rw [Operation.bind_of_error hx, Operation.bind_of_error hy]
    exact alongside_error hleft e

/-- Runs abreast of each other are level. -/
theorem Together.level (h : Together Abreast x y) : Together Level x y := by
  intro r s habreast
  rcases h r s habreast with hok | ⟨e, r', s', hx, hy, habreast'⟩
  · exact .inl hok
  · rw [hx, hy]
    exact alongside_error habreast'.toLevel e

end Sequences

/-! ## What is asked of the link -/

theorem Receiver.hear_queue (r : Run (PacedLink p m)) (more : List UInt8) :
    r.receiver.hear (r.link.queue ++ more) = r.heard.hear more :=
  r.receiver.hear_append r.link.queue more

/-- The answer of the peer comes on top of what has been heard. -/
theorem abreast_ask {r : Run (PacedLink p m)} {s : Run (PacedLink p n)} (h : Abreast r s)
    (a : LinkAction) :
    Abreast { r with link := (r.link.ask a).2 } { s with link := (s.link.ask a).2 } where
  asked := congrArg (a :: ·) h.asked
  progress := h.progress
  notices := h.notices
  heard := by
    show r.receiver.hear (r.link.queue ++ _) = s.receiver.hear (s.link.queue ++ _)
    rw [Receiver.hear_queue, Receiver.hear_queue, h.heard, h.asked]

theorem outcome_ask (a : LinkAction) (r : Run (PacedLink p m)) :
    (onLink (PacedLink.ask a)).outcome r =
      ((p.answer (a :: r.link.asked)).1.mapError .link, { r with link := (r.link.ask a).2 }) :=
  outcome_onLink _ r

theorem together_ask (a : LinkAction) :
    Together (p := p) (m := m) (n := n) Abreast (onLink (PacedLink.ask a)) (onLink (PacedLink.ask a)) := by
  intro r s h
  rw [outcome_ask, outcome_ask, ← h.asked]
  cases (p.answer (a :: r.link.asked)).1 with
  | ok u => exact alongside_ok (abreast_ask h a) u
  | error e => exact alongside_error (abreast_ask h a) _

/-! ## Waiting for an answer -/

theorem findAnswer?_append_of_some {op : Loader.Op} {frames rest : List (List UInt8)}
    {result : Except SessionError Unit} (h : findAnswer? op frames = some (result, rest))
    (more : List (List UInt8)) : findAnswer? op (frames ++ more) = some (result, rest ++ more) := by
  induction frames with
  | nil => cases h
  | cons f r ih =>
    rw [List.cons_append]
    rw [findAnswer?] at h ⊢
    split at h
    · split at h
      · cases h
        rw [if_pos ‹_›]
      · rw [if_neg ‹_›, ih h]
    · exact ih h

theorem findAnswer?_append_of_none {op : Loader.Op} {frames : List (List UInt8)}
    (h : findAnswer? op frames = none) (more : List (List UInt8)) :
    findAnswer? op (frames ++ more) = findAnswer? op more := by
  induction frames with
  | nil => rfl
  | cons f r ih =>
    rw [List.cons_append]
    rw [findAnswer?] at h ⊢
    split at h
    · split at h
      · cases h
      · rw [if_neg ‹_›, ih h]
    · exact ih h

/-- What waiting for an answer comes to among some frames after which the link is dry, and the frames
that are left. -/
def awaited (op : Loader.Op) (timeout : Nat) (ending : Dry) (frames : List (List UInt8)) :
    Except SessionError Unit × List (List UInt8) :=
  (findAnswer? op frames).getD (.error (.link (ending.failure timeout)), [])

/-- Waiting for an answer looks through the frames that will have been heard, whatever has been read of
them, and does nothing else. -/
theorem awaitWithin_heard (hm : m ≠ some 0) (op : Loader.Op) (timeout : Nat) {fuel : Nat}
    {r : Run (PacedLink p m)} (hfuel : r.link.queue.length < fuel) :
    ∃ r', awaitWithin op timeout fuel r =
        ((awaited op timeout (p.ending r.link.asked) r.heard.frames).1, r') ∧
      r'.link.asked = r.link.asked ∧ r'.progress = r.progress ∧ r'.notices = r.notices ∧
      r'.heard =
        ⟨r.heard.decoder, (awaited op timeout (p.ending r.link.asked) r.heard.frames).2⟩ := by
  induction fuel generalizing r with
  | zero => exact absurd hfuel (Nat.not_lt_zero _)
  | succ fuel ih =>
    rw [awaitWithin]
    cases hfound : findAnswer? op r.frames with
    | some answer =>
      -- the answer is there already, and what is still to be read stays behind it
      obtain ⟨result, rest⟩ := answer
      have hheard : awaited op timeout (p.ending r.link.asked) r.heard.frames =
          (result, rest ++ (r.decoder.feed r.link.queue).1) := by
        rw [awaited, show r.heard.frames = r.frames ++ _ from rfl,
          findAnswer?_append_of_some hfound]
        rfl
      rw [hheard]
      exact ⟨_, rfl, rfl, rfl, rfl, rfl⟩
    | none =>
      dsimp only
      rcases r.link.read_cases hm (n := loaderChunk) (by decide) with
        ⟨hempty, hread⟩ | ⟨b, bs, rest, hqueue, hread⟩
      · have hframes : r.heard = r.receiver := by rw [Run.heard, hempty, Receiver.hear_nil]
        have hheard : awaited op timeout (p.ending r.link.asked) r.heard.frames =
            (.error (.link ((p.ending r.link.asked).failure timeout)), []) := by
          rw [awaited, hframes, show r.receiver.frames = r.frames from rfl, hfound]
          rfl
        rw [hheard, hread, hframes]
        refine ⟨{ r with frames := [] }, ?_, rfl, rfl, rfl, ?_⟩
        · cases p.ending r.link.asked <;> rfl
        · rw [Run.heard, show ({ r with frames := [] } : Run (PacedLink p m)).link.queue = [] from hempty,
            Receiver.hear_nil]
          rfl
      · -- the frames that have been looked at in vain do not matter any more
        rw [hread]
        obtain ⟨r', hwithin, hasked, hprogress, hnotices, hheard⟩ := ih (r := { r with
            link := { r.link with queue := rest }
            decoder := (r.decoder.feed (b :: bs)).2
            frames := (r.decoder.feed (b :: bs)).1 }) (by
          have hlength := congrArg List.length hqueue
          simp only [List.length_append, List.length_cons] at hlength
          show rest.length < fuel
          omega)
        have hdecoder : (r.decoder.feed r.link.queue) =
            ((r.decoder.feed (b :: bs)).1 ++ ((r.decoder.feed (b :: bs)).2.feed rest).1,
              ((r.decoder.feed (b :: bs)).2.feed rest).2) := by
          rw [hqueue, Slip.Decoder.feed_append]
        have hawaited : awaited op timeout (p.ending r.link.asked) r.heard.frames =
            awaited op timeout (p.ending r.link.asked)
              ((r.decoder.feed (b :: bs)).1 ++ ((r.decoder.feed (b :: bs)).2.feed rest).1) := by
          rw [awaited, awaited, show r.heard.frames = r.frames ++ (r.decoder.feed r.link.queue).1 from rfl,
            findAnswer?_append_of_none hfound, hdecoder]
        rw [hawaited, show r.heard.decoder = (r.decoder.feed r.link.queue).2 from rfl, hdecoder]
        exact ⟨r', hwithin, hasked, hprogress, hnotices, hheard⟩

theorem together_await (hm : m ≠ some 0) (hn : n ≠ some 0) (op : Loader.Op) (timeout : Nat) :
    Together (p := p) (m := m) (n := n) Abreast (await op timeout) (await op timeout) := by
  intro r s h
  obtain ⟨r', hr, haskedr, hprogressr, hnoticesr, hheardr⟩ :=
    awaitWithin_heard hm op timeout (Nat.lt_succ_self r.link.queue.length)
  obtain ⟨s', hs, haskeds, hprogresss, hnoticess, hheards⟩ :=
    awaitWithin_heard hn op timeout (Nat.lt_succ_self s.link.queue.length)
  rw [← h.heard, ← h.asked] at hs hheards
  rw [show (await op timeout).outcome r = _ from hr, show (await op timeout).outcome s = _ from hs]
  have habreast : Abreast r' s' :=
    { asked := by rw [haskedr, haskeds, h.asked]
      progress := by rw [hprogressr, hprogresss, h.progress]
      notices := by rw [hnoticesr, hnoticess, h.notices]
      heard := by rw [hheardr, hheards] }
  cases (awaited op timeout (p.ending r.link.asked) r.heard.frames).1 with
  | ok a => exact alongside_ok habreast a
  | error e => exact alongside_error habreast e

theorem Command.together_perform (hm : m ≠ some 0) (hn : n ≠ some 0) (c : Command) :
    Together (p := p) (m := m) (n := n) Abreast c.perform c.perform :=
  together_bind (together_ask (.write c.frame)) fun _ => together_await hm hn c.op c.timeout

/-! ## Forgetting what has arrived -/

/-- A run whose link has been read to its end by somebody else. -/
def Run.bypassed (r : Run (PacedLink p m)) : Run (PacedLink p m) :=
  { r with link := { r.link with queue := [] } }

theorem outcome_drain (hm : m ≠ some 0) (r : Run (PacedLink p m)) :
    (onLink drain).outcome r =
      (((p.ending r.link.asked).drained r.link.queue.length).mapError .link, r.bypassed) := by
  rw [outcome_onLink, PacedLink.drain_eq hm]
  rfl

/-- Everything that has come is forgotten, wherever it is, or the link fails. -/
theorem together_forget (hm : m ≠ some 0) (hn : n ≠ some 0) :
    Together (p := p) (m := m) (n := n) Level forget forget := by
  intro r s h
  have hr := outcome_drain hm r
  have hs := outcome_drain hn s
  rw [← h.asked] at hs
  have hlevel : Level r.bypassed s.bypassed := ⟨h.asked, h.progress, h.notices⟩
  cases hending : p.ending r.link.asked with
  | silent =>
    -- the runs may have found different numbers of bytes, which nobody asks for
    rw [hending] at hr hs
    rw [forget, forget, Operation.bind_of_ok hr, Operation.bind_of_ok hs]
    have habreast : Abreast { r.bypassed with decoder := {}, frames := [] }
        { s.bypassed with decoder := {}, frames := [] } :=
      ⟨⟨h.asked, h.progress, h.notices⟩, rfl⟩
    exact alongside_ok habreast ()
  | ended =>
    rw [hending] at hr hs
    rw [forget, forget, Operation.bind_of_error hr, Operation.bind_of_error hs]
    exact alongside_error hlevel _
  | failed e =>
    rw [hending] at hr hs
    rw [forget, forget, Operation.bind_of_error hr, Operation.bind_of_error hs]
    exact alongside_error hlevel _

/-! ## Steps -/

theorem together_syncWithin (hm : m ≠ some 0) (hn : n ≠ some 0) (attempts left : Nat) :
    Together (p := p) (m := m) (n := n) Level (.of (syncWithin attempts left))
      (.of (syncWithin attempts left)) := by
  induction left with
  | zero => exact fun r s h => alongside_error h.toLevel _
  | succ left ih =>
    intro r s h
    rw [Operation.outcome_of, Operation.outcome_of, syncWithin, syncWithin]
    rcases syncCommand.together_perform hm hn r s h with
      ⟨_, r', s', hr, hs, habreast⟩ | ⟨e, r', s', hr, hs, habreast⟩
    · rw [hr, hs]
      exact together_forget hm hn r' s' habreast
    · rw [hr, hs]
      -- only an attempt that is not answered in time is repeated
      cases e with
      | link l =>
        cases l with
        | timeout ms => exact ih r' s' habreast
        | _ => exact alongside_error habreast.toLevel _
      | _ => exact alongside_error habreast.toLevel _

variable {stop : List LinkAction → Bool}

/-- Asks whether a link has been asked for something that cancels the flash. -/
def stopped (stop : List LinkAction → Bool) (l : PacedLink p m) : Bool := stop l.asked

/-- What a step does keeps runs abreast of each other. -/
theorem Action.together_perform (hm : m ≠ some 0) (hn : n ≠ some 0) (j : Job) (a : Action) :
    Together (p := p) (m := m) (n := n) Level (a.perform j (stopped stop)) (a.perform j (stopped stop)) := by
  cases a with
  | verify actual =>
    intro r s h
    rw [outcome_verify, outcome_verify]
    cases verifyTransferSize actual j.expected j.settings.minTransferRatio with
    | error e => exact alongside_error h.toLevel _
    | ok _ =>
      refine alongside_ok ?_ ()
      split
      · exact { h with notices := congrArg (· ++ _) h.notices }
      · exact h
  | checkCancel =>
    intro r s h
    rw [outcome_checkCancel, outcome_checkCancel, stopped, stopped, h.asked]
    cases stop s.link.asked
    · exact alongside_ok h ()
    · exact alongside_error h.toLevel _
  | checkCancelAt baud =>
    intro r s h
    rw [outcome_checkCancelAt, outcome_checkCancelAt, stopped, stopped, h.asked]
    cases stop s.link.asked
    · exact alongside_ok h ()
    · exact (together_bind (together_ask (.baud baud)) fun _ =>
        together_throw (fun _ _ => id) .cancelled).level r s h
  | enterLoader => exact (together_ask .enterLoader).level
  | sync attempts => exact together_syncWithin hm hn attempts attempts
  | command c => exact (c.together_perform hm hn).level
  | setBaud baud => exact (together_ask (.baud baud)).level
  | settle => exact together_forget hm hn
  | noteCancel =>
    intro r s h
    rw [outcome_noteCancel, outcome_noteCancel, stopped, stopped, h.asked]
    refine alongside_ok ?_ ()
    split
    · exact { h with notices := congrArg (· ++ _) h.notices }
    · exact h
  | publish written =>
    intro r s h
    have hpublished : Abreast { r with progress := r.progress ++ [⟨written, j.image.length⟩] }
        { s with progress := s.progress ++ [⟨written, j.image.length⟩] } :=
      { h with progress := congrArg (· ++ _) h.progress }
    exact alongside_ok hpublished ()
  | hardReset => exact (together_ask .hardReset).level

theorem Step.together_take (hm : m ≠ some 0) (hn : n ≠ some 0) (j : Job) (step : Step) :
    Together (p := p) (m := m) (n := n) Level (step.take j (stopped stop)) (step.take j (stopped stop)) := by
  intro r s h
  rw [Step.outcome_take, Step.outcome_take]
  rcases step.action.together_perform hm hn j r s h with
    ⟨a, r', s', hr, hs, habreast⟩ | ⟨e, r', s', hr, hs, hlevel⟩
  · rw [hr, hs]
    exact alongside_ok habreast a
  · rw [hr, hs]
    cases e with
    | link l =>
      cases step.written? with
      | none => exact alongside_error hlevel _
      | some written =>
        exact alongside_error { hlevel with notices := congrArg (· ++ _) hlevel.notices } _
    | _ => exact alongside_error hlevel _

/-- The steps of a flash keep runs abreast of each other up to the first that fails. -/
theorem together_takeAll (hm : m ≠ some 0) (hn : n ≠ some 0) (j : Job) (steps : List Step) :
    Together (p := p) (m := m) (n := n) Level (takeAll j (stopped stop) steps)
      (takeAll j (stopped stop) steps) := by
  induction steps with
  | nil => exact together_pure ()
  | cons step rest ih => exact together_bind (step.together_take hm hn j) fun _ => ih

end Flash

/-! ## Whole flashes -/

/-- Two flashes go alike: they have the same result, publish the same progress, give the same warnings,
and ask the same of their links. -/
structure Flashed.Alike {σ τ : Type} (asked : σ → List LinkAction) (asked' : τ → List LinkAction)
    (f : Flashed σ) (g : Flashed τ) : Prop where
  result : f.result = g.result
  progress : f.progress = g.progress
  notices : f.notices = g.notices
  asked : asked f.link = asked' g.link

open Flash

/-- Flashes over links to one peer go alike. -/
theorem alike_paced {m n : Option Nat} (hm : m ≠ some 0) (hn : n ≠ some 0) (j : Job) (p : Peer)
    (stop : List LinkAction → Bool) :
    Flashed.Alike PacedLink.asked PacedLink.asked
      (flash j (fun l => stop l.asked) ({} : PacedLink p m))
      (flash j (fun l => stop l.asked) ({} : PacedLink p n)) := by
  have hstart : Abreast (.start j ({} : PacedLink p m)) (.start j ({} : PacedLink p n)) :=
    ⟨⟨rfl, rfl, rfl⟩, rfl⟩
  show Flashed.Alike _ _ (flash j (stopped stop) _) (flash j (stopped stop) _)
  rw [flash_eq, flash_eq]
  have htogether : Together (p := p) (m := m) (n := n) Level (takeAll j (stopped stop) j.plan)
    (takeAll j (stopped stop) j.plan) := together_takeAll hm hn j j.plan
  rcases htogether _ _ hstart with
    ⟨_, r, s, hr, hs, habreast⟩ | ⟨e, r, s, hr, hs, hlevel⟩
  · rw [hr, hs]
    exact ⟨rfl, habreast.progress, habreast.notices, habreast.asked⟩
  · rw [hr, hs]
    exact ⟨rfl, hlevel.progress, hlevel.notices, hlevel.asked⟩

/-- Flashes over links that follow one script go alike. -/
theorem alike_scripted {m n : Option Nat} (hm : m ≠ some 0) (hn : n ≠ some 0) (j : Job) (s : Script) :
    Flashed.Alike ScriptedLink.actions ScriptedLink.actions
      (flash j ScriptedLink.cancelled { script := { s with chunk := m } })
      (flash j ScriptedLink.cancelled { script := { s with chunk := n } }) := by
  have hwatched (k : Option Nat) : flash j ScriptedLink.cancelled { script := { s with chunk := k } } =
      (flash j (fun l => s.raisedAfter l.asked) ({} : PacedLink s.peer k)).over
        ({ s with chunk := k } : Script).behind := by
    rw [← s.raisedAfter_chunk k]
    exact flash_watched ({ s with chunk := k } : Script).observes_paced j ScriptedLink.cancelled {}
  have halike := alike_paced hm hn j s.peer s.raisedAfter
  rw [hwatched m, hwatched n]
  exact ⟨halike.result, halike.progress, halike.notices, congrArg List.reverse halike.asked⟩

/-- **A flash does not depend on how its link cuts bytes**, whatever the job. Take any peer that answers
what is asked of it, fails and falls silent in a fixed way, and any requests to cancel that depend on
what has been asked, such as a request at a certain write. Take two links to this peer, each of which gives
out the bytes in pieces of at most some size of its own, or as they are asked for. Over both of them the
flash has the same result, publishes the same progress, gives the same warnings, and asks the same of its
link in the same order. Links that follow a script are among them, with the requests to cancel that stand
in the script. -/
theorem flash_alike {m n : Option Nat} (hm : m ≠ some 0) (hn : n ≠ some 0) (j : Job) :
    (∀ (p : Peer) (stop : List LinkAction → Bool), Flashed.Alike PacedLink.asked PacedLink.asked
        (flash j (fun l => stop l.asked) ({} : PacedLink p m))
        (flash j (fun l => stop l.asked) ({} : PacedLink p n))) ∧
    ∀ s : Script, Flashed.Alike ScriptedLink.actions ScriptedLink.actions
        (flash j ScriptedLink.cancelled { script := { s with chunk := m } })
        (flash j ScriptedLink.cancelled { script := { s with chunk := n } }) :=
  ⟨fun p stop => alike_paced hm hn j p stop, fun s => alike_scripted hm hn j s⟩

/-- A link whose answers come byte by byte flashes as one does whose answers come whole. -/
theorem flash_alike_bytewise :
    (flash twoBlocks ScriptedLink.cancelled { script := { rule := .loader, chunk := some 1 } }).result =
        .ok ⟨5, 5, 2, 0⟩ ∧
      (flash twoBlocks ScriptedLink.cancelled
        { script := { rule := .loader, chunk := some 1 } }).link.actions =
      (flash twoBlocks ScriptedLink.cancelled { script := { rule := .loader } }).link.actions := by
  have halike := (flash_alike (m := some 1) (n := none) (by decide) (by decide) twoBlocks).2
    { rule := .loader }
  have hwhole : (flash twoBlocks ScriptedLink.cancelled { script := { rule := .loader } }).result =
      .ok ⟨5, 5, 2, 0⟩ := by
    decide +kernel
  exact ⟨halike.result.trans hwhole, halike.asked⟩

end BlockBoard

import BlockBoard.Proofs.Loader.Calls
/-!
# The dialogue of a flash

What goes back and forth over a link while steps of a plan succeed: who says what, and which frame is
taken as the answer to which command.

- `Flash.Receiver`: the receiver of a run, with the frames that it has not looked at yet.
- `Flash.Turn`: a turn of the dialogue, `Flash.Turn.Holds`: the calls that it consists of.
- `Flash.Dialogue`: turn after turn.
- `Flash.takeAll_dialogue`: **steps that all succeed are a dialogue**, in which every command is
  answered by a frame of its own before anything else is asked of the link.
-/

namespace BlockBoard

namespace Flash

/-! ## Receiving -/

/-- A receiver of frames, with those that it has not looked at yet. -/
structure Receiver where
  decoder : Slip.Decoder := {}
  frames : List (List UInt8) := []

/-- The receiver of a run. -/
def Run.receiver {σ : Type} (r : Run σ) : Receiver := ⟨r.decoder, r.frames⟩

/-- The receiver after some bytes. -/
def Receiver.hear (a : Receiver) (bs : List UInt8) : Receiver :=
  ⟨(a.decoder.feed bs).2, a.frames ++ (a.decoder.feed bs).1⟩

theorem Receiver.hear_nil (a : Receiver) : a.hear [] = a := by
  simp [hear, Slip.Decoder.feed]

theorem Receiver.hear_append (a : Receiver) (x y : List UInt8) :
    a.hear (x ++ y) = (a.hear x).hear y := by
  simp [hear, Slip.Decoder.feed_append]

/-- Hearing some calls, a receiver has looked at some frames, in order and each once. -/
def Receiver.Takes (a : Receiver) (calls : List LinkCall) (taken : List (List UInt8))
    (b : Receiver) : Prop :=
  a.hear (calls.flatMap LinkCall.heard) = ⟨b.decoder, taken ++ b.frames⟩

/-- Whether a frame is a response to an operation. -/
def isAnswer (op : Loader.Op) (frame : List UInt8) : Bool :=
  (Loader.Response.ofFrame? frame).any fun r => r.op == op.code

/-- A frame is a response to an operation, and its first status byte is zero. -/
def Acknowledges (op : Loader.Op) (frame : List UInt8) : Prop :=
  ∃ r, Loader.Response.ofFrame? frame = some r ∧ r.op = op.code ∧ r.data.head? = some 0

/-! ## Turns -/

/-- A turn of the dialogue. -/
inductive Turn where
  /-- A command that is acknowledged. -/
  | told (c : Command)
  /-- A command that is not answered. -/
  | unanswered (c : Command)
  /-- Whatever has arrived is forgotten. -/
  | silence
  /-- Something asked of the link itself. -/
  | control (call : LinkCall)

/-- The calls of a turn, and what they do to the receiver. The acknowledgement of a command is the
first response to it that is looked at after the command was written. -/
def Turn.Holds : Turn → Receiver → List LinkCall → Receiver → Prop
  | told c, a, calls, b => ∃ reads passed ack,
      calls = .write c.frame (.ok ()) :: reads ∧ (∀ x ∈ reads, x.isRead = true) ∧
        a.Takes reads (passed ++ [ack]) b ∧ (∀ f ∈ passed, isAnswer c.op f = false) ∧
        Acknowledges c.op ack
  | unanswered c, a, calls, b => ∃ answer reads passed,
      calls = .write c.frame answer :: reads ∧ (∀ x ∈ reads, x.isRead = true) ∧
        a.Takes reads passed b ∧ ∀ f ∈ passed, isAnswer c.op f = false
  | silence, _, calls, b => (∀ x ∈ calls, x.isRead = true) ∧ b = {}
  | control call, a, calls, b => calls = [call] ∧ b = a

/-- Turn after turn. -/
inductive Dialogue : List Turn → Receiver → List LinkCall → Receiver → Prop
  | nil (a : Receiver) : Dialogue [] a [] a
  | cons {t : Turn} {ts : List Turn} {a b c : Receiver} {calls rest : List LinkCall}
      (h : t.Holds a calls b) (ht : Dialogue ts b rest c) : Dialogue (t :: ts) a (calls ++ rest) c

theorem Dialogue.single {t : Turn} {a b : Receiver} {calls : List LinkCall}
    (h : t.Holds a calls b) : Dialogue [t] a calls b := by
  have := Dialogue.cons h (.nil b)
  rwa [List.append_nil] at this

theorem Dialogue.append {ts us : List Turn} {a b c : Receiver} {x y : List LinkCall}
    (h : Dialogue ts a x b) (h' : Dialogue us b y c) : Dialogue (ts ++ us) a (x ++ y) c := by
  induction h with
  | nil _ => exact h'
  | cons hturn _ ih =>
    rw [List.cons_append, List.append_assoc]
    exact .cons hturn (ih h')

/-! ## Waiting for an answer -/

theorem verdict_ok {op : Loader.Op} {response : Loader.Response}
    (h : verdict op response = .ok ()) : response.data.head? = some 0 := by
  unfold verdict at h
  split at h
  · rename_i hdata
    rw [hdata]
    rfl
  all_goals cases h

/-- A frame is a response to an operation, with a verdict. -/
def Answers (op : Loader.Op) (frame : List UInt8) (result : Except SessionError Unit) : Prop :=
  ∃ r, Loader.Response.ofFrame? frame = some r ∧ r.op = op.code ∧ result = verdict op r

theorem Answers.acknowledges {op : Loader.Op} {frame : List UInt8} (h : Answers op frame (.ok ())) :
    Acknowledges op frame := by
  obtain ⟨r, hr, hop, hverdict⟩ := h
  exact ⟨r, hr, hop, verdict_ok hverdict.symm⟩

/-- What is taken as the answer to an operation: the first response to it. -/
theorem findAnswer?_some {op : Loader.Op} {frames rest : List (List UInt8)}
    {result : Except SessionError Unit} (h : findAnswer? op frames = some (result, rest)) :
    ∃ passed answer, frames = passed ++ answer :: rest ∧ (∀ f ∈ passed, isAnswer op f = false) ∧
      Answers op answer result := by
  induction frames with
  | nil => cases h
  | cons f r ih =>
    -- a frame that is no response to the operation is passed over
    have hpass : isAnswer op f = false → findAnswer? op r = some (result, rest) →
        ∃ passed answer, f :: r = passed ++ answer :: rest ∧ (∀ f ∈ passed, isAnswer op f = false) ∧
          Answers op answer result := by
      intro hf hr
      obtain ⟨passed, answer, hframes, hpassed, hanswer⟩ := ih hr
      refine ⟨f :: passed, answer, by rw [hframes, List.cons_append], ?_, hanswer⟩
      simpa [hf] using hpassed
    rw [findAnswer?] at h
    split at h
    · rename_i response hresponse
      by_cases hop : response.op = op.code
      · rw [if_pos hop] at h
        simp only [Option.some.injEq, Prod.mk.injEq] at h
        obtain ⟨hresult, rfl⟩ := h
        exact ⟨[], f, rfl, by simp, response, hresponse, hop, hresult.symm⟩
      · rw [if_neg hop] at h
        exact hpass (by simp [isAnswer, hresponse, hop]) h
    · rename_i hnone
      exact hpass (by simp [isAnswer, hnone]) h

theorem findAnswer?_none {op : Loader.Op} {frames : List (List UInt8)}
    (h : findAnswer? op frames = none) : ∀ f ∈ frames, isAnswer op f = false := by
  induction frames with
  | nil => simp
  | cons f r ih =>
    rw [findAnswer?] at h
    split at h
    · rename_i response hresponse
      by_cases hop : response.op = op.code
      · rw [if_pos hop] at h
        cases h
      · rw [if_neg hop] at h
        simpa [isAnswer, hresponse, hop] using ih h
    · rename_i hnone
      simpa [isAnswer, hnone] using ih h

/-- How waiting for an answer ends: with the first response that was taken, as it says, or with a
failure of the link before there was any. -/
def Awaited (op : Loader.Op) (result : Except SessionError Unit) (taken : List (List UInt8)) : Prop :=
  (∃ passed answer, taken = passed ++ [answer] ∧ (∀ f ∈ passed, isAnswer op f = false) ∧
      Answers op answer result) ∨
    (∃ e, result = .error (.link e)) ∧ ∀ f ∈ taken, isAnswer op f = false

/-- Frames that are no responses to an operation do not matter to whoever waits for it. -/
theorem Awaited.passOver {op : Loader.Op} {result : Except SessionError Unit}
    {before taken : List (List UInt8)} (h : Awaited op result taken)
    (hbefore : ∀ f ∈ before, isAnswer op f = false) : Awaited op result (before ++ taken) := by
  rcases h with ⟨passed, answer, rfl, hpassed, hanswer⟩ | ⟨he, htaken⟩
  · refine .inl ⟨before ++ passed, answer, by simp, fun f hf => ?_, hanswer⟩
    rcases List.mem_append.mp hf with hf | hf
    · exact hbefore f hf
    · exact hpassed f hf
  · refine .inr ⟨he, fun f hf => ?_⟩
    rcases List.mem_append.mp hf with hf | hf
    · exact hbefore f hf
    · exact htaken f hf

variable {σ : Type}

/-- A run has waited for an answer: it has only read, and looked at frames in order. -/
def Waited (op : Loader.Op) (result : Except SessionError Unit) (r r' : Run (Recorded σ)) : Prop :=
  ∃ reads taken, r'.link.calls = r.link.calls ++ reads ∧ (∀ x ∈ reads, x.isRead = true) ∧
    r.receiver.Takes reads taken r'.receiver ∧ Awaited op result taken

/-- The answer is among the frames that are there. -/
theorem waited_of_found {op : Loader.Op} {result : Except SessionError Unit}
    {rest : List (List UInt8)} {r : Run (Recorded σ)}
    (h : findAnswer? op r.frames = some (result, rest)) :
    Waited op result r { r with frames := rest } := by
  obtain ⟨passed, answer, hframes, hpassed, hanswer⟩ := findAnswer?_some h
  refine ⟨[], passed ++ [answer], by simp, by simp, ?_,
    .inl ⟨passed, answer, rfl, hpassed, hanswer⟩⟩
  show r.receiver.hear [] = _
  rw [Receiver.hear_nil]
  simp [Run.receiver, hframes]

/-- Nothing more is heard. -/
theorem waited_of_failed {op : Loader.Op} {e : LinkError} {r : Run (Recorded σ)} {s : Recorded σ}
    {reads : List LinkCall} (h : findAnswer? op r.frames = none)
    (hcalls : s.calls = r.link.calls ++ reads) (hreads : ∀ x ∈ reads, x.isRead = true)
    (hheard : reads.flatMap LinkCall.heard = []) :
    Waited op (.error (.link e)) r { r with link := s, frames := [] } := by
  refine ⟨reads, r.frames, hcalls, hreads, ?_, .inr ⟨⟨e, rfl⟩, findAnswer?_none h⟩⟩
  rw [Receiver.Takes, hheard, Receiver.hear_nil]
  simp [Run.receiver]

/-- Something asked of the link itself, and granted. -/
theorem onLink_control {ask : Recorded σ → Except LinkError Unit × Recorded σ}
    {describe : Except LinkError Unit → LinkCall} {r r' : Run (Recorded σ)}
    (hcalls : ∀ {s s' answer}, ask s = (answer, s') → s'.calls = s.calls ++ [describe answer])
    (h : (onLink ask).outcome r = (.ok (), r')) :
    ∃ calls, r'.link.calls = r.link.calls ++ calls ∧
      Dialogue [.control (describe (.ok ()))] r.receiver calls r'.receiver := by
  rcases hask : ask r.link with ⟨answer, s⟩
  have hlink : (onLink ask : Operation (Run (Recorded σ)) _ _).outcome r =
      (answer.mapError .link, { r with link := s }) := by
    rw [outcome_onLink]
    show ((ask r.link).1.mapError SessionError.link, { r with link := (ask r.link).2 }) = _
    rw [hask]
  have heq := hlink.symm.trans h
  cases answer with
  | error e => cases heq
  | ok _ =>
    cases heq
    exact ⟨_, hcalls hask, .single ⟨rfl, rfl⟩⟩

variable [Transport σ]

/-- Some bytes are heard, and the waiting goes on. -/
theorem waited_of_read {op : Loader.Op} {result : Except SessionError Unit} {n : Nat}
    {bs : List UInt8} {r r' : Run (Recorded σ)} {s : Recorded σ}
    (h : findAnswer? op r.frames = none) (hread : Transport.read n r.link = (.bytes bs, s))
    (hwaited : Waited op result
      { r with link := s, frames := (r.decoder.feed bs).1, decoder := (r.decoder.feed bs).2 } r') :
    Waited op result r r' := by
  obtain ⟨reads, taken, hcalls, hreads, htakes, hawaited⟩ := hwaited
  -- the frames that were there have been looked at before those that have just been heard
  refine ⟨.read n (.bytes bs) :: reads, r.frames ++ taken, ?_, ?_, ?_,
    hawaited.passOver (findAnswer?_none h)⟩
  · rw [hcalls, calls_read hread, List.append_assoc]
    rfl
  · intro x hx
    rcases List.mem_cons.mp hx with rfl | hx
    · rfl
    · exact hreads x hx
  · rw [Receiver.Takes] at htakes ⊢
    rw [List.flatMap_cons, Receiver.hear_append]
    simp only [Receiver.hear, Run.receiver, LinkCall.heard] at htakes ⊢
    simp only [Receiver.mk.injEq] at htakes ⊢
    exact ⟨htakes.1, by rw [List.append_assoc, htakes.2, List.append_assoc]⟩

/-- Waiting for an answer, whatever comes of it. -/
theorem awaitWithin_waited {op : Loader.Op} {timeout fuel : Nat} {r r' : Run (Recorded σ)}
    {result : Except SessionError Unit} (h : awaitWithin op timeout fuel r = (result, r')) :
    Waited op result r r' := by
  induction fuel generalizing r with
  | zero =>
    rw [awaitWithin] at h
    split at h
    · rename_i hfound
      cases h
      exact waited_of_found hfound
    · rename_i hnone
      cases h
      exact waited_of_failed hnone (List.append_nil _).symm (by simp) rfl
  | succ fuel ih =>
    rw [awaitWithin] at h
    split at h
    · rename_i hfound
      cases h
      exact waited_of_found hfound
    · rename_i hnone
      rcases hread : Transport.read loaderChunk r.link with ⟨answer, s⟩
      have hcalls := calls_read hread
      simp only [hread] at h
      -- every read that brings no bytes ends the waiting
      have hfailed : ∀ e, LinkCall.heard (.read loaderChunk answer) = [] →
          Waited op (.error (.link e)) r { r with link := s, frames := [] } := fun e hheard =>
        waited_of_failed hnone hcalls (by simp [LinkCall.isRead]) (by simp [hheard])
      cases answer with
      | silent =>
        cases h
        exact hfailed _ rfl
      | failed e =>
        cases h
        exact hfailed e rfl
      | bytes bs =>
        cases bs with
        | nil =>
          cases h
          exact hfailed _ rfl
        | cons b rest => exact waited_of_read hnone hread (ih h)

/-! ## The turns of a command -/

/-- A command whose frame the link does not take, or one that is waited for. -/
theorem Command.perform_cases {c : Command} {r r' : Run (Recorded σ)}
    {result : Except SessionError Unit} (h : c.perform.outcome r = (result, r')) :
    (∃ e, result = .error (.link e) ∧ r'.receiver = r.receiver ∧
        r'.link.calls = r.link.calls ++ [.write c.frame (.error e)]) ∨
      ∃ reads taken, r'.link.calls = r.link.calls ++ .write c.frame (.ok ()) :: reads ∧
        (∀ x ∈ reads, x.isRead = true) ∧ r.receiver.Takes reads taken r'.receiver ∧
        Awaited c.op result taken := by
  rw [perform, outcome_onLink_bind] at h
  rcases hwrite : (send (Slip.encode c.packet)).outcome r.link with ⟨answer, s⟩
  have hcalls := calls_write (show Transport.write c.frame r.link = (answer, s) from hwrite)
  rw [hwrite] at h
  cases answer with
  | error e =>
    cases h
    exact .inl ⟨e, rfl, rfl, hcalls⟩
  | ok _ =>
    obtain ⟨reads, taken, hreadCalls, hreads, htakes, hawaited⟩ := awaitWithin_waited h
    refine .inr ⟨reads, taken, ?_, hreads, htakes, hawaited⟩
    rw [hreadCalls, hcalls, List.append_assoc]
    rfl

/-- A command that was carried out has been told. -/
theorem Command.perform_told {c : Command} {r r' : Run (Recorded σ)}
    (h : c.perform.outcome r = (.ok (), r')) :
    ∃ calls, r'.link.calls = r.link.calls ++ calls ∧
      (Turn.told c).Holds r.receiver calls r'.receiver := by
  rcases c.perform_cases h with ⟨e, he, -⟩ | ⟨reads, taken, hcalls, hreads, htakes, hawaited⟩
  · cases he
  · rcases hawaited with ⟨passed, answer, rfl, hpassed, hanswer⟩ | ⟨⟨e, he⟩, -⟩
    · exact ⟨_, hcalls, reads, passed, answer, rfl, hreads, htakes, hpassed, hanswer.acknowledges⟩
    · cases he

/-- A command that was not answered in time, or that the link did not take in time. -/
theorem Command.perform_unanswered {c : Command} {r r' : Run (Recorded σ)} {e : LinkError}
    (h : c.perform.outcome r = (.error (.link e), r')) :
    ∃ calls, r'.link.calls = r.link.calls ++ calls ∧
      (Turn.unanswered c).Holds r.receiver calls r'.receiver := by
  rcases c.perform_cases h with ⟨e, -, hreceiver, hcalls⟩ |
    ⟨reads, taken, hcalls, hreads, htakes, hawaited⟩
  · refine ⟨_, hcalls, .error e, [], [], rfl, by simp, ?_, by simp⟩
    rw [hreceiver]
    exact r.receiver.hear_nil
  · rcases hawaited with ⟨passed, answer, -, -, response, -, -, hverdict⟩ | ⟨-, htaken⟩
    · obtain ⟨f, hf⟩ := verdict_failsOnly hverdict.symm
      cases hf
    · exact ⟨_, hcalls, .ok (), reads, taken, rfl, hreads, htakes, htaken⟩

/-- Forgetting whatever has arrived. -/
theorem forget_silence {r r' : Run (Recorded σ)} (h : forget.outcome r = (.ok (), r')) :
    ∃ calls, r'.link.calls = r.link.calls ++ calls ∧
      Turn.silence.Holds r.receiver calls r'.receiver := by
  obtain ⟨_, r₁, hdrain, hrest⟩ := Operation.eq_ok_of_bind h
  cases hrest
  have hsteady : Transport.Steady
      (Recorded.Adds (fun c => c.isRead = true) : Recorded σ → Recorded σ → Prop) :=
    Recorded.steady_adds fun _ hc => hc
  have hadds := relates_onLink (relates_drain hsteady) r
  rw [hdrain] at hadds
  obtain ⟨calls, hcalls, hreads⟩ := hadds
  exact ⟨calls, hcalls, hreads, rfl⟩

/-- Waking the loader: some attempts without an answer, one with it, and silence. -/
theorem syncWithin_dialogue {attempts left : Nat} {r r' : Run (Recorded σ)}
    (h : syncWithin attempts left r = (.ok (), r')) :
    ∃ k < left, ∃ calls, r'.link.calls = r.link.calls ++ calls ∧
      Dialogue (List.replicate k (.unanswered syncCommand) ++ [.told syncCommand, .silence])
        r.receiver calls r'.receiver := by
  induction left generalizing r with
  | zero => cases h
  | succ left ih =>
    rw [syncWithin] at h
    rcases hperform : syncCommand.perform.outcome r with ⟨result, r₁⟩
    rw [hperform] at h
    split at h
    · rename_i heq
      cases heq
      obtain ⟨calls, hcalls, htold⟩ := Command.perform_told hperform
      obtain ⟨calls', hcalls', hsilence⟩ := forget_silence h
      refine ⟨0, by omega, calls ++ calls', ?_, (Dialogue.single htold).append (.single hsilence)⟩
      rw [hcalls', hcalls, List.append_assoc]
    · rename_i heq
      cases heq
      obtain ⟨calls, hcalls, hunanswered⟩ := Command.perform_unanswered hperform
      obtain ⟨k, hk, calls', hcalls', hdialogue⟩ := ih h
      refine ⟨k + 1, by omega, calls ++ calls', ?_, ?_⟩
      · rw [hcalls', hcalls, List.append_assoc]
      · exact .cons hunanswered hdialogue
    · rename_i heq
      cases heq
      cases h

/-! ## The turns of a plan -/

/-- The turns of a step that succeeds, waking the loader apart. -/
def Action.turns : Action → List Turn
  | .enterLoader => [.control (.enterLoader (.ok ()))]
  | .command c => [.told c]
  | .setBaud baud => [.control (.setBaud baud (.ok ()))]
  | .settle => [.silence]
  | .hardReset => [.control (.hardReset (.ok ()))]
  | _ => []

/-- Whether a step wakes the loader. -/
def Action.isSync : Action → Bool
  | .sync _ => true
  | _ => false

/-- A step that succeeds. -/
theorem Action.perform_dialogue {a : Action} (ha : a.isSync = false) {j : Job}
    {cancelled : Recorded σ → Bool} {r r' : Run (Recorded σ)}
    (h : (a.perform j cancelled).outcome r = (.ok (), r')) :
    ∃ calls, r'.link.calls = r.link.calls ++ calls ∧
      Dialogue a.turns r.receiver calls r'.receiver := by
  have hsame : ∀ r' : Run (Recorded σ), r'.link = r.link → r'.receiver = r.receiver →
      ∃ calls, r'.link.calls = r.link.calls ++ calls ∧ Dialogue [] r.receiver calls r'.receiver := by
    intro r' hlink hreceiver
    exact ⟨[], by rw [hlink, List.append_nil], by rw [hreceiver]; exact .nil _⟩
  cases a with
  | sync attempts => cases ha
  | enterLoader => exact onLink_control calls_enterLoader h
  | command c =>
    obtain ⟨calls, hcalls, htold⟩ := c.perform_told h
    exact ⟨calls, hcalls, .single htold⟩
  | setBaud baud => exact onLink_control calls_setBaud h
  | settle =>
    obtain ⟨calls, hcalls, hsilence⟩ := forget_silence h
    exact ⟨calls, hcalls, .single hsilence⟩
  | hardReset => exact onLink_control calls_hardReset h
  | verify actual =>
    rw [outcome_verify] at h
    split at h
    · cases h
    · cases h
      split <;> exact hsame _ rfl rfl
  | checkCancel =>
    rw [outcome_checkCancel, Prod.mk.injEq] at h
    obtain ⟨-, rfl⟩ := h
    exact hsame _ rfl rfl
  | checkCancelAt baud =>
    rw [outcome_checkCancelAt] at h
    split at h
    · obtain ⟨_, r₁, -, hthrow⟩ := Operation.eq_ok_of_bind h
      cases hthrow
    · cases h
      exact hsame _ rfl rfl
  | noteCancel =>
    rw [outcome_noteCancel] at h
    cases h
    split <;> exact hsame _ rfl rfl
  | publish written =>
    cases h
    exact hsame _ rfl rfl

/-- **Steps that all succeed are a dialogue.** -/
theorem takeAll_dialogue {steps : List Step} (hsteps : ∀ s ∈ steps, s.action.isSync = false)
    {j : Job} {cancelled : Recorded σ → Bool} {r r' : Run (Recorded σ)}
    (h : (takeAll j cancelled steps).outcome r = (.ok (), r')) :
    ∃ calls, r'.link.calls = r.link.calls ++ calls ∧
      Dialogue (steps.flatMap fun s => s.action.turns) r.receiver calls r'.receiver := by
  induction steps generalizing r with
  | nil =>
    cases h
    exact ⟨[], by simp, .nil _⟩
  | cons s rest ih =>
    obtain ⟨_, r₁, hone, hrest⟩ := Operation.eq_ok_of_bind h
    obtain ⟨calls, hcalls, hdialogue⟩ :=
      Action.perform_dialogue (hsteps s (by simp)) (Step.perform_of_take hone)
    obtain ⟨calls', hcalls', hdialogue'⟩ := ih (fun s' hs' => hsteps s' (by simp [hs'])) hrest
    refine ⟨calls ++ calls', ?_, hdialogue.append hdialogue'⟩
    rw [hcalls', hcalls, List.append_assoc]

end Flash

end BlockBoard

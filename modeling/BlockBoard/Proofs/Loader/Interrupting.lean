import BlockBoard.Proofs.Loader.Completeness
import BlockBoard.Proofs.Session.Cancelling
/-!
# Where a lost link interrupts a flash

A link that fails in one of the steps ends a flash. What the flash then reports depends on the step: up
to the acknowledgement of the command that erases the region it reports the failure of the link as it is,
and from there on an interrupted flash. The waiting for that acknowledgement itself belongs to the first
part.

- `Flash.LostIn`: the link fails in a step of a run.
- `Flash.takeAll_link_iff`, `Flash.takeAll_interrupted_iff`: what a run reports of it.
- `Flash.Job.plan_eq_onceErased`: the plan, cut after the erasing.
- `flash_lost`: **what a flash over a lost link reports, and what it has told the loader by then**.
- `erasing_not_interrupted`: a link that is lost after the command to erase was written, and before it
  was answered, does not count as an interruption.
-/

namespace BlockBoard

namespace Flash

/-! ## A link that fails in a step -/

section Steps

variable {σ : Type} [Transport σ] {j : Job} {cancelled : σ → Bool} {r : Run σ} {e : LinkError}

/-- No step by itself reports an interrupted flash. -/
theorem Action.not_mayFail_interrupted (a : Action) (written : Nat) :
    ¬ a.MayFail (.interrupted written e) := by
  cases a <;> simp [MayFail, FromBoard]

theorem Step.take_link_iff {s : Step} : ((s.take j cancelled).outcome r).1 = .error (.link e) ↔
    s.written? = none ∧ ((s.action.perform j cancelled).outcome r).1 = .error (.link e) := by
  rw [Step.outcome_take]
  split
  · rename_i hsome
    simp [hsome]
  · rename_i hother
    constructor
    · intro h
      refine ⟨Option.eq_none_iff_forall_ne_some.mpr fun written hwritten => ?_, h⟩
      exact hother e _ written (Prod.ext h rfl) hwritten
    · exact And.right

theorem Step.take_interrupted_iff {s : Step} {written : Nat} :
    ((s.take j cancelled).outcome r).1 = .error (.interrupted written e) ↔
      s.written? = some written ∧
        ((s.action.perform j cancelled).outcome r).1 = .error (.link e) := by
  rw [Step.outcome_take]
  split
  · rename_i hlink hsome
    rw [hlink, hsome]
    simp
  · rename_i hother
    constructor
    · intro h
      exact absurd (s.action.perform_failsOnly j cancelled r _ h) (s.action.not_mayFail_interrupted _)
    · rintro ⟨hwritten, h⟩
      exact absurd hwritten (hother e _ written (Prod.ext h rfl))

/-- The link fails in a step of a run, after the steps before it were carried out. -/
def LostIn (j : Job) (cancelled : σ → Bool) (steps : List Step) (r : Run σ) (s : Step)
    (e : LinkError) : Prop :=
  ∃ before after r₁, steps = before ++ s :: after ∧
    (takeAll j cancelled before).outcome r = (.ok (), r₁) ∧
    ((s.action.perform j cancelled).outcome r₁).1 = .error (.link e)

theorem LostIn.mem {steps : List Step} {s : Step} (h : LostIn j cancelled steps r s e) :
    s ∈ steps := by
  obtain ⟨before, after, -, rfl, -⟩ := h
  simp

/-- The link fails only in a step that needs it. -/
theorem LostIn.mayFail {steps : List Step} {s : Step} (h : LostIn j cancelled steps r s e) :
    s.action.MayFail (.link e) := by
  obtain ⟨before, after, r₁, -, -, hfails⟩ := h
  exact s.action.perform_failsOnly j cancelled r₁ _ hfails

/-- What a run reports is what the step reports that it fails in. -/
theorem takeAll_error_iff {steps : List Step} {error : SessionError} :
    ((takeAll j cancelled steps).outcome r).1 = .error error ↔
      ∃ before s after r₁, steps = before ++ s :: after ∧
        (takeAll j cancelled before).outcome r = (.ok (), r₁) ∧
        ((s.take j cancelled).outcome r₁).1 = .error error := by
  constructor
  · intro h
    obtain ⟨before, s, after, r₁, hsteps, hbefore, htake⟩ := takeAll_error (Prod.ext h rfl)
    exact ⟨before, s, after, r₁, hsteps, hbefore, by rw [htake]⟩
  · rintro ⟨before, s, after, r₁, rfl, hbefore, htake⟩
    rw [takeAll_of_error hbefore (Prod.ext htake rfl)]

/-- The failure of the link is reported as it is where nothing has been written yet. -/
theorem takeAll_link_iff {steps : List Step} :
    ((takeAll j cancelled steps).outcome r).1 = .error (.link e) ↔
      ∃ s, s.written? = none ∧ LostIn j cancelled steps r s e := by
  rw [takeAll_error_iff]
  constructor
  · rintro ⟨before, s, after, r₁, hsteps, hbefore, htake⟩
    obtain ⟨hnone, hfails⟩ := Step.take_link_iff.mp htake
    exact ⟨s, hnone, before, after, r₁, hsteps, hbefore, hfails⟩
  · rintro ⟨s, hnone, before, after, r₁, hsteps, hbefore, hfails⟩
    exact ⟨before, s, after, r₁, hsteps, hbefore, Step.take_link_iff.mpr ⟨hnone, hfails⟩⟩

/-- Where something has been written, it is reported as an interruption. -/
theorem takeAll_interrupted_iff {steps : List Step} {written : Nat} :
    ((takeAll j cancelled steps).outcome r).1 = .error (.interrupted written e) ↔
      ∃ s, s.written? = some written ∧ LostIn j cancelled steps r s e := by
  rw [takeAll_error_iff]
  constructor
  · rintro ⟨before, s, after, r₁, hsteps, hbefore, htake⟩
    obtain ⟨hsome, hfails⟩ := Step.take_interrupted_iff.mp htake
    exact ⟨s, hsome, before, after, r₁, hsteps, hbefore, hfails⟩
  · rintro ⟨s, hsome, before, after, r₁, hsteps, hbefore, hfails⟩
    exact ⟨before, s, after, r₁, hsteps, hbefore, Step.take_interrupted_iff.mpr ⟨hsome, hfails⟩⟩

end Steps

/-! ## The plan around the erasing -/

namespace Job

/-- The command that erases the region. -/
def eraseCommand (j : Job) : Command := ⟨.flashBegin, j.region, 0, j.eraseTimeout⟩

/-- The steps before the command that erases the region. -/
def preparation (j : Job) : List Step := j.approach ++ j.speedUp ++ [j.lastLook]

/-- The steps up to the acknowledgement of the command that erases the region. -/
def untilErased (j : Job) : List Step := j.preparation ++ [plainStep (.command j.eraseCommand)]

/-- The steps after that. -/
def onceErased (j : Job) : List Step :=
  plainStep .noteCancel :: (j.blocks.zipIdx.flatMap j.blockSteps ++ j.closing)

theorem plan_eq_onceErased (j : Job) : j.plan = j.untilErased ++ j.onceErased := by
  rw [plan_eq_erasure, untilErased, preparation, List.append_assoc, List.append_assoc]
  rfl

/-- Up to the acknowledgement nothing counts as written. -/
theorem written?_untilErased (j : Job) : ∀ s ∈ j.untilErased, s.written? = none := by
  have hall : (j.untilErased.all fun s => s.written?.isNone) = true := rfl
  intro s hs
  simpa using List.all_eq_true.mp hall s hs

/-- From then on every step that needs the link counts what has been written. -/
theorem written?_onceErased (j : Job) {e : LinkError} :
    ∀ s ∈ j.onceErased, s.action.MayFail (.link e) → s.written? ≠ none := by
  intro s hs hfails
  rw [onceErased, List.mem_cons, List.mem_append, List.mem_flatMap] at hs
  rcases hs with rfl | ⟨b, -, hs⟩ | hs
  · exact absurd hfails id
  · simp only [blockSteps, List.mem_cons, List.not_mem_nil, or_false] at hs
    rcases hs with rfl | rfl
    · exact Option.some_ne_none _
    · exact absurd hfails id
  · rw [closing, List.mem_cons] at hs
    rcases hs with rfl | hs
    · obtain ⟨t, ht⟩ := hfails
      cases ht
    · obtain ⟨a, -, rfl⟩ := List.mem_map.mp hs
      exact Option.some_ne_none _

/-- The commands before the erasing do not change the flash. -/
theorem writesFlash_preparation (j : Job) : ∀ s ∈ j.preparation, ∀ c ∈ s.action.commands,
    c.op.writesFlash = false := by
  intro s hs c hc
  rw [preparation, List.mem_append, List.mem_singleton] at hs
  rcases hs with hs | rfl
  · exact j.writesFlash_of_mem s hs c hc
  · cases hc

end Job

section Recorded

variable {σ : Type} [Transport σ] {j : Job} {cancelled : Recorded σ → Bool} {r r' : Run (Recorded σ)}

/-- The last look changes nothing if it does not stop the flash. -/
theorem take_lastLook_ok (h : (j.lastLook.take j cancelled).outcome r = (.ok (), r')) : r' = r := by
  have hperform := Step.perform_of_take h
  rw [Job.lastLook, plainStep, outcome_checkCancelAt] at hperform
  split at hperform
  · obtain ⟨_, r₁, -, hthrow⟩ := Operation.eq_ok_of_bind hperform
    cases hthrow
  · exact (Prod.mk.inj hperform).2.symm

/-- Whoever changes the speed has forgotten all that was heard before. -/
theorem receiver_of_speedUp (h : (takeAll j cancelled j.speedUp).outcome r = (.ok (), r')) :
    r'.receiver = {} := by
  have hsync : ∀ s ∈ j.speedUp, s.action.isSync = false := by
    intro s hs
    simp only [Job.speedUp, Job.changeBaud, List.map_cons, List.map_nil, List.mem_cons,
      List.not_mem_nil, or_false] at hs
    rcases hs with rfl | rfl | rfl <;> rfl
  obtain ⟨calls, -, hdialogue⟩ := takeAll_dialogue hsync h
  -- the last of the three turns is the silence
  cases hdialogue with
  | cons _ hdialogue =>
    cases hdialogue with
    | cons _ hdialogue =>
      cases hdialogue with
      | cons hsilence hnil =>
        cases hnil
        exact hsilence.2

/-- Before the command that erases the region, the receiver is fresh. -/
theorem takeAll_preparation (h : (takeAll j cancelled j.preparation).outcome r = (.ok (), r')) :
    r'.receiver = {} := by
  obtain ⟨_, r₁, hfirst, hlook⟩ := Operation.eq_ok_of_bind (takeAll_append j cancelled _ _ ▸ h)
  obtain ⟨_, r₂, -, hspeed⟩ := Operation.eq_ok_of_bind (takeAll_append j cancelled _ _ ▸ hfirst)
  obtain ⟨_, r₃, hlook, hnil⟩ := Operation.eq_ok_of_bind (takeAll_cons j cancelled _ _ ▸ hlook)
  cases hnil
  rw [take_lastLook_ok hlook, receiver_of_speedUp hspeed]

/-- The region is erased: after calls that do not tell the loader to, it has been told to, by a fresh
receiver, and has acknowledged it. -/
def Erased (j : Job) (calls : List LinkCall) : Prop :=
  ∃ before told after b, calls = before ++ told ++ after ∧ (∀ c ∈ before, ¬ c.tells .flashBegin) ∧
    (Turn.told j.eraseCommand).Holds {} told b

/-- The loader has not been told to erase the region, or that is the last thing that it was told and it
has not answered. -/
def NotAnswered (j : Job) (calls : List LinkCall) : Prop :=
  ∃ before last, calls = before ++ last ∧ (∀ c ∈ before, ¬ c.tells .flashBegin) ∧
    (last = [] ∨ ∃ b, (Turn.unanswered j.eraseCommand).Holds {} last b)

/-- The calls of the preparation do not tell the loader to erase anything. -/
theorem calls_of_preparation {result : Except SessionError Unit}
    (h : (takeAll j cancelled j.preparation).outcome r = (result, r')) :
    ∃ calls, r'.link.calls = r.link.calls ++ calls ∧ ∀ c ∈ calls, ¬ c.tells .flashBegin := by
  obtain ⟨calls, hcalls, hof⟩ := takeAll_calls h
  exact ⟨calls, hcalls, hof.not_tells j.writesFlash_preparation _ rfl⟩

theorem erased_of_untilErased (h : (takeAll j cancelled j.untilErased).outcome r = (.ok (), r')) :
    ∃ calls, r'.link.calls = r.link.calls ++ calls ∧ ∀ after, Erased j (calls ++ after) := by
  obtain ⟨_, r₁, hbefore, hrest⟩ := Operation.eq_ok_of_bind (takeAll_append j cancelled _ _ ▸ h)
  obtain ⟨_, r₂, htake, hnil⟩ := Operation.eq_ok_of_bind (takeAll_cons j cancelled _ _ ▸ hrest)
  cases hnil
  obtain ⟨before, hcalls, hnot⟩ := calls_of_preparation hbefore
  obtain ⟨told, htold, hholds⟩ := Command.perform_told (Step.perform_of_take htake)
  rw [takeAll_preparation hbefore] at hholds
  refine ⟨before ++ told, by rw [htold, hcalls, List.append_assoc], fun after => ?_⟩
  exact ⟨before, told, after, _, rfl, hnot, hholds⟩

theorem notAnswered_of_untilErased {e : LinkError}
    (h : (takeAll j cancelled j.untilErased).outcome r = (.error (.link e), r')) :
    ∃ calls, r'.link.calls = r.link.calls ++ calls ∧ NotAnswered j calls := by
  rcases takeAll_append_cases h with ⟨e', hbefore, he⟩ | ⟨r₁, hbefore, hrest⟩
  · cases he
    obtain ⟨before, hcalls, hnot⟩ := calls_of_preparation hbefore
    exact ⟨before, hcalls, before, [], (List.append_nil _).symm, hnot, .inl rfl⟩
  · obtain ⟨before, hcalls, hnot⟩ := calls_of_preparation hbefore
    rw [takeAll_cons] at hrest
    rcases Operation.bind_cases hrest with ⟨e', htake, he⟩ | ⟨_, r₂, -, hnil⟩
    · cases he
      obtain ⟨-, hlink⟩ := Step.take_link_iff.mp (congrArg Prod.fst htake)
      have hlast := Step.link_take j cancelled (plainStep (.command j.eraseCommand)) r₁
      rw [htake] at hlast
      obtain ⟨last, hmore, hholds⟩ := Command.perform_unanswered (Prod.ext hlink rfl)
      rw [takeAll_preparation hbefore] at hholds
      refine ⟨before ++ last, ?_, before, last, rfl, hnot, .inr ⟨_, hholds⟩⟩
      rw [hlast]
      exact hmore.trans (by rw [hcalls, List.append_assoc])
    · cases hnil

end Recorded

end Flash

/-! ## A whole flash -/

open Flash

section Whole

variable {σ : Type} [Transport σ] {j : Job} {cancelled : σ → Bool} {link : σ} {e : LinkError}

/-- A flash fails with what its run fails with. -/
theorem flash_error_iff {error : SessionError} : (flash j cancelled link).result = .error error ↔
    ((takeAll j cancelled j.plan).outcome (.start j link)).1 = .error error := by
  constructor
  · intro h
    obtain ⟨r', hrun, -⟩ := outcome_of_error h
    rw [hrun]
  · intro h
    rw [flash_eq, h]
    rfl

/-- Nothing is reported as an interruption up to the acknowledgement of the erasing. -/
theorem untilErased_never_interrupted (written : Nat) :
    (takeAll j cancelled j.untilErased).Never (.interrupted written e) := by
  intro r h
  obtain ⟨s, hwritten, hlost⟩ := takeAll_interrupted_iff.mp h
  rw [j.written?_untilErased s hlost.mem] at hwritten
  cases hwritten

/-- No failure of the link is reported as it is from then on. -/
theorem onceErased_never_link : (takeAll j cancelled j.onceErased).Never (.link e) := by
  intro r h
  obtain ⟨s, hnone, hlost⟩ := takeAll_link_iff.mp h
  exact j.written?_onceErased s hlost.mem hlost.mayFail hnone

/-- A link that is lost before the erasing is acknowledged is reported as it is, and only then. -/
theorem flash_link_iff : (flash j cancelled link).result = .error (.link e) ↔
    ∃ s, LostIn j cancelled j.untilErased (.start j link) s e := by
  rw [flash_error_iff, j.plan_eq_onceErased]
  constructor
  · intro h
    rcases takeAll_append_cases (Prod.ext h rfl) with ⟨e', huntil, he⟩ | ⟨r₁, -, honce⟩
    · cases he
      obtain ⟨s, -, hlost⟩ := takeAll_link_iff.mp (congrArg Prod.fst huntil)
      exact ⟨s, hlost⟩
    · exact absurd honce onceErased_never_link.ne
  · rintro ⟨s, hlost⟩
    have huntil := takeAll_link_iff.mpr ⟨s, j.written?_untilErased s hlost.mem, hlost⟩
    rw [takeAll_append, Operation.bind_of_error (Prod.ext huntil rfl)]

/-- A link that is lost after that is reported as an interruption, and only then. -/
theorem flash_interrupted_iff {written : Nat} :
    (flash j cancelled link).result = .error (.interrupted written e) ↔
      ∃ r s, (takeAll j cancelled j.untilErased).outcome (.start j link) = (.ok (), r) ∧
        s.written? = some written ∧ LostIn j cancelled j.onceErased r s e := by
  rw [flash_error_iff, j.plan_eq_onceErased]
  constructor
  · intro h
    rcases takeAll_append_cases (Prod.ext h rfl) with ⟨e', huntil, he⟩ | ⟨r₁, huntil, honce⟩
    · cases he
      exact absurd huntil (untilErased_never_interrupted written).ne
    · obtain ⟨s, hwritten, hlost⟩ := takeAll_interrupted_iff.mp (congrArg Prod.fst honce)
      exact ⟨r₁, s, huntil, hwritten, hlost⟩
  · rintro ⟨r₁, s, huntil, hwritten, hlost⟩
    rw [takeAll_append, Operation.bind_of_ok huntil]
    exact takeAll_interrupted_iff.mpr ⟨s, hwritten, hlost⟩

end Whole

/-- **What a flash over a lost link reports**, whatever the link, the job and the requests to cancel.

A failure of the link is reported as it is exactly if it occurs up to the acknowledgement of the command
that erases the region; this command is then at most the last one, and unanswered. A failure in any later
step is reported as an interruption, with the failure and the bytes acknowledged by then; and whenever an
interruption is reported, the loader had acknowledged that it erased the region. The record of the calls
changes nothing: over the link by itself, a flash goes the same way. -/
theorem flash_lost {σ : Type} [Transport σ] (j : Job) (cancelled : Recorded σ → Bool) (port : σ)
    (e : LinkError) :
    ((recordedFlash j cancelled port).result = .error (.link e) ↔
      ∃ s, LostIn j cancelled j.untilErased (.start j { link := port }) s e) ∧
    ((recordedFlash j cancelled port).result = .error (.link e) →
      NotAnswered j (recordedFlash j cancelled port).link.calls) ∧
    (∀ r s, (takeAll j cancelled j.untilErased).outcome (.start j { link := port }) = (.ok (), r) →
      LostIn j cancelled j.onceErased r s e → ∃ written, s.written? = some written ∧
        (recordedFlash j cancelled port).result = .error (.interrupted written e)) ∧
    (∀ written, (recordedFlash j cancelled port).result = .error (.interrupted written e) →
      Erased j (recordedFlash j cancelled port).link.calls ∧
      ∃ r s, (takeAll j cancelled j.untilErased).outcome (.start j { link := port }) = (.ok (), r) ∧
        s.written? = some written ∧ LostIn j cancelled j.onceErased r s e) ∧
    ∀ stop : σ → Bool,
      flash j stop port = (recordedFlash j (fun l => stop l.link) port).over Recorded.link := by
  refine ⟨flash_link_iff, fun h => ?_, fun r s huntil hlost => ?_, fun written h => ⟨?_, ?_⟩,
    fun stop => flash_eq_recordedFlash j stop port⟩
  · obtain ⟨r', hrun, hlink⟩ := outcome_of_error h
    rw [j.plan_eq_onceErased] at hrun
    rcases takeAll_append_cases hrun with ⟨e', huntil, he⟩ | ⟨r₁, -, honce⟩
    · cases he
      obtain ⟨calls, hcalls, hnot⟩ := notAnswered_of_untilErased huntil
      rw [recordedFlash, hlink, hcalls]
      exact hnot
    · exact absurd honce onceErased_never_link.ne
  · obtain ⟨written, hwritten⟩ :=
      Option.ne_none_iff_exists'.mp (j.written?_onceErased s hlost.mem hlost.mayFail)
    exact ⟨written, hwritten, flash_interrupted_iff.mpr ⟨r, s, huntil, hwritten, hlost⟩⟩
  · obtain ⟨r', hrun, hlink⟩ := outcome_of_error h
    rw [j.plan_eq_onceErased] at hrun
    rcases takeAll_append_cases hrun with ⟨e', huntil, he⟩ | ⟨r₁, huntil, honce⟩
    · cases he
      exact absurd huntil (untilErased_never_interrupted written).ne
    · obtain ⟨calls, hcalls, herased⟩ := erased_of_untilErased huntil
      obtain ⟨more, hmore, -⟩ := takeAll_calls honce
      rw [recordedFlash, hlink, hmore, hcalls]
      exact herased more
  · exact flash_interrupted_iff.mp h

/-- A link that answers every command of the loader up to the first block, and then no more. -/
def fadingLink : ScriptedLink :=
  { script := { rule := .loader, replies := [none, none, none, none, none, none, some []] } }

theorem flash_lost_second_block :
    (recordedFlash twoBlocks (fun _ => false) fadingLink).result = .error (.interrupted 4 (.timeout 3000)) ∧
    Erased twoBlocks (recordedFlash twoBlocks (fun _ => false) fadingLink).link.calls := by
  have hlost : (recordedFlash twoBlocks (fun _ => false) fadingLink).result =
      .error (.interrupted 4 (.timeout 3000)) := by decide +kernel
  obtain ⟨-, -, -, hinterrupted, -⟩ := flash_lost twoBlocks (fun _ => false) fadingLink (.timeout 3000)
  exact ⟨hlost, (hinterrupted 4 hlost).1⟩

/-- A link that answers every command of the loader up to the one that erases the region, and then no
more. -/
def silentLink : ScriptedLink :=
  { script := { rule := .loader, replies := [none, none, none, none, some []] } }

/-- The command that erases the region has been written, but the link that is lost then does not
interrupt the flash. -/
theorem erasing_not_interrupted :
    .write twoBlocks.eraseCommand.frame (.ok ()) ∈
      (recordedFlash twoBlocks (fun _ => false) silentLink).link.calls ∧
    (recordedFlash twoBlocks (fun _ => false) silentLink).result = .error (.link (.timeout 10000)) := by
  decide +kernel

end BlockBoard

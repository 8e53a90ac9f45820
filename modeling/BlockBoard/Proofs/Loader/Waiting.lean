import BlockBoard.Proofs.Loader.Calls
/-!
# Waiting without a bound

A flash waits in three places: for the answer to a command, for the loader to wake up, and until nothing
comes any more. None of these waits counts its reads. This module describes a flash by rules that do not
count them either, and shows that over a link which gives out finitely many bytes by itself the rules
lead to exactly one end, which is the one that a bound on the reads leads to.

- `Delivers`, `Transport.Finite`: reads that give bytes, and links on which they come to an end.
- `Drains`, `Flash.Awaits`, `Flash.Syncs`: the loops.
- `Flash.Runs`: a run of a plan, `Flashes`: a whole flash.
- `flashes_iff`: **a flash over a finite link ends, in one way**.
-/

namespace BlockBoard

/-! ## Links that come to an end -/

section Links

variable {σ : Type} [Transport σ]

/-- Some reads in a row each give at least one byte. -/
inductive Delivers : Nat → σ → σ → Prop
  | nil (s : σ) : Delivers 0 s s
  | cons {n k : Nat} {b : UInt8} {bs : List UInt8} {s s₁ s' : σ}
      (h : Transport.read n s = (.bytes (b :: bs), s₁)) (hmore : Delivers k s₁ s') :
      Delivers (k + 1) s s'

variable (σ) in
/-- The backlog of a link bounds the reads that give bytes. -/
def Transport.Finite : Prop := ∀ (k : Nat) (s s' : σ), Delivers k s s' → k ≤ Transport.backlog s

/-- Fewer reads in a row than some number give bytes. -/
def DeliversBelow (fuel : Nat) (s : σ) : Prop := ∀ k s', Delivers k s s' → k < fuel

theorem Transport.Finite.below (h : Transport.Finite σ) (s : σ) :
    DeliversBelow (Transport.backlog s + 1) s :=
  fun k s' hdelivers => Nat.lt_succ_of_le (h k s s' hdelivers)

theorem not_deliversBelow_zero (s : σ) : ¬ DeliversBelow 0 s :=
  fun h => absurd (h 0 s (.nil s)) (Nat.lt_irrefl 0)

theorem DeliversBelow.of_read {fuel n : Nat} {b : UInt8} {bs : List UInt8} {s s₁ : σ}
    (h : DeliversBelow (fuel + 1) s) (hread : Transport.read n s = (.bytes (b :: bs), s₁)) :
    DeliversBelow fuel s₁ :=
  fun k s' hdelivers => Nat.lt_of_succ_lt_succ (h (k + 1) s' (.cons hread hdelivers))

/-- Reading and forgetting until the link is silent, with the number of bytes so far. -/
inductive Drains : Nat → σ → Except LinkError Nat × σ → Prop
  | silent {total : Nat} {s s' : σ} (h : Transport.read answerChunk s = (.silent, s')) :
      Drains total s (.ok total, s')
  | failed {total : Nat} {e : LinkError} {s s' : σ}
      (h : Transport.read answerChunk s = (.failed e, s')) : Drains total s (.error e, s')
  | ended {total : Nat} {s s' : σ} (h : Transport.read answerChunk s = (.bytes [], s')) :
      Drains total s (.error .closed, s')
  | heard {total : Nat} {b : UInt8} {bs : List UInt8} {s s' : σ} {out : Except LinkError Nat × σ}
      (h : Transport.read answerChunk s = (.bytes (b :: bs), s'))
      (hmore : Drains (total + (b :: bs).length) s' out) : Drains total s out

theorem drains_iff_within {fuel total : Nat} {s : σ} {out : Except LinkError Nat × σ}
    (h : DeliversBelow fuel s) : Drains total s out ↔ out = drainWithin fuel total s := by
  induction fuel generalizing total s with
  | zero => exact absurd h (not_deliversBelow_zero s)
  | succ fuel ih =>
    rw [drainWithin]
    rcases hread : Transport.read answerChunk s with ⟨answer, s'⟩
    constructor
    · intro hdrains
      cases hdrains with
      | silent h' | failed h' | ended h' =>
        cases hread.symm.trans h'
        rfl
      | heard h' hmore =>
        cases hread.symm.trans h'
        exact (ih (h.of_read hread)).mp hmore
    · rintro rfl
      cases answer with
      | silent => exact .silent hread
      | failed e => exact .failed hread
      | bytes bs =>
        cases bs with
        | nil => exact .ended hread
        | cons b bs => exact .heard hread ((ih (h.of_read hread)).mpr rfl)

theorem drains_iff (hfinite : Transport.Finite σ) {s : σ} {out : Except LinkError Nat × σ} :
    Drains 0 s out ↔ out = drain.outcome s :=
  drains_iff_within (hfinite.below s)

end Links

namespace Flash

/-! ## The rules -/

section Rules

variable {σ : Type} [Transport σ]

/-- Waiting for the answer to an operation. Frames that are no answer to it are passed over. -/
inductive Awaits (op : Loader.Op) (timeout : Nat) :
    Run σ → Except SessionError Unit × Run σ → Prop
  | found {r : Run σ} {result : Except SessionError Unit} {rest : List (List UInt8)}
      (h : findAnswer? op r.frames = some (result, rest)) :
      Awaits op timeout r (result, { r with frames := rest })
  | silent {r : Run σ} {s : σ} (hnone : findAnswer? op r.frames = none)
      (h : Transport.read loaderChunk r.link = (.silent, s)) :
      Awaits op timeout r (.error (.link (.timeout timeout)), { r with link := s, frames := [] })
  | failed {r : Run σ} {e : LinkError} {s : σ} (hnone : findAnswer? op r.frames = none)
      (h : Transport.read loaderChunk r.link = (.failed e, s)) :
      Awaits op timeout r (.error (.link e), { r with link := s, frames := [] })
  | ended {r : Run σ} {s : σ} (hnone : findAnswer? op r.frames = none)
      (h : Transport.read loaderChunk r.link = (.bytes [], s)) :
      Awaits op timeout r (.error (.link .closed), { r with link := s, frames := [] })
  | heard {r : Run σ} {b : UInt8} {bs : List UInt8} {s : σ} {out : Except SessionError Unit × Run σ}
      (hnone : findAnswer? op r.frames = none)
      (h : Transport.read loaderChunk r.link = (.bytes (b :: bs), s))
      (hmore : Awaits op timeout { r with
        link := s
        frames := (r.decoder.feed (b :: bs)).1
        decoder := (r.decoder.feed (b :: bs)).2 } out) : Awaits op timeout r out

/-- Sending a command and waiting for its answer. -/
inductive Command.Performs (c : Command) (r : Run σ) : Except SessionError Unit × Run σ → Prop
  | refused {e : LinkError} {s : σ} (h : Transport.write c.frame r.link = (.error e, s)) :
      Performs c r (.error (.link e), { r with link := s })
  | sent {s : σ} {out : Except SessionError Unit × Run σ}
      (h : Transport.write c.frame r.link = (.ok (), s))
      (hwait : Awaits c.op c.timeout { r with link := s } out) : Performs c r out

/-- Forgetting whatever has arrived, frames included. -/
inductive Forgets (r : Run σ) : Except SessionError Unit × Run σ → Prop
  | failed {e : LinkError} {s : σ} (h : Drains 0 r.link (.error e, s)) :
      Forgets r (.error (.link e), { r with link := s })
  | silent {n : Nat} {s : σ} (h : Drains 0 r.link (.ok n, s)) :
      Forgets r (.ok (), { r with link := s, decoder := {}, frames := [] })

/-- Waking the loader, with a number of attempts left. -/
inductive Syncs (attempts : Nat) : Nat → Run σ → Except SessionError Unit × Run σ → Prop
  | given (r : Run σ) : Syncs attempts 0 r (.error (.fault (.noSync attempts)), r)
  | woken {left : Nat} {r r₁ : Run σ} {out : Except SessionError Unit × Run σ}
      (h : syncCommand.Performs r (.ok (), r₁)) (hforget : Forgets r₁ out) :
      Syncs attempts (left + 1) r out
  | again {left ms : Nat} {r r₁ : Run σ} {out : Except SessionError Unit × Run σ}
      (h : syncCommand.Performs r (.error (.link (.timeout ms)), r₁))
      (hmore : Syncs attempts left r₁ out) : Syncs attempts (left + 1) r out
  | failed {left : Nat} {e : SessionError} {r r₁ : Run σ}
      (h : syncCommand.Performs r (.error e, r₁)) (hother : ∀ ms, e ≠ .link (.timeout ms)) :
      Syncs attempts (left + 1) r (.error e, r₁)

/-- Whether a step waits for something to arrive, or for nothing to. -/
def Action.waits : Action → Bool
  | .sync _ | .command _ | .settle => true
  | _ => false

variable (j : Job) (cancelled : σ → Bool)

/-- Doing what a step does. -/
inductive Action.Does : Action → Run σ → Except SessionError Unit × Run σ → Prop
  | sync {attempts : Nat} {r : Run σ} {out : Except SessionError Unit × Run σ}
      (h : Syncs attempts attempts r out) : Does (.sync attempts) r out
  | command {c : Command} {r : Run σ} {out : Except SessionError Unit × Run σ}
      (h : c.Performs r out) : Does (.command c) r out
  | settle {r : Run σ} {out : Except SessionError Unit × Run σ} (h : Forgets r out) :
      Does .settle r out
  | atOnce {a : Action} (h : a.waits = false) (r : Run σ) :
      Does a r ((a.perform j cancelled).outcome r)

/-- What the end of a step comes to: a link that fails while data is being written interrupts the
flash. -/
def Step.report (s : Step) : Except SessionError Unit × Run σ → Except SessionError Unit × Run σ
  | (.error (.link e), r) =>
    match s.written? with
    | some written =>
      (.error (.interrupted written e),
        { r with notices := r.notices ++ [.writingInterrupted written e] })
    | none => (.error (.link e), r)
  | out => out

/-- Taking steps in order up to the first that fails. -/
inductive Runs : List Step → Run σ → Except SessionError Unit × Run σ → Prop
  | nil (r : Run σ) : Runs [] r (.ok (), r)
  | cons {s : Step} {rest : List Step} {r r₁ : Run σ} {out : Except SessionError Unit × Run σ}
      (h : s.action.Does j cancelled r (.ok (), r₁)) (hrest : Runs rest r₁ out) :
      Runs (s :: rest) r out
  | failed {s : Step} {rest : List Step} {e : SessionError} {r r₁ : Run σ}
      (h : s.action.Does j cancelled r (.error e, r₁)) :
      Runs (s :: rest) r (s.report (.error e, r₁))

end Rules

/-! ## The rules lead to one end -/

section Ends

variable {σ : Type} [Transport σ] {out : Except SessionError Unit × Run σ}

theorem awaits_iff_within {op : Loader.Op} {timeout fuel : Nat} {r : Run σ}
    (h : DeliversBelow fuel r.link) :
    Awaits op timeout r out ↔ out = awaitWithin op timeout fuel r := by
  induction fuel generalizing r with
  | zero => exact absurd h (not_deliversBelow_zero r.link)
  | succ fuel ih =>
    rw [awaitWithin]
    cases hfound : findAnswer? op r.frames with
    | some answer =>
      constructor
      · intro hawaits
        cases hawaits with
        | found h' =>
          cases hfound.symm.trans h'
          rfl
        | silent hnone | failed hnone | ended hnone | heard hnone => cases hfound.symm.trans hnone
      · rintro rfl
        exact .found hfound
    | none =>
      rcases hread : Transport.read loaderChunk r.link with ⟨answer, s⟩
      simp only [hread]
      constructor
      · intro hawaits
        cases hawaits with
        | found h' => cases hfound.symm.trans h'
        | silent _ h' | failed _ h' | ended _ h' =>
          cases hread.symm.trans h'
          rfl
        | heard _ h' hmore =>
          cases hread.symm.trans h'
          exact (ih (h.of_read hread)).mp hmore
      · rintro rfl
        cases answer with
        | silent => exact .silent hfound hread
        | failed e => exact .failed hfound hread
        | bytes bs =>
          cases bs with
          | nil => exact .ended hfound hread
          | cons b bs => exact .heard hfound hread ((ih (h.of_read hread)).mpr rfl)

/-- Taking a step is doing it, and reporting what it comes to. -/
theorem Step.take_eq_report (j : Job) (cancelled : σ → Bool) (s : Step) (r : Run σ) :
    (s.take j cancelled).outcome r = s.report ((s.action.perform j cancelled).outcome r) := by
  rw [outcome_take]
  rcases (s.action.perform j cancelled).outcome r with ⟨result, r₁⟩
  rcases s with ⟨a, _ | written⟩
  · rcases result with (_ | _ | _ | _ | _ | _ | _ | _) | _ <;> rfl
  · rcases result with (_ | _ | _ | _ | _ | _ | _ | _) | _ <;> rfl

omit [Transport σ] in
/-- A failure remains one in its report. -/
theorem Step.exists_report_error (s : Step) (e : SessionError) (r : Run σ) :
    ∃ e' r', s.report (.error e, r) = (.error e', r') := by
  rcases s with ⟨a, _ | written⟩
  · cases e <;> exact ⟨_, _, rfl⟩
  · cases e <;> exact ⟨_, _, rfl⟩

variable (hfinite : Transport.Finite σ)
include hfinite

theorem awaits_iff {op : Loader.Op} {timeout : Nat} {r : Run σ} :
    Awaits op timeout r out ↔ out = (await op timeout).outcome r :=
  awaits_iff_within (hfinite.below r.link)

theorem Command.performs_iff {c : Command} {r : Run σ} :
    c.Performs r out ↔ out = c.perform.outcome r := by
  rw [perform, outcome_onLink_bind]
  rcases hwrite : (send (Slip.encode c.packet)).outcome r.link with ⟨answer, s⟩
  have hwrite : Transport.write c.frame r.link = (answer, s) := hwrite
  constructor
  · intro hperforms
    cases hperforms with
    | refused h =>
      cases hwrite.symm.trans h
      rfl
    | sent h hwait =>
      cases hwrite.symm.trans h
      exact (awaits_iff hfinite).mp hwait
  · rintro rfl
    cases answer with
    | error e => exact .refused hwrite
    | ok _ => exact .sent hwrite ((awaits_iff hfinite).mpr rfl)

theorem forgets_iff {r : Run σ} : Forgets r out ↔ out = forget.outcome r := by
  rw [forget, outcome_onLink_bind]
  rcases hdrain : drain.outcome r.link with ⟨result, s⟩
  constructor
  · intro hforgets
    cases hforgets with
    | failed h | silent h =>
      cases hdrain.symm.trans ((drains_iff hfinite).mp h).symm
      rfl
  · rintro rfl
    cases result with
    | error e => exact .failed ((drains_iff hfinite).mpr hdrain.symm)
    | ok n => exact .silent ((drains_iff hfinite).mpr hdrain.symm)

theorem syncs_iff {attempts left : Nat} {r : Run σ} :
    Syncs attempts left r out ↔ out = syncWithin attempts left r := by
  induction left generalizing r with
  | zero =>
    constructor
    · intro hsyncs
      cases hsyncs with
      | given => rfl
    · rintro rfl
      exact .given r
  | succ left ih =>
    rw [syncWithin]
    rcases hperform : syncCommand.perform.outcome r with ⟨result, r₁⟩
    constructor
    · intro hsyncs
      cases hsyncs with
      | woken h hforget =>
        cases hperform.symm.trans ((Command.performs_iff hfinite).mp h).symm
        exact (forgets_iff hfinite).mp hforget
      | again h hmore =>
        cases hperform.symm.trans ((Command.performs_iff hfinite).mp h).symm
        exact ih.mp hmore
      | failed h hother =>
        cases hperform.symm.trans ((Command.performs_iff hfinite).mp h).symm
        split
        · rename_i heq
          cases heq
        · rename_i ms _ heq
          cases heq
          exact absurd rfl (hother ms)
        · rename_i heq
          cases heq
          rfl
    · rintro rfl
      have hperforms : syncCommand.Performs r (result, r₁) :=
        (Command.performs_iff hfinite).mpr hperform.symm
      split
      · rename_i heq
        cases heq
        exact .woken hperforms ((forgets_iff hfinite).mpr rfl)
      · rename_i heq
        cases heq
        exact .again hperforms (ih.mpr rfl)
      · rename_i hother heq
        cases heq
        exact .failed hperforms fun ms he => hother ms (by rw [he])

variable {j : Job} {cancelled : σ → Bool}

theorem Action.does_iff {a : Action} {r : Run σ} :
    a.Does j cancelled r out ↔ out = (a.perform j cancelled).outcome r := by
  constructor
  · intro hdoes
    cases hdoes with
    | sync h => exact (syncs_iff hfinite).mp h
    | command h => exact (Command.performs_iff hfinite).mp h
    | settle h => exact (forgets_iff hfinite).mp h
    | atOnce => rfl
  · rintro rfl
    cases a with
    | sync attempts => exact .sync ((syncs_iff hfinite).mpr rfl)
    | command c => exact .command ((Command.performs_iff hfinite).mpr rfl)
    | settle => exact .settle ((forgets_iff hfinite).mpr rfl)
    | _ => exact .atOnce rfl r

theorem runs_iff {steps : List Step} {r : Run σ} :
    Runs j cancelled steps r out ↔ out = (takeAll j cancelled steps).outcome r := by
  induction steps generalizing r with
  | nil =>
    constructor
    · intro hruns
      cases hruns with
      | nil => rfl
    · rintro rfl
      exact .nil r
  | cons s rest ih =>
    rw [takeAll_cons]
    rcases hperform : (s.action.perform j cancelled).outcome r with ⟨result, r₁⟩
    have htake := s.take_eq_report j cancelled r
    rw [hperform] at htake
    constructor
    · intro hruns
      cases hruns with
      | cons h hrest =>
        cases hperform.symm.trans ((Action.does_iff hfinite).mp h).symm
        rw [Operation.bind_of_ok htake]
        exact ih.mp hrest
      | failed h =>
        cases hperform.symm.trans ((Action.does_iff hfinite).mp h).symm
        obtain ⟨e', r', hreport⟩ := s.exists_report_error _ r₁
        rw [hreport] at htake ⊢
        exact (Operation.bind_of_error htake).symm
    · intro hout
      have hdoes : s.action.Does j cancelled r (result, r₁) :=
        (Action.does_iff hfinite).mpr hperform.symm
      cases result with
      | ok _ =>
        rw [Operation.bind_of_ok htake] at hout
        exact .cons hdoes (ih.mpr hout)
      | error e =>
        obtain ⟨e', r', hreport⟩ := s.exists_report_error e r₁
        rw [hreport] at htake
        rw [hout, Operation.bind_of_error htake, ← hreport]
        exact .failed hdoes

end Ends

end Flash

/-! ## A whole flash -/

section Whole

open Flash

variable {σ : Type} [Transport σ]

/-- A whole flash, by the rules. -/
def Flashes (j : Job) (cancelled : σ → Bool) (link : σ) (f : Flashed σ) : Prop :=
  ∃ result r, Runs j cancelled j.plan (.start j link) (result, r) ∧
    f = { result := result.map fun () => j.report, link := r.link, progress := r.progress,
          notices := r.notices }

/-- **A flash over a finite link ends, in one way.** -/
theorem flashes_iff (hfinite : Transport.Finite σ) {j : Job} {cancelled : σ → Bool} {link : σ}
    {f : Flashed σ} : Flashes j cancelled link f ↔ f = flash j cancelled link := by
  rw [flash_eq]
  constructor
  · rintro ⟨result, r, hruns, rfl⟩
    rw [← (runs_iff hfinite).mp hruns]
  · rintro rfl
    exact ⟨_, _, (runs_iff hfinite).mpr rfl, rfl⟩

/-- A link is finite whether it is being watched or not. -/
theorem Transport.Finite.recorded (hfinite : Transport.Finite σ) : Transport.Finite (Recorded σ) := by
  have hbehind : ∀ (k : Nat) (s s' : Recorded σ), Delivers k s s' → Delivers k s.link s'.link := by
    intro k s s' hdelivers
    induction hdelivers with
    | nil s => exact .nil s.link
    | @cons n k b bs s s₁ s' h _ ih =>
      have hread := observes_recorded.read n s
      rw [h] at hread
      exact .cons hread ih
  exact fun k s s' hdelivers => hfinite k s.link s'.link (hbehind k s s' hdelivers)

end Whole

end BlockBoard

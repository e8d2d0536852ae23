import BlockchainTask.Library.Runs
import BlockchainTask.SchedulerJob.Base

/-! # Interleaved ticks of one scheduler

The cron package starts a tick whenever its time has come, whether or not the
last one has ended. Ticks give way to each other only at their awaits, so a tick
is cut into the segments between them: `segment` does what is left up to the
end of the next await, and says where the tick stands after it. `resume` is the
rest of `processWork` from there, and one segment followed by the rest is the
rest (`resume_segment`), so a tick that is never interrupted does what
`processWork` does.

The flag is read in one segment and set in a later one. Between the two,
another tick may read it as well. -/
namespace BlockchainTask.SchedulerJob.Ticks
open BlockchainTask.Common.Exception
open BlockchainTask.Library.Effect BlockchainTask.Library.Transaction BlockchainTask.Library.Runs
open BlockchainTask.SchedulerJob.Base

variable {T : Type}

/-! ## The segments of a tick -/

/-- The await a tick stands at. -/
inductive Phase where
  /-- `findScheduler` of `checkState` -/
  | checking
  /-- `updateProcessing(true)` -/
  | starting
  | running
  /-- `updateProcessing(false)` after the run -/
  | clearing
  /-- `updateStatus(false)` and `updateError(true)` of a fatal exception -/
  | fatalStatus
  | fatalError
  /-- `updateStatus(true)` and `updateProcessing(false)` of a normal exception -/
  | normalStatus
  | normalProcessing
  | done
  deriving DecidableEq

section
variable (lib : CronLibrary) (job : Job T) (faults : WorkFaults)

/-- The catch block up to its first await. -/
def caught (e : Thrown) : WorkEff T Phase := do
  match e with
  | .error _ => .throw (errorHandler e)
  | .exception _ level _ =>
    .update fun s => { s with logger := s.logger.setError e }
    match level with
    | .Fatal =>
      setLoggerLevel .ERROR
      deleteScheduler
      pure .fatalStatus
    | .Normal =>
      setLoggerLevel .WARN
      pure .normalStatus

def segment (phase : Phase) : WorkEff T Phase :=
  match phase with
  | .checking => .tryCatch (do
      let doJob ← checkState lib faults.findScheduler
      pure (if !doJob then .done else .starting)) caught
  | .starting => .tryCatch (do
      updateProcessing faults.processingTrue true
      pure .running) caught
  | .running => .tryCatch (do
      onSession job.run
      pure .clearing) caught
  | .clearing => .tryCatch (do
      updateProcessing faults.processingFalse false
      setMessage "success"
      pure .done) caught
  | .fatalStatus => do
      updateStatus faults.statusInCatch false
      pure .fatalError
  | .fatalError => do
      updateError faults.errorInCatch true
      pure .done
  | .normalStatus => do
      updateStatus faults.statusInCatch true
      pure .normalProcessing
  | .normalProcessing => do
      updateProcessing faults.processingInCatch false
      pure .done
  | .done => pure .done

/-- What `processWork` still has to do. -/
def resume (phase : Phase) : WorkEff T Unit :=
  match phase with
  | .checking => processWork lib job faults
  | .starting => .tryCatch (do
      updateProcessing faults.processingTrue true
      work job faults) (handleError faults)
  | .running => .tryCatch (work job faults) (handleError faults)
  | .clearing => .tryCatch (do
      updateProcessing faults.processingFalse false
      setMessage "success") (handleError faults)
  | .fatalStatus => do
      updateStatus faults.statusInCatch false
      updateError faults.errorInCatch true
  | .fatalError => updateError faults.errorInCatch true
  | .normalStatus => do
      updateStatus faults.statusInCatch true
      updateProcessing faults.processingInCatch false
  | .normalProcessing => updateProcessing faults.processingInCatch false
  | .done => pure ()

end

/-! ## Segments and the whole tick -/

variable {lib : CronLibrary} {job : Job T} {faults : WorkFaults}

theorem handleError_caught (e : Thrown) (s : JobState T) :
    handleError faults e s = (caught e >>= resume lib job faults) s := by
  obtain ⟨session, registered, cron, logger⟩ := s
  cases e with
  | error m => rfl
  | exception m level d =>
    cases level with
    | Normal => rfl
    | Fatal => cases registered <;> rfl

/-- A try block, cut after its first await: an error of the await is caught at
once, and otherwise the cut block goes on as the whole one. -/
theorem tryCatch_cut {β : Type} {m : WorkEff T β} {k : β → WorkEff T Unit}
    {q : β → WorkEff T Phase}
    (h : ∀ b t, Eff.tryCatch (k b) (handleError faults) t =
      (Eff.tryCatch (q b) caught >>= resume lib job faults) t) (s : JobState T) :
    Eff.tryCatch (m >>= k) (handleError faults) s =
      (Eff.tryCatch (m >>= q) caught >>= resume lib job faults) s := by
  cases hm : m s with
  | mk r t =>
    cases r with
    | ok b =>
      have hcut := h b t
      simp only [Eff.tryCatch, Eff.bind_eq] at hcut
      simp only [Eff.tryCatch, Eff.bind_eq, hm]
      exact hcut
    | error e =>
      have hcaught : handleError faults e t = (caught e >>= resume lib job faults) t :=
        handleError_caught e t
      simp only [Eff.bind_eq] at hcaught
      simp only [Eff.tryCatch, Eff.bind_eq, hm]
      exact hcaught

/-- An await outside the try block. -/
theorem await_cut (m : WorkEff T Unit) {k : WorkEff T Unit} (p : Phase)
    (h : ∀ t, k t = resume lib job faults p t) (s : JobState T) :
    (m >>= fun _ => k) s = ((m >>= fun _ => pure p) >>= resume lib job faults) s := by
  cases hm : m s with
  | mk r t =>
    cases r with
    | ok _ =>
      simp only [Eff.bind_eq, hm]
      exact h t
    | error e => simp only [Eff.bind_eq, hm]

/-- The last await of a tick. -/
theorem last_cut (m : WorkEff T Unit) (s : JobState T) :
    m s = ((m >>= fun _ => pure .done) >>= resume lib job faults) s := by
  cases hm : m s with
  | mk r t =>
    cases r with
    | ok _ => simp only [Eff.bind_eq, hm]; rfl
    | error e => simp only [Eff.bind_eq, hm]

/-- **One segment, then the rest, is the rest.** -/
theorem resume_segment (phase : Phase) (s : JobState T) :
    resume lib job faults phase s =
      (segment lib job faults phase >>= resume lib job faults) s := by
  cases phase with
  | checking =>
    refine tryCatch_cut (fun doJob t => ?_) s
    cases doJob <;> rfl
  | starting => exact tryCatch_cut (fun _ _ => rfl) s
  | running => exact tryCatch_cut (fun _ _ => rfl) s
  | clearing => exact tryCatch_cut (fun _ _ => rfl) s
  | fatalStatus =>
    exact await_cut (updateStatus faults.statusInCatch false) .fatalError (fun _ => rfl) s
  | fatalError => exact last_cut (updateError faults.errorInCatch true) s
  | normalStatus =>
    exact await_cut (updateStatus faults.statusInCatch true) .normalProcessing (fun _ => rfl) s
  | normalProcessing => exact last_cut (updateProcessing faults.processingInCatch false) s
  | done => rfl

/-! ## Ticks side by side -/

/-- One tick under way, with what it has in its own memory. -/
structure Activation (T : Type) where
  job : Job T
  faults : WorkFaults
  phase : Phase
  session : Session (Db T) LoggerData
  logger : SchedulerLogger

/-- What all ticks share, and the ticks in the order they were started. -/
structure Sys (T : Type) where
  db : Db T
  registered : Bool
  cron : String
  activations : List (Activation T)

def Sys.load (s : Sys T) (a : Activation T) : JobState T :=
  ⟨{ a.session with db := s.db }, s.registered, s.cron, a.logger⟩

def Activation.saved (a : Activation T) (phase : Phase) (t : JobState T) : Activation T :=
  { a with phase, session := t.session, logger := t.logger }

def Sys.saved (s : Sys T) (i : Nat) (a : Activation T) (t : JobState T) : Sys T :=
  ⟨t.session.db, t.registered, t.cron, s.activations.set i a⟩

inductive Action (T : Type) where
  /-- The cron package starts a tick. -/
  | fire (job : Job T) (faults : WorkFaults)
  /-- A tick goes on to the end of its next await. -/
  | advance (i : Nat)

/-- Where a tick stands after a segment. A rejected tick is over. -/
def landing : Except Thrown Phase → Phase
  | .ok phase => phase
  | .error _ => .done

def step (lib : CronLibrary) (s : Sys T) : Action T → Option (Sys T)
  | .fire job faults =>
    if s.registered then
      some { s with activations := s.activations ++ [⟨job, faults, .checking, startSession s.db, .new⟩] }
    else none
  | .advance i =>
    match s.activations[i]? with
    | none => none
    | some a =>
      if a.phase = .done then none
      else
        let p := segment lib a.job a.faults a.phase (s.load a)
        some (s.saved i (a.saved (landing p.1) p.2) p.2)

theorem step_cases {s u : Sys T} {act : Action T} (h : step lib s act = some u) :
    (∃ job faults, act = .fire job faults ∧ s.registered = true ∧
      u = { s with activations := s.activations ++
        [⟨job, faults, .checking, startSession s.db, .new⟩] }) ∨
    (∃ i a r t, act = .advance i ∧ s.activations[i]? = some a ∧ a.phase ≠ .done ∧
      segment lib a.job a.faults a.phase (s.load a) = (r, t) ∧
      u = s.saved i (a.saved (landing r) t) t) := by
  cases act with
  | fire job faults =>
    simp only [step] at h
    split at h
    · exact Or.inl ⟨job, faults, rfl, ‹_›, (Option.some.inj h).symm⟩
    · cases h
  | advance i =>
    simp only [step] at h
    split at h
    · cases h
    · rename_i a ha
      split at h
      · cases h
      · exact Or.inr ⟨i, a, _, _, rfl, ha, ‹_›, rfl, (Option.some.inj h).symm⟩

/-- What is left of a tick to do from here ends where all of it ends. -/
def Continues (lib : CronLibrary) (s : Sys T) (i : Nat) (a : Activation T) (t : Sys T) : Prop :=
  ∃ c, t.activations[i]? = some c ∧ c.job = a.job ∧ c.faults = a.faults ∧
    (resume lib c.job c.faults c.phase (t.load c)).2 =
      (processWork lib a.job a.faults (s.load a)).2

theorem Continues.step {s t u : Sys T} {i : Nat} {a : Activation T}
    (hstep : step lib t (.advance i) = some u) (h : Continues lib s i a t) :
    Continues lib s i a u := by
  obtain ⟨c, hc, hjob, hfaults, hrest⟩ := h
  rcases step_cases hstep with ⟨_, _, hfire, _⟩ | ⟨j, c', r, t', hadv, hc', _, hseg, rfl⟩
  · cases hfire
  · cases hadv
    rw [hc] at hc'
    cases hc'
    have hi : i < t.activations.length := (List.getElem?_eq_some_iff.mp hc).1
    refine ⟨c.saved (landing r) t', by simp [Sys.saved, hi], hjob, hfaults, ?_⟩
    rw [resume_segment, Eff.bind_eq, hseg] at hrest
    cases r with
    | ok phase => exact hrest
    | error e => exact hrest

/-- A tick that goes on alone to its end leaves the shared state as
`processWork`, called in one piece, does. -/
theorem alone_processWork {s u : Sys T} {i : Nat} {a b : Activation T}
    (h : Reaches (step lib) (fun _ act => act = .advance i) s u)
    (ha : s.activations[i]? = some a) (hstart : a.phase = .checking)
    (hb : u.activations[i]? = some b) (hdone : b.phase = .done) :
    u.db = (processWork lib a.job a.faults (s.load a)).2.session.db ∧
      u.registered = (processWork lib a.job a.faults (s.load a)).2.registered ∧
      u.cron = (processWork lib a.job a.faults (s.load a)).2.cron := by
  have hstep : ∀ t act u', act = .advance i → step lib t act = some u' →
      Continues lib s i a t → Continues lib s i a u' := by
    intro t act u' hact htaken hcontinues
    exact hcontinues.step (hact ▸ htaken)
  have hfirst : Continues lib s i a s := ⟨a, ha, rfl, rfl, by rw [hstart]; rfl⟩
  obtain ⟨c, hc, _, _, hend⟩ := h.invariant (Continues lib s i a) hstep hfirst
  rw [hb] at hc
  cases hc
  rw [hdone] at hend
  rw [← hend]
  exact ⟨rfl, rfl, rfl⟩

end BlockchainTask.SchedulerJob.Ticks

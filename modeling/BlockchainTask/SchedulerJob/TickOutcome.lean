import BlockchainTask.SchedulerJob.InteractionTemplate

/-! # How a tick whose work fails ends

`processWork` catches whatever its work throws, and is meant to leave the
scheduler settled: ready for the next tick, or taken out of the registry and
marked with the error. For an `Exception` the catch block does one of the two,
by the exception's level. For any other error it calls `errorHandler`, which
throws instead of returning the exception it builds, so neither happens. -/
namespace BlockchainTask.SchedulerJob.TickOutcome
open BlockchainTask.Common.Exception
open BlockchainTask.Library.Effect BlockchainTask.Library.Transaction
open BlockchainTask.Library.Store
open BlockchainTask.SchedulerJob.Base

variable {T : Type} {lib : CronLibrary} {job : Job T} {faults : WorkFaults} {s t : JobState T}
  {e : Thrown}

/-- The next tick may run again, or the job is out of the registry and its row
says why. -/
def Settled (s : JobState T) : Prop :=
  (∃ r, s.session.db.scheduler = some r ∧ r.process = false ∧ s.registered = true) ∨
    (∃ r, s.session.db.scheduler = some r ∧ r.status = false ∧ r.error = true ∧
      s.registered = false)

/-- A tick of a registered job that got past the flag and then threw `e`, while
the updates of the catch block would succeed. -/
def FailedTick (lib : CronLibrary) (job : Job T) (faults : WorkFaults) (s : JobState T)
    (e : Thrown) : Prop :=
  s.registered = true ∧
    (faults.statusInCatch = none ∧ faults.errorInCatch = none ∧ faults.processingInCatch = none) ∧
    ∃ s₁ s₂ s₃, checkState lib faults.findScheduler s = (.ok true, s₁) ∧
      updateProcessing faults.processingTrue true s₁ = (.ok (), s₂) ∧
      work job faults s₂ = (.error e, s₃)

/-! ## The catch block -/

/-- The handler's own throw leaves everything as it was. -/
theorem handleError_error (m : Option String) :
    (handleError faults (.error m) s).2 = s := rfl

theorem handleError_fatal {m : String} {d : Option Thrown} (hreg : s.registered = true)
    (hstatus : faults.statusInCatch = none) (herror : faults.errorInCatch = none) :
    (handleError faults (.exception m .Fatal d) s).2.registered = false ∧
      (handleError faults (.exception m .Fatal d) s).2.session.db.scheduler =
        s.session.db.scheduler.map fun r => { r with status := false, error := true } := by
  have hwp : Eff.wp (handleError faults (.exception m .Fatal d))
      (fun _ t => t.registered = false ∧ t.session.db.scheduler =
        s.session.db.scheduler.map fun r => { r with status := false, error := true })
      (fun _ _ => False) s := by
    simp only [handleError, setLoggerLevel, deleteScheduler, updateStatus, updateError,
      updateScheduler, connectionWrite, hstatus, herror, Option.map_none, Eff.wp_bind, Eff.wp_update, Eff.wp_read,
      wp_onSession, Eff.wp_mayFail_none, Db.setScheduler_scheduler, Option.map_map]
    rw [if_pos hreg, Eff.wp_update]
    exact ⟨rfl, rfl⟩
  exact Eff.wp_final (Eff.wp_mono hwp (fun _ _ h => h) (fun _ _ h => h.elim))

theorem handleError_normal {m : String} {d : Option Thrown}
    (hstatus : faults.statusInCatch = none) (hprocess : faults.processingInCatch = none) :
    (handleError faults (.exception m .Normal d) s).2.registered = s.registered ∧
      (handleError faults (.exception m .Normal d) s).2.session.db.scheduler =
        s.session.db.scheduler.map fun r => { r with status := true, process := false } := by
  have hwp : Eff.wp (handleError faults (.exception m .Normal d))
      (fun _ t => t.registered = s.registered ∧ t.session.db.scheduler =
        s.session.db.scheduler.map fun r => { r with status := true, process := false })
      (fun _ _ => False) s := by
    simp only [handleError, setLoggerLevel, updateStatus, updateProcessing, updateScheduler,
      connectionWrite, hstatus, hprocess, Option.map_none, Eff.wp_bind, Eff.wp_update, wp_onSession,
      Eff.wp_mayFail_none, Db.setScheduler_scheduler, Option.map_map]
    exact ⟨trivial, rfl⟩
  exact Eff.wp_final (Eff.wp_mono hwp (fun _ _ h => h) (fun _ _ h => h.elim))

/-- When the work of a failed tick throws, the job is registered, its row is
there, and the process flag is set. -/
theorem FailedTick.at_throw (h : FailedTick lib job faults s e) :
    ∃ t, processWork lib job faults s = handleError faults e t ∧ t.registered = true ∧
      ∃ r, t.session.db.scheduler = some r ∧ r.process = true := by
  obtain ⟨hreg, _, s₁, s₂, s₃, hcheck, hflag, hthrow⟩ := h
  obtain ⟨rfl, row, hrow, _⟩ := checkState_true hcheck
  obtain ⟨_, rfl⟩ := updateProcessing_ok hflag
  obtain ⟨hkept, hflags⟩ := work_throws hthrow
  refine ⟨s₃, processWork_throws hcheck hflag hthrow, hkept.trans hreg, ?_⟩
  have hset : s₃.flags = some { row.flags with process := true } := by
    rw [hflags]
    simp only [JobState.flags, JobState.setScheduler, Db.flags, Db.setScheduler_scheduler, hrow]
    rfl
  obtain ⟨r, hr, hrf⟩ := Option.map_eq_some_iff.mp hset
  exact ⟨r, hr, congrArg Flags.process hrf⟩

/-- **A failed tick settles exactly when it threw an `Exception`.** -/
theorem settled_iff_isException (h : FailedTick lib job faults s e) :
    Settled (processWork lib job faults s).2 ↔ e.isException = true := by
  obtain ⟨hstatus, herror, hprocess⟩ := h.2.1
  obtain ⟨t, hend, hreg, r, hr, hset⟩ := h.at_throw
  rw [hend]
  cases e with
  | error m =>
    rw [handleError_error]
    refine ⟨?_, fun hexc => by cases hexc⟩
    rintro (⟨r', hr', hclear, _⟩ | ⟨_, _, _, _, hgone⟩)
    · rw [hr] at hr'
      cases hr'
      rw [hset] at hclear
      cases hclear
    · rw [hreg] at hgone
      cases hgone
  | exception m level d =>
    refine ⟨fun _ => rfl, fun _ => ?_⟩
    cases level with
    | Fatal =>
      obtain ⟨hgone, hrow⟩ := handleError_fatal (m := m) (d := d) hreg hstatus herror
      rw [hr] at hrow
      exact Or.inr ⟨_, hrow, rfl, rfl, hgone⟩
    | Normal =>
      obtain ⟨hkept, hrow⟩ := handleError_normal (s := t) (m := m) (d := d) hstatus hprocess
      rw [hr] at hrow
      exact Or.inl ⟨_, hrow, rfl, hkept.trans hreg⟩

/-! ## The interaction job on a node that does not answer

The reads at the start of the interaction job's `run` are outside its try
block. -/
section
open BlockchainTask.SchedulerJob.InteractionTemplate

def exampleEnv : Env := .steady 10 (fun _ => .result) fun _ => false

/-- The batch request is not answered in time. -/
def timeoutJob : Job Interactions :=
  interactionJob 1 (fun _ => []) { exampleEnv with batchFault := some (rawError "ETIMEDOUT") }

/-- The node does not say how many blocks there are. -/
def silentJob : Job Interactions :=
  interactionJob 1 (fun _ => [])
    { exampleEnv with getBlockNumber := .error (rawError "missing response") }

def exampleState : JobState Interactions :=
  ⟨startSession ⟨some ⟨"EVERY_SECOND", some 0, none, false, false, true⟩, Table.empty⟩, true,
    "* * * * * *", .new⟩

/-- The timeout is wrapped inside `run`, and the tick settles. -/
theorem batch_timeout_settles :
    Settled (processWork .everySecond timeoutJob .none exampleState).2 := by
  refine (settled_iff_isException (e := errorHandler (rawError "ETIMEDOUT"))
    ⟨rfl, ⟨rfl, rfl, rfl⟩, _, _, _, rfl, rfl, rfl⟩).mpr ?_
  decide

/-- The rejection of `getBlockNumber` is not wrapped: the tick ends with the
flag set and the job registered, and every later tick finds it already
processing. -/
theorem missing_response_not_settled :
    FailedTick .everySecond silentJob .none exampleState (rawError "missing response") ∧
      ¬ Settled (processWork .everySecond silentJob .none exampleState).2 := by
  refine ⟨⟨rfl, ⟨rfl, rfl, rfl⟩, _, _, _, rfl, rfl, rfl⟩, ?_⟩
  rintro (⟨r, hr, hclear, _⟩ | ⟨_, _, _, _, hgone⟩)
  · cases hr
    cases hclear
  · cases hgone

end

end BlockchainTask.SchedulerJob.TickOutcome

import BlockchainTask.Common.Exception
import BlockchainTask.Library.Transaction

/-! # The scheduler job

`processWork` is what the cron job of a scheduler calls on every tick: it reads
the scheduler's row, sets its `process` flag, runs the job's template, clears
the flag, and on an error decides by the exception's level whether the job may
tick again. A job is its `run` together with the fact that `run` leaves the
flags of the scheduler's row alone; templates write only the cursors. -/
namespace BlockchainTask.SchedulerJob.Base
open BlockchainTask.Library.Effect BlockchainTask.Library.Transaction
open BlockchainTask.Common.Exception

/-! ## The scheduler's row and the database of one job -/

structure Scheduler where
  cron : String
  block_number : Option Nat
  pid : Option Nat
  error : Bool
  process : Bool
  status : Bool
  deriving DecidableEq

/-- The row of the job's own scheduler, if it has one, and the other tables. -/
structure Db (T : Type) where
  scheduler : Option Scheduler
  tables : T

def Db.setScheduler {T : Type} (set : Scheduler → Scheduler) (db : Db T) : Db T :=
  { db with scheduler := db.scheduler.map set }

def Db.setTables {T : Type} (set : T → T) (db : Db T) : Db T := { db with tables := set db.tables }

@[simp] theorem Db.setScheduler_scheduler {T : Type} (f) (db : Db T) :
    (db.setScheduler f).scheduler = db.scheduler.map f := rfl
@[simp] theorem Db.setScheduler_tables {T : Type} (f) (db : Db T) :
    (db.setScheduler f).tables = db.tables := rfl
@[simp] theorem Db.setTables_scheduler {T : Type} (f) (db : Db T) :
    (db.setTables f).scheduler = db.scheduler := rfl
@[simp] theorem Db.setTables_tables {T : Type} (f) (db : Db T) :
    (db.setTables f).tables = f db.tables := rfl

/-- What the tick logic of a row consists of, without the template's cursors. -/
structure Flags where
  cron : String
  error : Bool
  process : Bool
  status : Bool
  deriving DecidableEq

def Scheduler.flags (s : Scheduler) : Flags := ⟨s.cron, s.error, s.process, s.status⟩

def Db.flags {T : Type} (db : Db T) : Option Flags := db.scheduler.map Scheduler.flags

/-- `loggerData` of the templates; each fills in the entries it has. -/
structure LoggerData where
  total : Option Nat
  current : Option Nat
  start : Option Nat
  end_ : Option Nat
  worked : List Nat
  failed : List (Nat × Thrown)

def LoggerData.empty : LoggerData := ⟨none, none, none, none, [], []⟩

instance : TransactionErrors Thrown where
  transactionNotStarted := rawError "Transaction is not started yet, start transaction before committing or rolling it back."

abbrev JobEff (T α : Type) : Type := Eff (Session (Db T) LoggerData) Thrown α

def findScheduler {T : Type} (fault : Option Thrown) : JobEff T (Option Scheduler) :=
  connectionRead fault Db.scheduler

/-- `updateScheduler` without a manager. -/
def updateScheduler {T : Type} (fault : Option Thrown) (set : Scheduler → Scheduler) :
    JobEff T Unit :=
  connectionWrite fault (Db.setScheduler set)

/-- `updateScheduler` through the query runner's manager. -/
def updateSchedulerWith {T : Type} (fault : Option Thrown) (set : Scheduler → Scheduler) :
    JobEff T Unit :=
  managerWrite fault (fun _ => none) (Db.setScheduler set)

/-- The number a template resumes at: a column of the scheduler's row, `0` where
it is null. -/
def schedulerCursor {T : Type} (fault : Option Thrown) (column : Scheduler → Option Nat) :
    JobEff T Nat := do
  match ← findScheduler fault with
  | none => .throw (rawError "Not found scheduler")
  | some scheduler => pure ((column scheduler).getD 0)

theorem wp_schedulerCursor {T : Type} {fault : Option Thrown} {column : Scheduler → Option Nat}
    {s : Session (Db T) LoggerData} {Q : Nat → Session (Db T) LoggerData → Prop}
    {R : Thrown → Session (Db T) LoggerData → Prop}
    (hQ : ∀ r, fault = none → s.db.scheduler = some r → Q ((column r).getD 0) s)
    (hR : ∀ e, ¬ (fault = none ∧ s.db.scheduler.isSome = true) → R e s) :
    Eff.wp (schedulerCursor fault column) Q R s := by
  simp only [schedulerCursor, findScheduler, connectionRead, Eff.wp_bind, Eff.wp_mayFail,
    Eff.wp_read]
  refine ⟨fun hfault => ?_, fun e hfault => hR e fun h => ?_⟩
  · cases hr : s.db.scheduler with
    | none => exact hR _ fun h => by simp [hr] at h
    | some r => exact hQ r hfault hr
  · rw [hfault] at h
    cases h.1

/-- The session of a fresh activation. -/
def startSession {T : Type} (db : Db T) : Session (Db T) LoggerData := ⟨db, none, 0, .empty⟩

/-- The committed data after one run on its own. -/
def afterRun {T : Type} (run : JobEff T Unit) (db : Db T) : Db T := (run (startSession db)).2.db

theorem afterRun_of_wp {T : Type} {run : JobEff T Unit} {db : Db T} (P : Db T → Prop)
    (h : Eff.wp run (fun _ t => P t.db) (fun _ t => P t.db) (startSession db)) :
    P (afterRun run db) :=
  Eff.wp_final (P := fun t : Session (Db T) LoggerData => P t.db) h

/-- Where a scheduler's column stands in the committed data. -/
def Db.cursor {T : Type} (column : Scheduler → Option Nat) (db : Db T) : Nat :=
  (db.scheduler.bind column).getD 0

/-- A template's `run`, which never touches the flags. -/
structure Job (T : Type) where
  run : JobEff T Unit
  keepsFlags : ∀ s, Eff.wp run (fun _ t => t.db.flags = s.db.flags)
    (fun _ t => t.db.flags = s.db.flags) s

/-! ## A tick -/

inductive SchedulerLoggerLevel where
  | SUCCESS
  | WARN
  | ERROR
  deriving DecidableEq

structure SchedulerLogger where
  logLevel : SchedulerLoggerLevel
  message : Option String
  error : Option Thrown

def SchedulerLogger.new : SchedulerLogger := ⟨.SUCCESS, none, none⟩

/-- An exception's own text is the message of the log unless one is set. -/
def SchedulerLogger.setError (e : Thrown) (l : SchedulerLogger) : SchedulerLogger :=
  if e.isException then { l with error := some e, message := l.message.or e.message }
  else { l with error := some e }

/-- The session of the activation, whether the registry has the cron job, the
cron string the job runs on, and the tick's log. -/
structure JobState (T : Type) where
  session : Session (Db T) LoggerData
  registered : Bool
  cron : String
  logger : SchedulerLogger

abbrev WorkEff (T α : Type) : Type := Eff (JobState T) Thrown α

variable {T α : Type}

def onSession (m : JobEff T α) : WorkEff T α := fun s =>
  ((m s.session).1, { s with session := (m s.session).2 })

theorem wp_onSession {m : JobEff T α} {Q : α → JobState T → Prop} {R : Thrown → JobState T → Prop}
    {s : JobState T} :
    Eff.wp (onSession m) Q R s ↔ Eff.wp m (fun a t => Q a { s with session := t })
      (fun e t => R e { s with session := t }) s.session := by
  unfold Eff.wp onSession
  obtain ⟨r, t⟩ := m s.session
  cases r <;> rfl

/-- What the cron package knows: the expression of a name of `CronExpression`,
and which strings it accepts. -/
structure CronLibrary where
  expression : String → Option String
  isCronString : Option String → Bool

/-- The part of the package that the default cron string needs. -/
def CronLibrary.everySecond : CronLibrary where
  expression := fun name => if name = "EVERY_SECOND" then some "* * * * * *" else none
  isCronString := Option.isSome

/-- The awaits of `processWork` outside `run`. All are database calls. -/
structure WorkFaults where
  findScheduler : Option RawError
  processingTrue : Option RawError
  processingFalse : Option RawError
  statusInCatch : Option RawError
  errorInCatch : Option RawError
  processingInCatch : Option RawError

def WorkFaults.none : WorkFaults := ⟨.none, .none, .none, .none, .none, .none⟩

def setMessage (m : String) : WorkEff T Unit :=
  .update fun s => { s with logger := { s.logger with message := some m } }

def setLoggerLevel (l : SchedulerLoggerLevel) : WorkEff T Unit :=
  .update fun s => { s with logger := { s.logger with logLevel := l } }

/-- The registry throws for a job it does not have. -/
def deleteScheduler : WorkEff T Unit := do
  if ← .read JobState.registered then .update fun s => { s with registered := false }
  else .throw (rawError "No Cron Job was found with the given name")

def updateProcessing (fault : Option RawError) (process : Bool) : WorkEff T Unit :=
  onSession (updateScheduler (fault.map RawError.thrown) fun r => { r with process })

def updateStatus (fault : Option RawError) (status : Bool) : WorkEff T Unit :=
  onSession (updateScheduler (fault.map RawError.thrown) fun r => { r with status })

def updateError (fault : Option RawError) (error : Bool) : WorkEff T Unit :=
  onSession (updateScheduler (fault.map RawError.thrown) fun r => { r with error })

/-- The write behind each of the three. -/
theorem wp_writeScheduler {fault : Option RawError} {set : Scheduler → Scheduler}
    {Q : Unit → JobState T → Prop} {R : Thrown → JobState T → Prop} {s : JobState T} :
    Eff.wp (onSession (updateScheduler (fault.map RawError.thrown) set)) Q R s ↔
      (fault.map RawError.thrown = none →
        Q () { s with session := { s.session with db := s.session.db.setScheduler set } }) ∧
      ∀ e, fault.map RawError.thrown = some e → R e s := by
  simp only [updateScheduler, connectionWrite, wp_onSession, Eff.wp_bind, Eff.wp_mayFail,
    Eff.wp_update]

def checkState (lib : CronLibrary) (fault : Option RawError) : WorkEff T Bool := do
  match ← onSession (findScheduler (fault.map RawError.thrown)) with
  | none =>
    -- not registered in the database
    deleteScheduler
    setMessage "Not found scheduler"
    setLoggerLevel .WARN
    pure false
  | some scheduler =>
    if scheduler.process then
      setMessage "already processing"
      setLoggerLevel .WARN
      pure false
    else if some (← .read JobState.cron) ≠ lib.expression scheduler.cron then
      match lib.expression scheduler.cron with
      | some cron =>
        if lib.isCronString (some cron) then
          setMessage ("change cron (" ++ (← .read JobState.cron) ++ " => " ++ cron ++ ")")
          .update fun s => { s with cron }
        else setMessage "Invalid cron string"
      | none => setMessage "Invalid cron string"
      pure false
    else pure true

/-- The try block after the process flag is set. -/
def work (job : Job T) (faults : WorkFaults) : WorkEff T Unit := do
  onSession job.run
  updateProcessing faults.processingFalse false
  setMessage "success"

/-- The catch block. For an error that is not an `Exception`, `errorHandler`
throws and the rest of the block is not reached. -/
def handleError (faults : WorkFaults) (e : Thrown) : WorkEff T Unit := do
  match e with
  | .error _ => .throw (errorHandler e)
  | .exception _ level _ =>
    .update fun s => { s with logger := s.logger.setError e }
    match level with
    | .Fatal =>
      setLoggerLevel .ERROR
      deleteScheduler
      updateStatus faults.statusInCatch false
      updateError faults.errorInCatch true
    | .Normal =>
      setLoggerLevel .WARN
      updateStatus faults.statusInCatch true
      updateProcessing faults.processingInCatch false

/-- One tick. The finally block only writes the log. -/
def processWork (lib : CronLibrary) (job : Job T) (faults : WorkFaults) : WorkEff T Unit :=
  .tryCatch (do
      let doJob ← checkState lib faults.findScheduler
      if !doJob then pure ()
      else
        updateProcessing faults.processingTrue true
        work job faults)
    (handleError faults)

/-! ## Equations of a tick -/

def JobState.flags (s : JobState T) : Option Flags := s.session.db.flags

def JobState.setScheduler (set : Scheduler → Scheduler) (s : JobState T) : JobState T :=
  { s with session := { s.session with db := s.session.db.setScheduler set } }

theorem updateProcessing_ok {fault : Option RawError} {b : Bool} {s t : JobState T}
    (h : updateProcessing fault b s = (.ok (), t)) :
    fault = none ∧ t = s.setScheduler fun r => { r with process := b } := by
  cases fault with
  | some e => cases h
  | none => cases h; exact ⟨rfl, rfl⟩

/-- `checkState` writes nothing to the database. It answers `true` only for a row
with the flag clear and the cron string unchanged, and then it has changed
nothing at all. What it throws is never an `Exception`. -/
theorem wp_checkState {lib : CronLibrary} {fault : Option RawError} (s : JobState T) :
    Eff.wp (checkState lib fault)
      (fun b t => t.session = s.session ∧ (b = true → t = s ∧ ∃ r,
        s.session.db.scheduler = some r ∧ r.process = false ∧ lib.expression r.cron = some s.cron))
      (fun e t => t.session = s.session ∧ e.isException = false) s := by
  simp only [checkState, findScheduler, connectionRead, Eff.wp_bind, wp_onSession, Eff.wp_mayFail,
    Eff.wp_read]
  refine ⟨fun _ => ?_, fun e he => ⟨trivial, ?_⟩⟩
  · cases hr : s.session.db.scheduler with
    | none =>
      simp only [deleteScheduler, setMessage, setLoggerLevel, Eff.wp_bind, Eff.wp_read,
        Eff.wp_ite, Eff.wp_update, Eff.wp_pure, Eff.wp_throw]
      exact ⟨fun _ => ⟨trivial, by simp⟩, fun _ => ⟨trivial, rfl⟩⟩
    | some r =>
      simp only [Eff.wp_ite, Eff.wp_bind, setMessage, setLoggerLevel, Eff.wp_update, Eff.wp_pure,
        Eff.wp_read]
      refine ⟨fun _ => ⟨trivial, by simp⟩, fun hp => ⟨fun _ => ?_, fun hc => ⟨trivial, fun _ => ?_⟩⟩⟩
      · cases lib.expression r.cron <;> simp [Eff.wp_ite]
      · exact ⟨trivial, r, rfl, by simpa using hp, by simpa using Eq.symm (not_not.mp hc)⟩
  · obtain ⟨raw, _, rfl⟩ := Option.map_eq_some_iff.mp he
    rfl

theorem checkState_true {lib : CronLibrary} {fault : Option RawError} {s t : JobState T}
    (h : checkState lib fault s = (.ok true, t)) :
    t = s ∧ ∃ r, s.session.db.scheduler = some r ∧ r.process = false ∧
      lib.expression r.cron = some s.cron :=
  ((Eff.wp_iff.mp (wp_checkState s)).1 true t h).2 rfl

/-- A tick whose work throws ends as its catch block ends, on the state of the
throw. -/
theorem processWork_throws {lib : CronLibrary} {job : Job T} {faults : WorkFaults}
    {s s₁ s₂ s₃ : JobState T} {e : Thrown}
    (hcheck : checkState lib faults.findScheduler s = (.ok true, s₁))
    (hflag : updateProcessing faults.processingTrue true s₁ = (.ok (), s₂))
    (hthrow : work job faults s₂ = (.error e, s₃)) :
    processWork lib job faults s = handleError faults e s₃ := by
  apply Eff.tryCatch_of_error
  rw [Eff.bind_of_ok hcheck]
  simp only [Bool.not_true, Bool.false_eq_true, if_false]
  rw [Eff.bind_of_ok hflag, hthrow]

/-- The work of a tick leaves the registry alone, and while it has thrown, the
flags are those it started with. -/
theorem work_throws {job : Job T} {faults : WorkFaults} {s t : JobState T} {e : Thrown}
    (h : work job faults s = (.error e, t)) :
    t.registered = s.registered ∧ t.flags = s.flags := by
  have hwp : Eff.wp (work job faults) (fun _ _ => True)
      (fun _ t => t.registered = s.registered ∧ t.flags = s.flags) s := by
    simp only [work, updateProcessing, updateScheduler, connectionWrite, setMessage, Eff.wp_bind,
      wp_onSession, Eff.wp_mayFail, Eff.wp_update]
    refine Eff.wp_mono (job.keepsFlags s.session) (fun _ u hu => ?_) (fun _ u hu => ?_)
    · exact ⟨fun _ => trivial, fun _ _ => by simpa [JobState.flags] using hu⟩
    · simpa [JobState.flags] using hu
  exact (Eff.wp_iff.mp hwp).2 e t h

end BlockchainTask.SchedulerJob.Base

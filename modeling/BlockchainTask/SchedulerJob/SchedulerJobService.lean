import BlockchainTask.Library.Store
import BlockchainTask.SchedulerJob.Ticks

/-! # The scheduler process

All jobs of the code, in one process. A service puts its cron job into the registry
when it is constructed. `start` reads the schedulers that are switched on, clears
the `process` flag of every row, starts the cron jobs of those that the registry
has, and switches the others off. It does not wait for these last updates, so they
land in any order, between the awaits of the ticks that have begun meanwhile. When
the process ends, what it had in its memory is lost, and the table stays. -/
namespace BlockchainTask.SchedulerJob.SchedulerJobService
open BlockchainTask.Common.Exception BlockchainTask.Library.Store
open BlockchainTask.Library.Effect BlockchainTask.Library.Transaction
open BlockchainTask.SchedulerJob.Base BlockchainTask.SchedulerJob.Ticks

variable {T : Type}

/-! ## The scheduler table -/

structure SchedulerRow extends Scheduler where
  id : String
  deriving DecidableEq

def SchedulerRow.key (r : SchedulerRow) : Option String := some r.id

abbrev Schedulers : Type := Table SchedulerRow String SchedulerRow.key

def SchedulerRow.set (f : Scheduler → Scheduler) (r : SchedulerRow) : SchedulerRow :=
  { r with toScheduler := f r.toScheduler }

theorem SchedulerRow.key_set (f : Scheduler → Scheduler) (r : SchedulerRow) :
    (r.set f).key = r.key := rfl

/-- `updateScheduler({ id }, …)`. -/
def updateScheduler (t : Schedulers) (id : String) (f : Scheduler → Scheduler) : Schedulers :=
  t.updateWhere (fun r => r.id == id) (SchedulerRow.set f) (SchedulerRow.key_set f)

/-- `updateScheduler({}, …)`. -/
def updateSchedulers (t : Schedulers) (f : Scheduler → Scheduler) : Schedulers :=
  t.updateWhere (fun _ => true) (SchedulerRow.set f) (SchedulerRow.key_set f)

/-- `getAllSchedulers`, of which only the ids are used. -/
def getAllSchedulers (t : Schedulers) : List String :=
  (t.contents.filter fun r => r.status).map SchedulerRow.id

theorem id_of_content {t : Schedulers} {id : String} {r : SchedulerRow}
    (h : t.content id = some r) : r.id = id := by
  obtain ⟨s, hs, rfl⟩ := Option.map_eq_some_iff.mp h
  exact Option.some.inj (Table.lookup_some hs).2

@[simp] theorem content_updateScheduler_self (t : Schedulers) (id : String)
    (f : Scheduler → Scheduler) :
    (updateScheduler t id f).content id = (t.content id).map (SchedulerRow.set f) := by
  rw [updateScheduler, Table.content_updateWhere]
  refine Option.map_congr fun r hr => ?_
  rw [if_pos (beq_iff_eq.mpr (id_of_content hr))]

theorem content_updateScheduler_ne (t : Schedulers) {id other : String} (h : other ≠ id)
    (f : Scheduler → Scheduler) : (updateScheduler t id f).content other = t.content other := by
  have hkeep : ∀ r, t.content other = some r → (if r.id == id then r.set f else r) = r := by
    intro r hr
    have hne : ¬ (r.id == id) = true := by
      rw [beq_iff_eq, id_of_content hr]
      exact h
    rw [if_neg hne]
  rw [updateScheduler, Table.content_updateWhere]
  exact (Option.map_congr hkeep).trans Option.map_id'

@[simp] theorem content_updateSchedulers (t : Schedulers) (id : String)
    (f : Scheduler → Scheduler) :
    (updateSchedulers t f).content id = (t.content id).map (SchedulerRow.set f) := by
  rw [updateSchedulers, Table.content_updateWhere]
  rfl

theorem mem_getAllSchedulers {t : Schedulers} {id : String} :
    id ∈ getAllSchedulers t ↔ ∃ r, t.content id = some r ∧ r.status = true := by
  simp only [getAllSchedulers, List.mem_map, List.mem_filter, Table.contents]
  constructor
  · intro h
    obtain ⟨r, ⟨⟨s, hs, rfl⟩, hstatus⟩, rfl⟩ := h
    have hlookup : t.lookup s.row.id = some s := Table.lookup_iff.mpr ⟨hs, rfl⟩
    exact ⟨s.row, by rw [Table.content, hlookup]; rfl, hstatus⟩
  · intro h
    obtain ⟨r, hr, hstatus⟩ := h
    obtain ⟨s, hs, rfl⟩ := Option.map_eq_some_iff.mp hr
    exact ⟨s.row, ⟨⟨s, (Table.lookup_some hs).1, rfl⟩, hstatus⟩, id_of_content hr⟩

/-! ## The process -/

/-- A service of the code: whether the registry has its cron job, whether the cron
job is running, its cron string, and the ticks in the order they were started. -/
structure Service (T : Type) where
  registered : Bool
  running : Bool
  cron : String
  activations : List (Activation T)

/-- `CronExpression.EVERY_SECOND`. -/
def EVERY_SECOND : String := "* * * * * *"

/-- The constructor. -/
def Service.new : Service T := ⟨true, false, EVERY_SECOND, []⟩

/-- How far `start` has come. -/
inductive Start where
  /-- `getAllSchedulers` -/
  | finding
  /-- The update of all rows, after the schedulers that were found. -/
  | resetting (schedulers : List String)
  /-- The loop is through; these updates have not landed yet. -/
  | launched (schedulers pending : List String)
  | failed

structure System (T : Type) where
  schedulers : Schedulers
  tables : T
  start : Start
  services : String → Option (Service T)

def System.isExist (s : System T) (id : String) : Bool := (s.services id).any Service.registered

/-- The update of all rows. -/
def System.clearFlags (s : System T) : System T :=
  { s with schedulers := updateSchedulers s.schedulers fun r => { r with process := false } }

/-- The loop of `start`: what is done before the first await of each of its
functions. -/
def System.launch (s : System T) (schedulers : List String) : System T :=
  { s with
    start := .launched schedulers (schedulers.filter fun id => !s.isExist id)
    services := fun id => (s.services id).map fun service =>
      if schedulers.contains id && service.registered then { service with running := true }
      else service }

def System.db (s : System T) (id : String) : Db T :=
  ⟨(s.schedulers.content id).map SchedulerRow.toScheduler, s.tables⟩

def System.load (s : System T) (id : String) (service : Service T) (a : Activation T) :
    JobState T :=
  ⟨{ a.session with db := s.db id }, service.registered, service.cron, a.logger⟩

/-- The cron job after a part of a tick: a new time starts it, and the registry stops
what it deletes. -/
def isRunning (before after : JobState T) (running : Bool) : Bool :=
  if after.cron ≠ before.cron then true
  else if before.registered && !after.registered then false
  else running

def Service.saved (service : Service T) (i : Nat) (a : Activation T) (before after : JobState T) :
    Service T :=
  ⟨after.registered, isRunning before after service.running, after.cron,
    service.activations.set i a⟩

/-- A service in place of the one with this id. -/
def System.setService (s : System T) (id : String) (service : Service T) : System T :=
  { s with services := fun other => if other = id then some service else s.services other }

def Schedulers.write (t : Schedulers) (id : String) (scheduler : Option Scheduler) : Schedulers :=
  match scheduler with
  | some row => updateScheduler t id fun _ => row
  | none => t

def System.saved (s : System T) (id : String) (service : Service T) (db : Db T) : System T :=
  { s.setService id service with
    schedulers := Schedulers.write s.schedulers id db.scheduler
    tables := db.tables }

inductive Action (T : Type) where
  /-- The process is started, with a service for each of these ids. Whatever ran
  before is gone. -/
  | boot (code : List String)
  /-- The awaits of `start`. -/
  | find (fault : Option RawError)
  | reset (fault : Option RawError)
  | switchOff (id : String) (fault : Option RawError)
  /-- The cron package starts a tick of a cron job that is running. -/
  | fire (id : String) (job : Job T) (faults : WorkFaults)
  /-- A tick goes on to the end of its next await. -/
  | advance (id : String) (i : Nat)
  /-- Somebody else writes to the scheduler table. -/
  | edit (schedulers : Schedulers)

def System.boot (s : System T) (code : List String) : System T :=
  { s with start := .finding, services := fun id => if id ∈ code then some .new else none }

def findStep (s : System T) (fault : Option RawError) : Option (System T) :=
  match s.start with
  | .finding =>
    some { s with
      start := if fault.isSome then .failed else .resetting (getAllSchedulers s.schedulers) }
  | _ => none

def resetStep (s : System T) (fault : Option RawError) : Option (System T) :=
  match s.start with
  | .resetting found =>
    if fault.isSome then some { s with start := .failed }
    else some (s.clearFlags.launch found)
  | _ => none

def switchOffStep (s : System T) (id : String) (fault : Option RawError) : Option (System T) :=
  match s.start with
  | .launched found pending =>
    if id ∈ pending then
      some { s with
        start := .launched found (pending.erase id)
        schedulers := if fault.isSome then s.schedulers
          else updateScheduler s.schedulers id fun r => { r with status := false } }
    else none
  | _ => none

def fireStep (s : System T) (id : String) (job : Job T) (faults : WorkFaults) :
    Option (System T) :=
  match s.services id with
  | some service =>
    if service.running then
      some (s.setService id { service with activations := service.activations ++
        [⟨job, faults, .checking, startSession (s.db id), .new⟩] })
    else none
  | none => none

def advanceStep (lib : CronLibrary) (s : System T) (id : String) (i : Nat) : Option (System T) :=
  match s.services id with
  | some service =>
    match service.activations[i]? with
    | some a =>
      if a.phase = .done then none
      else
        let before := s.load id service a
        let p := segment lib a.job a.faults a.phase before
        some (s.saved id (service.saved i (a.saved (landing p.1) p.2) before p.2)
          p.2.session.db)
    | none => none
  | none => none

def step (lib : CronLibrary) (s : System T) : Action T → Option (System T)
  | .boot code => some (s.boot code)
  | .find fault => findStep s fault
  | .reset fault => resetStep s fault
  | .switchOff id fault => switchOffStep s id fault
  | .fire id job faults => fireStep s id job faults
  | .advance id i => advanceStep lib s id i
  | .edit schedulers => some { s with schedulers }

/-! ## What a step does -/

variable {lib : CronLibrary} {s u : System T}

theorem find_cases {fault : Option RawError} (h : findStep s fault = some u) :
    s.start = .finding ∧ (u = { s with start := .failed } ∨
      u = { s with start := .resetting (getAllSchedulers s.schedulers) }) := by
  unfold findStep at h
  split at h
  · rename_i hstart
    refine ⟨hstart, ?_⟩
    cases fault with
    | none => exact Or.inr (Option.some.inj h).symm
    | some e => exact Or.inl (Option.some.inj h).symm
  · cases h

theorem reset_cases {fault : Option RawError} (h : resetStep s fault = some u) :
    ∃ found, s.start = .resetting found ∧
      (u = { s with start := .failed } ∨ u = s.clearFlags.launch found) := by
  unfold resetStep at h
  split at h
  · rename_i found hstart
    refine ⟨found, hstart, ?_⟩
    cases fault with
    | none => exact Or.inr (Option.some.inj h).symm
    | some e => exact Or.inl (Option.some.inj h).symm
  · cases h

theorem switchOff_cases {id : String} {fault : Option RawError}
    (h : switchOffStep s id fault = some u) :
    ∃ found pending, s.start = .launched found pending ∧ id ∈ pending ∧
      u = { s with
        start := .launched found (pending.erase id)
        schedulers := if fault.isSome then s.schedulers
          else updateScheduler s.schedulers id fun r => { r with status := false } } := by
  unfold switchOffStep at h
  split at h
  · rename_i found pending hstart
    split at h
    · exact ⟨found, pending, hstart, ‹_›, (Option.some.inj h).symm⟩
    · cases h
  · cases h

theorem fire_cases {id : String} {job : Job T} {faults : WorkFaults}
    (h : fireStep s id job faults = some u) :
    ∃ service, s.services id = some service ∧ service.running = true ∧
      u = s.setService id { service with activations := service.activations ++
        [⟨job, faults, .checking, startSession (s.db id), .new⟩] } := by
  unfold fireStep at h
  split at h
  · rename_i service hservice
    split at h
    · exact ⟨service, hservice, ‹_›, (Option.some.inj h).symm⟩
    · cases h
  · cases h

theorem advance_cases {id : String} {i : Nat} (h : advanceStep lib s id i = some u) :
    ∃ service a r t, s.services id = some service ∧ service.activations[i]? = some a ∧
      a.phase ≠ .done ∧ segment lib a.job a.faults a.phase (s.load id service a) = (r, t) ∧
      u = s.saved id (service.saved i (a.saved (landing r) t) (s.load id service a) t)
        t.session.db := by
  unfold advanceStep at h
  split at h
  · rename_i service hservice
    split at h
    · rename_i a ha
      split at h
      · cases h
      · exact ⟨service, a, _, _, hservice, ha, ‹_›, rfl, (Option.some.inj h).symm⟩
    · cases h
  · cases h

end BlockchainTask.SchedulerJob.SchedulerJobService

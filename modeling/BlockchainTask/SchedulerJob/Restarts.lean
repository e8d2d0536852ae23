import BlockchainTask.Library.Frame
import BlockchainTask.SchedulerJob.SchedulerJobService
import BlockchainTask.SchedulerJob.TickExclusion

/-! # What a start of the process decides

Which jobs tick is settled when `start` reads the table, until the process is
started again. A job that is switched off then stays off whatever the others do. A
`process` flag that was left set keeps its job from running until a start clears
it, and a start does. -/
namespace BlockchainTask.SchedulerJob.Restarts
open BlockchainTask.Common.Exception BlockchainTask.Library.Store
open BlockchainTask.Library.Effect BlockchainTask.Library.Transaction
open BlockchainTask.Library.Frame BlockchainTask.Library.Runs
open BlockchainTask.SchedulerJob.Base
open BlockchainTask.SchedulerJob.Ticks (Phase Activation caught landing)
open BlockchainTask.SchedulerJob.SchedulerJobService
open BlockchainTask.SchedulerJob.TickExclusion (idleJob)

variable {T : Type} {lib : CronLibrary} {job : Job T} {faults : WorkFaults}

/-! ## What a part of a tick does to the registry -/

/-- The registry may lose the cron job, and does not get it back. -/
def Unregisters (s t : JobState T) : Prop := t.registered = true → s.registered = true

instance : Std.Refl (Unregisters (T := T)) := ⟨fun _ h => h⟩

instance : IsTrans (JobState T) Unregisters := ⟨fun _ _ _ h h' h'' => h (h' h'')⟩

theorem within_onSession {α : Type} (m : JobEff T α) : Within Unregisters (onSession m) :=
  fun _ h => h

theorem within_deleteScheduler : Within Unregisters (deleteScheduler : WorkEff T Unit) := by
  refine Within.bind (Within.read _) fun registered => ?_
  refine Within.ite (Within.update fun _ h => ?_) (Within.throw _)
  cases h

theorem within_setMessage (m : String) : Within Unregisters (setMessage m : WorkEff T Unit) :=
  Within.update fun _ h => h

theorem within_setLoggerLevel (l : SchedulerLoggerLevel) :
    Within Unregisters (setLoggerLevel l : WorkEff T Unit) := Within.update fun _ h => h

theorem within_checkState (fault : Option RawError) :
    Within Unregisters (checkState lib fault : WorkEff T Bool) := by
  refine Within.bind (within_onSession _) fun scheduler => ?_
  cases scheduler with
  | none =>
    exact Within.bind within_deleteScheduler fun _ => Within.bind (within_setMessage _) fun _ =>
      Within.bind (within_setLoggerLevel _) fun _ => Within.pure false
  | some row =>
    refine Within.ite ?_ (Within.bind (Within.read _) fun cron => Within.ite ?_ (Within.pure true))
    · exact Within.bind (within_setMessage _) fun _ =>
        Within.bind (within_setLoggerLevel _) fun _ => Within.pure false
    · cases lib.expression row.cron with
      | none => exact Within.bind (within_setMessage _) fun _ => Within.pure false
      | some new =>
        refine Within.ite ?_ (Within.bind (within_setMessage _) fun _ => Within.pure false)
        exact Within.bind (Within.read _) fun _ => Within.bind (within_setMessage _) fun _ =>
          Within.bind (Within.update fun _ h => h) fun _ => Within.pure false

theorem within_caught (e : Thrown) : Within Unregisters (caught e : WorkEff T Phase) := by
  cases e with
  | error m => exact Within.throw _
  | exception m level d =>
    refine Within.bind (Within.update fun _ h => h) fun _ => ?_
    cases level with
    | Normal => exact Within.bind (within_setLoggerLevel _) fun _ => Within.pure _
    | Fatal =>
      exact Within.bind (within_setLoggerLevel _) fun _ =>
        Within.bind within_deleteScheduler fun _ => Within.pure _

theorem within_segment (p : Phase) : Within Unregisters (Ticks.segment lib job faults p) := by
  cases p with
  | checking =>
    exact Within.tryCatch (Within.bind (within_checkState _) fun _ => Within.pure _) within_caught
  | starting =>
    exact Within.tryCatch (Within.bind (within_onSession _) fun _ => Within.pure _) within_caught
  | running =>
    exact Within.tryCatch (Within.bind (within_onSession _) fun _ => Within.pure _) within_caught
  | clearing =>
    exact Within.tryCatch (Within.bind (within_onSession _) fun _ =>
      Within.bind (within_setMessage _) fun _ => Within.pure _) within_caught
  | fatalStatus => exact Within.bind (within_onSession _) fun _ => Within.pure _
  | fatalError => exact Within.bind (within_onSession _) fun _ => Within.pure _
  | normalStatus => exact Within.bind (within_onSession _) fun _ => Within.pure _
  | normalProcessing => exact Within.bind (within_onSession _) fun _ => Within.pure _
  | done => exact Within.pure _

theorem segment_unregisters {p : Phase} {s t : JobState T} {r : Except Thrown Phase}
    (h : Ticks.segment lib job faults p s = (r, t)) : Unregisters s t := by
  have hwithin : Within Unregisters (Ticks.segment lib job faults p) := within_segment p
  have hs := hwithin s
  rw [h] at hs
  exact hs

/-! ## Looking into the system -/

theorem services_setService (s : System T) (id other : String) (service : Service T) :
    (s.setService id service).services other =
      if other = id then some service else s.services other := rfl

theorem content_write_ne (t : Schedulers) {id other : String} (h : other ≠ id)
    (row : Option Scheduler) : (Schedulers.write t id row).content other = t.content other := by
  cases row with
  | none => rfl
  | some r => exact content_updateScheduler_ne t h _

/-- Another service than the one whose tick went on is as it was. -/
theorem services_saved_ne (s : System T) {id other : String} (h : other ≠ id)
    (service : Service T) (db : Db T) : (s.saved id service db).services other = s.services other :=
  if_neg h

/-! ## Which jobs run -/

/-- The schedulers whose cron jobs the loop of `start` went through. -/
def launchedIds : Start → List String
  | .launched found _ => found
  | _ => []

/-- What runs or has a tick under way was switched on when `start` read the table,
and of what was switched on the registry has no cron job that does not run. -/
structure RunsLaunched (s : System T) : Prop where
  only : ∀ id service, s.services id = some service →
    service.running = true ∨ service.activations ≠ [] → id ∈ launchedIds s.start
  all : ∀ id service, s.services id = some service → id ∈ launchedIds s.start →
    service.registered = true → service.running = true

/-- Between the boot and the loop of `start` nothing runs. -/
theorem RunsLaunched.of_unlaunched {s u : System T} (h : RunsLaunched s)
    (hbefore : launchedIds s.start = []) (hafter : launchedIds u.start = [])
    (hservices : u.services = s.services) : RunsLaunched u := by
  refine ⟨fun id service hservice hruns => ?_, fun id service _ hid => ?_⟩
  · have hid := h.only id service (hservices ▸ hservice) hruns
    rw [hbefore] at hid
    cases hid
  · rw [hafter] at hid
    cases hid

theorem runsLaunched_boot (s : System T) (code : List String) : RunsLaunched (s.boot code) := by
  refine ⟨fun id service hservice hruns => ?_, fun id service _ hid => nomatch hid⟩
  have hnew : (if id ∈ code then some Service.new else none) = some service := hservice
  split at hnew
  · cases hnew
    rcases hruns with hruns | hruns
    · cases hruns
    · exact absurd rfl hruns
  · cases hnew

theorem runsLaunched_launch {s : System T} (h : RunsLaunched s)
    (hbefore : launchedIds s.start = []) (found : List String) :
    RunsLaunched (s.launch found) := by
  have hidle : ∀ id service, s.services id = some service →
      service.running = false ∧ service.activations = [] := by
    intro id service hservice
    by_contra hne
    have hruns : service.running = true ∨ service.activations ≠ [] := by
      by_cases hrunning : service.running = true
      · exact Or.inl hrunning
      · exact Or.inr fun hempty => hne ⟨by simpa using hrunning, hempty⟩
    have hid := h.only id service hservice hruns
    rw [hbefore] at hid
    cases hid
  refine ⟨fun id service hservice hruns => ?_, fun id service hservice hid hregistered => ?_⟩
  · obtain ⟨old, hold, rfl⟩ := Option.map_eq_some_iff.mp hservice
    obtain ⟨hrunning, hempty⟩ := hidle id old hold
    split at hruns
    · rename_i hfound
      exact List.contains_iff_mem.mp (Bool.and_eq_true_iff.mp hfound).1
    · rw [hrunning, hempty] at hruns
      simp at hruns
  · obtain ⟨old, hold, rfl⟩ := Option.map_eq_some_iff.mp hservice
    split at hregistered
    · rename_i hfound
      rw [if_pos hfound]
    · rename_i hfound
      have hmem : found.contains id = true := List.contains_iff_mem.mpr hid
      rw [hmem, hregistered] at hfound
      exact absurd rfl hfound

/-- Where `start` stands where it stood, and only one service has changed. -/
theorem RunsLaunched.of_service {s u : System T} (h : RunsLaunched s) (id : String)
    {service : Service T} (hstart : u.start = s.start)
    (hservices : ∀ other, u.services other = if other = id then some service else s.services other)
    (honly : service.running = true ∨ service.activations ≠ [] → id ∈ launchedIds s.start)
    (hall : id ∈ launchedIds s.start → service.registered = true → service.running = true) :
    RunsLaunched u := by
  refine ⟨fun other found hother hruns => ?_, fun other found hother hid hregistered => ?_⟩
  · rw [hstart]
    rw [hservices] at hother
    split at hother
    · rename_i hsame
      cases hother
      exact hsame ▸ honly hruns
    · exact h.only other found hother hruns
  · rw [hstart] at hid
    rw [hservices] at hother
    split at hother
    · rename_i hsame
      cases hother
      exact hall (hsame ▸ hid) hregistered
    · exact h.all other found hother hid hregistered

theorem RunsLaunched.step {s u : System T} {act : Action T} (hstep : step lib s act = some u)
    (h : RunsLaunched s) : RunsLaunched u := by
  cases act with
  | boot code =>
    cases hstep
    exact runsLaunched_boot s code
  | find fault =>
    obtain ⟨hstart, rfl | rfl⟩ := find_cases hstep
    · exact h.of_unlaunched (by rw [hstart]; rfl) rfl rfl
    · exact h.of_unlaunched (by rw [hstart]; rfl) rfl rfl
  | reset fault =>
    obtain ⟨found, hstart, rfl | rfl⟩ := reset_cases hstep
    · exact h.of_unlaunched (by rw [hstart]; rfl) rfl rfl
    · have hids : launchedIds s.start = [] := by rw [hstart]; rfl
      exact runsLaunched_launch (s := s.clearFlags) (h.of_unlaunched hids hids rfl) hids found
  | switchOff id fault =>
    obtain ⟨found, pending, hstart, _, rfl⟩ := switchOff_cases hstep
    have hids : launchedIds s.start = found := by rw [hstart]; rfl
    exact ⟨fun other service hother hruns => hids ▸ h.only other service hother hruns,
      fun other service hother hid => h.all other service hother (hids.symm ▸ hid)⟩
  | fire id job faults =>
    obtain ⟨service, hservice, hrunning, rfl⟩ := fire_cases hstep
    refine h.of_service id rfl (services_setService s id · _) (fun _ => ?_) fun _ _ => hrunning
    exact h.only id service hservice (Or.inl hrunning)
  | advance id i =>
    obtain ⟨service, a, r, t, hservice, ha, _, hseg, rfl⟩ := advance_cases hstep
    have hticks : service.activations ≠ [] := by
      intro hempty
      rw [hempty] at ha
      cases ha
    refine h.of_service id rfl (fun _ => rfl)
      (fun _ => h.only id service hservice (Or.inr hticks)) fun hid hregistered => ?_
    -- a cron job that is still registered was not stopped
    have hbefore : service.registered = true := segment_unregisters hseg hregistered
    have hrunning := h.all id service hservice hid hbefore
    have hkept : t.registered = true := hregistered
    show isRunning _ t service.running = true
    rw [isRunning, hkept, hrunning]
    simp
  | edit schedulers =>
    cases hstep
    exact ⟨h.only, h.all⟩

/-! ## Rows without a service -/

/-- The updates of `start` that may still come to this row. -/
def Start.Awaits (id : String) : Start → Prop
  | .finding => True
  | .resetting found => id ∈ found
  | .launched _ pending => id ∈ pending
  | .failed => True

/-- Nobody but the process writes to the table, and no update of its start fails. -/
def Undisturbed (_ : System T) : Action T → Prop
  | .switchOff _ fault => fault = none
  | .edit _ => False
  | _ => True

/-- A row that is on and has no service is one that `start` has yet to switch off. -/
def Orphans (s : System T) : Prop :=
  ∀ id r, s.schedulers.content id = some r → r.status = true → s.services id = none →
    Start.Awaits id s.start

theorem isExist_eq_false_of_none {s : System T} {id : String} (h : s.services id = none) :
    s.isExist id = false := by
  rw [System.isExist, h]
  rfl

theorem Orphans.step {s u : System T} {act : Action T} (hok : Undisturbed s act)
    (hstep : step lib s act = some u) (h : Orphans s) : Orphans u := by
  cases act with
  | boot code =>
    cases hstep
    exact fun _ _ _ _ _ => trivial
  | find fault =>
    obtain ⟨_, rfl | rfl⟩ := find_cases hstep
    · exact fun _ _ _ _ _ => trivial
    · exact fun id r hr hstatus _ => mem_getAllSchedulers.mpr ⟨r, hr, hstatus⟩
  | reset fault =>
    obtain ⟨found, hstart, rfl | rfl⟩ := reset_cases hstep
    · exact fun _ _ _ _ _ => trivial
    · intro id r hr hstatus hnone
      have hrow : (updateSchedulers s.schedulers fun r => { r with process := false }).content id =
          some r := hr
      rw [content_updateSchedulers] at hrow
      obtain ⟨old, hold, rfl⟩ := Option.map_eq_some_iff.mp hrow
      have hgone : s.services id = none := Option.map_eq_none_iff.mp hnone
      have hfound : id ∈ found := by
        have hawaits := h id old hold hstatus hgone
        rw [hstart] at hawaits
        exact hawaits
      refine List.mem_filter.mpr ⟨hfound, ?_⟩
      show (!s.isExist id) = true
      rw [isExist_eq_false_of_none hgone]
      rfl
  | switchOff off fault =>
    obtain ⟨found, pending, hstart, _, rfl⟩ := switchOff_cases hstep
    cases (show fault = none from hok)
    intro id r hr hstatus hnone
    have hrow : (updateScheduler s.schedulers off fun r => { r with status := false }).content id =
        some r := hr
    by_cases hid : id = off
    · subst hid
      rw [content_updateScheduler_self] at hrow
      obtain ⟨old, _, rfl⟩ := Option.map_eq_some_iff.mp hrow
      cases hstatus
    · rw [content_updateScheduler_ne _ hid] at hrow
      have hawaits := h id r hrow hstatus hnone
      rw [hstart] at hawaits
      exact (List.mem_erase_of_ne hid).mpr hawaits
  | fire id job faults =>
    obtain ⟨service, _, _, rfl⟩ := fire_cases hstep
    intro other r hr hstatus hnone
    rw [services_setService] at hnone
    split at hnone
    · cases hnone
    · exact h other r hr hstatus hnone
  | advance id i =>
    obtain ⟨service, a, r, t, _, _, _, _, rfl⟩ := advance_cases hstep
    intro other row hrow hstatus hnone
    by_cases hid : other = id
    · subst hid
      have hsome :=
        (if_pos rfl : (s.saved other _ t.session.db).services other = _).symm.trans hnone
      cases hsome
    · rw [services_saved_ne s hid] at hnone
      refine h other row ?_ hstatus hnone
      exact (content_write_ne s.schedulers hid t.session.db.scheduler).symm.trans hrow
  | edit schedulers => exact hok.elim

/-! ## What `start` found -/

def NoBoot (_ : System T) : Action T → Prop
  | .boot _ => False
  | _ => True

/-- The schedulers that `getAllSchedulers` returned. -/
def foundIds : Start → List String
  | .resetting found => found
  | .launched found _ => found
  | _ => []

theorem mem_foundIds {start : Start} {id : String} (h : id ∈ launchedIds start) :
    id ∈ foundIds start := by
  cases start with
  | finding => cases h
  | resetting found => cases h
  | launched found pending => exact h
  | failed => cases h

/-- `start` read the table in this state, with the row switched on, and the process has
not been started again since. -/
def ReadOn (lib : CronLibrary) (id : String) (u t : System T) : Prop :=
  u.start = .finding ∧ (∃ r, u.schedulers.content id = some r ∧ r.status = true) ∧
    Reaches (step lib) NoBoot u t

theorem ReadOn.step {u t v : System T} {act : Action T} {id : String} (hact : NoBoot t act)
    (hstep : step lib t act = some v) (h : ReadOn lib id u t) : ReadOn lib id u v :=
  ⟨h.1, h.2.1, .next h.2.2 hact hstep⟩

/-- No step but the one that reads the table adds a scheduler. -/
theorem foundIds_step {s u : System T} {act : Action T} (hact : NoBoot s act)
    (hfind : s.start ≠ .finding) (hstep : step lib s act = some u) :
    ∀ id ∈ foundIds u.start, id ∈ foundIds s.start := by
  cases act with
  | boot code => exact hact.elim
  | find fault => exact absurd (find_cases hstep).1 hfind
  | reset fault =>
    obtain ⟨found, hstart, rfl | rfl⟩ := reset_cases hstep
    · exact fun id hid => nomatch hid
    · rw [hstart]
      exact fun _ hid => hid
  | switchOff off fault =>
    obtain ⟨found, pending, hstart, _, rfl⟩ := switchOff_cases hstep
    rw [hstart]
    exact fun _ hid => hid
  | fire other job faults =>
    obtain ⟨service, _, _, rfl⟩ := fire_cases hstep
    exact fun _ hid => hid
  | advance other i =>
    obtain ⟨_, _, _, _, _, _, _, _, rfl⟩ := advance_cases hstep
    exact fun _ hid => hid
  | edit schedulers =>
    cases hstep
    exact fun _ hid => hid

theorem foundIds_finding {s u : System T} {act : Action T} (hfind : s.start = .finding)
    (hstep : step lib s act = some u) :
    ∀ id ∈ foundIds u.start, NoBoot s act ∧ id ∈ getAllSchedulers s.schedulers := by
  have hnone : foundIds s.start = [] := by rw [hfind]; rfl
  cases act with
  | boot code =>
    cases hstep
    exact fun id hid => nomatch hid
  | find fault =>
    obtain ⟨_, rfl | rfl⟩ := find_cases hstep
    · exact fun id hid => nomatch hid
    · exact fun id hid => ⟨trivial, hid⟩
  | reset fault =>
    obtain ⟨found, hstart, _⟩ := reset_cases hstep
    cases hfind.symm.trans hstart
  | switchOff off fault =>
    obtain ⟨found, pending, hstart, _⟩ := switchOff_cases hstep
    cases hfind.symm.trans hstart
  | fire other job faults =>
    obtain ⟨service, _, _, rfl⟩ := fire_cases hstep
    exact fun id hid => nomatch (show id ∈ [] from hnone ▸ hid)
  | advance other i =>
    obtain ⟨_, _, _, _, _, _, _, _, rfl⟩ := advance_cases hstep
    exact fun id hid => nomatch (show id ∈ [] from hnone ▸ hid)
  | edit schedulers =>
    cases hstep
    exact fun id hid => nomatch (show id ∈ [] from hnone ▸ hid)

theorem found_on {s t : System T} {ok : System T → Action T → Prop}
    (hstart : foundIds s.start = []) (h : Reaches (step lib) ok s t) :
    ∀ id ∈ foundIds t.start, ∃ u, Reaches (step lib) ok s u ∧ ReadOn lib id u t := by
  induction h with
  | start =>
    rw [hstart]
    exact fun id hid => nomatch hid
  | next before meets taken ih =>
    rename_i v w act
    intro id hid
    by_cases hfind : v.start = .finding
    · obtain ⟨hact, hon⟩ := foundIds_finding hfind taken id hid
      exact ⟨v, before, hfind, mem_getAllSchedulers.mp hon, .next .start hact taken⟩
    · by_cases hact : NoBoot v act
      · obtain ⟨u, hu, hread⟩ := ih id (foundIds_step hact hfind taken id hid)
        exact ⟨u, hu, hread.step hact taken⟩
      · -- a boot has found nothing yet
        cases act with
        | boot code =>
          cases taken
          cases hid
        | find | reset | switchOff | fire | advance | edit => exact absurd trivial hact

/-- **What a start decides.** However the awaits of `start` and of the ticks of all
jobs interleave, through any further starts, and whatever fails: a job runs or ticks
only if its row was switched on when the last `start` read the table. A job that
`start` went through runs as long as the registry has it. While nobody else writes
and no update of `start` fails, once the updates of `start` have landed each row that
is on belongs to a service of the code. -/
theorem start_decides (s : System T) (code : List String) :
    (∀ t, Reaches (step lib) (fun _ _ => True) (s.boot code) t → ∀ id service,
      t.services id = some service →
        (service.running = true ∨ service.activations ≠ [] →
          id ∈ launchedIds t.start ∧
            ∃ u, Reaches (step lib) (fun _ _ => True) (s.boot code) u ∧ ReadOn lib id u t) ∧
        (id ∈ launchedIds t.start → service.registered = true → service.running = true)) ∧
    ∀ t found, Reaches (step lib) Undisturbed (s.boot code) t → t.start = .launched found [] →
      ∀ id r, t.schedulers.content id = some r → r.status = true →
        (t.services id).isSome = true := by
  refine ⟨fun t ht id service hservice => ?_, fun t found ht hstart id r hr hstatus => ?_⟩
  · have hruns : RunsLaunched t :=
      ht.invariant RunsLaunched (fun _ _ _ _ hstep hI => hI.step hstep) (runsLaunched_boot s code)
    refine ⟨fun hbusy => ?_, hruns.all id service hservice⟩
    have hlaunched := hruns.only id service hservice hbusy
    exact ⟨hlaunched, found_on rfl ht id (mem_foundIds hlaunched)⟩
  · have hfirst : Orphans (s.boot code) := fun _ _ _ _ _ => trivial
    have horphans : Orphans t :=
      ht.invariant Orphans (fun _ _ _ hok hstep hI => hI.step hok hstep) hfirst
    by_contra hnone
    have hawaits := horphans id r hr hstatus (Option.not_isSome_iff_eq_none.mp hnone)
    rw [hstart] at hawaits
    cases hawaits

/-- One job with its flag left set, one that the code does not have, and one that is
off. -/
def exampleRow : SchedulerRow := ⟨⟨"EVERY_SECOND", none, some 0, false, true, true⟩, "token"⟩

def exampleOff : SchedulerRow := ⟨⟨"EVERY_SECOND", none, some 7, false, false, false⟩, "pair"⟩

def exampleSystem : System Unit where
  schedulers := Table.empty.insertAll
    [exampleRow, ⟨⟨"EVERY_SECOND", none, none, false, false, true⟩, "gone"⟩, exampleOff]
  tables := ()
  start := .failed
  services := fun _ => none
theorem orphan_switched_off :
    ∃ t, Reaches (step .everySecond) Undisturbed (exampleSystem.boot ["token", "pair"]) t ∧
      t.start = .launched ["token", "gone"] [] ∧
      ∀ id r, t.schedulers.content id = some r → r.status = true →
        (t.services id).isSome = true := by
  have hrun : Reaches (step .everySecond) Undisturbed (exampleSystem.boot ["token", "pair"]) _ :=
    .next (.next (.next .start (a := .find none) trivial rfl) (a := .reset none) trivial rfl)
      (a := .switchOff "gone" none) rfl rfl
  exact ⟨_, hrun, rfl, (start_decides exampleSystem ["token", "pair"]).2 _ _ hrun rfl⟩

/-! ## A job that is switched off -/

/-- A row without its `process` flag. -/
def cleared (r : SchedulerRow) : SchedulerRow := r.set fun row => { row with process := false }

/-- The schedulers that `start` still has to do with. -/
def Start.schedulers : Start → List String
  | .resetting found => found
  | .launched found pending => found ++ pending
  | _ => []

/-- Writes of others leave this row alone. -/
def LeavesAlone (id : String) (s : System T) : Action T → Prop
  | .edit schedulers => schedulers.content id = s.schedulers.content id
  | _ => True

/-- The job is off: nothing of it runs or is about to, and its row is as it was but
for its flag. -/
structure Off (id : String) (row : SchedulerRow) (s : System T) : Prop where
  kept : ∃ r, s.schedulers.content id = some r ∧ cleared r = cleared row
  idle : ∀ service, s.services id = some service →
    service.running = false ∧ service.activations = []
  passed : id ∉ Start.schedulers s.start

theorem status_of_cleared {r row : SchedulerRow} (h : cleared r = cleared row) :
    r.status = row.status :=
  (congrArg (fun r : SchedulerRow => r.status) h : (cleared r).status = (cleared row).status)

theorem off_boot {s : System T} {id : String} {row : SchedulerRow}
    (hrow : s.schedulers.content id = some row) (code : List String) :
    Off id row (s.boot code) := by
  refine ⟨⟨row, hrow, rfl⟩, fun service hservice => ?_, fun h => nomatch h⟩
  have hnew : (if id ∈ code then some Service.new else none) = some service := hservice
  split at hnew
  · cases hnew
    exact ⟨rfl, rfl⟩
  · cases hnew

theorem off_find {s : System T} {id : String} {row : SchedulerRow} (hoff : row.status = false)
    (h : Off id row s) :
    Off id row { s with start := .resetting (getAllSchedulers s.schedulers) } := by
  refine ⟨h.kept, h.idle, fun hmem => ?_⟩
  obtain ⟨r, hr, hstatus⟩ := mem_getAllSchedulers.mp hmem
  obtain ⟨r', hr', hsame⟩ := h.kept
  cases hr.symm.trans hr'
  rw [status_of_cleared hsame, hoff] at hstatus
  cases hstatus

theorem off_launch {s : System T} {id : String} {row : SchedulerRow} {found : List String}
    (hstart : s.start = .resetting found) (h : Off id row s) :
    Off id row (s.clearFlags.launch found) := by
  have hid : id ∉ found := by
    have hpassed := h.passed
    rw [hstart] at hpassed
    exact hpassed
  refine ⟨?_, fun service hservice => ?_, fun hmem => ?_⟩
  · obtain ⟨r, hr, hsame⟩ := h.kept
    refine ⟨cleared r, ?_, hsame⟩
    refine (content_updateSchedulers s.schedulers id _).trans ?_
    rw [hr]
    rfl
  · obtain ⟨old, hold, rfl⟩ := Option.map_eq_some_iff.mp hservice
    have hcontains : found.contains id = false := by simpa using hid
    rw [hcontains]
    exact h.idle old hold
  · rcases List.mem_append.mp hmem with hmem | hmem
    · exact hid hmem
    · exact hid (List.mem_filter.mp hmem).1

theorem Off.step {s u : System T} {act : Action T} {id : String} {row : SchedulerRow}
    (hoff : row.status = false) (hok : LeavesAlone id s act) (hstep : step lib s act = some u)
    (h : Off id row s) : Off id row u := by
  cases act with
  | boot code =>
    cases hstep
    obtain ⟨r, hr, hsame⟩ := h.kept
    have hboot := off_boot hr code
    exact ⟨⟨r, hr, hsame⟩, hboot.idle, hboot.passed⟩
  | find fault =>
    obtain ⟨_, rfl | rfl⟩ := find_cases hstep
    · exact ⟨h.kept, h.idle, fun hmem => nomatch hmem⟩
    · exact off_find hoff h
  | reset fault =>
    obtain ⟨found, hstart, rfl | rfl⟩ := reset_cases hstep
    · exact ⟨h.kept, h.idle, fun hmem => nomatch hmem⟩
    · exact off_launch hstart h
  | switchOff other fault =>
    obtain ⟨found, pending, hstart, hpending, rfl⟩ := switchOff_cases hstep
    have hpassed : id ∉ found ++ pending := by
      have hbefore := h.passed
      rw [hstart] at hbefore
      exact hbefore
    have hne : id ≠ other := fun he => hpassed (List.mem_append_right _ (he ▸ hpending))
    refine ⟨?_, h.idle, fun hmem => hpassed ?_⟩
    · obtain ⟨r, hr, hsame⟩ := h.kept
      refine ⟨r, ?_, hsame⟩
      cases fault with
      | none => exact (content_updateScheduler_ne _ hne _).trans hr
      | some e => exact hr
    · rcases List.mem_append.mp hmem with hmem | hmem
      · exact List.mem_append_left _ hmem
      · exact List.mem_append_right _ (List.mem_of_mem_erase hmem)
  | fire other job faults =>
    obtain ⟨service, hservice, hrunning, rfl⟩ := fire_cases hstep
    have hne : id ≠ other := by
      rintro rfl
      rw [(h.idle service hservice).1] at hrunning
      cases hrunning
    refine ⟨h.kept, fun service' hservice' => h.idle service' ?_, h.passed⟩
    rw [← hservice', services_setService, if_neg hne]
  | advance other i =>
    obtain ⟨service, a, r, t, hservice, ha, _, _, rfl⟩ := advance_cases hstep
    have hne : id ≠ other := by
      rintro rfl
      rw [(h.idle service hservice).2] at ha
      cases ha
    refine ⟨?_, fun service' hservice' => h.idle service' ?_, h.passed⟩
    · obtain ⟨r', hr', hsame⟩ := h.kept
      exact ⟨r', (content_write_ne s.schedulers hne _).trans hr', hsame⟩
    · rw [← hservice', services_saved_ne s hne]
  | edit schedulers =>
    cases hstep
    obtain ⟨r, hr, hsame⟩ := h.kept
    exact ⟨⟨r, (show schedulers.content id = _ from hok).trans hr, hsame⟩, h.idle, h.passed⟩

/-- **A job that is switched off stays off.** From a start on, however the awaits of
`start`, of any further starts and of the ticks of all other jobs interleave, and
whatever fails: a job whose row is off never runs or ticks, and its row stays off and
keeps its cursors, its cron string and its error, until somebody else writes to it. -/
theorem off_stays (s : System T) (code : List String) (id : String) (row : SchedulerRow)
    (hrow : s.schedulers.content id = some row) (hoff : row.status = false) (t : System T)
    (h : Reaches (step lib) (LeavesAlone id) (s.boot code) t) : Off id row t :=
  h.invariant (Off id row) (fun _ _ _ hok hstep hI => hI.step hoff hok hstep) (off_boot hrow code)

theorem pair_stays_off :
    ∃ t, Reaches (step .everySecond) (LeavesAlone "pair") (exampleSystem.boot ["token", "pair"]) t ∧
      (t.services "token").map Service.running = some true ∧ Off "pair" exampleOff t := by
  have hrun : Reaches (step .everySecond) (LeavesAlone "pair")
      (exampleSystem.boot ["token", "pair"]) _ :=
    .next (.next (.next .start (a := .find none) trivial rfl) (a := .reset none) trivial rfl)
      (a := .fire "token" idleJob .none) trivial rfl
  exact ⟨_, hrun, rfl, off_stays exampleSystem ["token", "pair"] "pair" exampleOff rfl rfl _ hrun⟩

/-! ## A flag that was left set -/

/-- Neither the process is started again nor its start clears the flags, and others
leave this row alone. -/
def NoStart (id : String) (s : System T) : Action T → Prop
  | .boot _ => False
  | .reset _ => False
  | .edit schedulers => schedulers.content id = s.schedulers.content id
  | _ => True

/-- The flag is set, and no tick of the job is past `checkState`. -/
structure Stuck (id : String) (s : System T) : Prop where
  flag : ∃ r, s.schedulers.content id = some r ∧ r.process = true
  waiting : ∀ service, s.services id = some service → ∀ a ∈ service.activations,
    a.phase = .checking ∨ a.phase = .done

/-- With the flag set, a tick ends with `checkState`, and writes nothing. -/
theorem checking_of_flag {s t : JobState T} {r : Except Thrown Phase} {row : Scheduler}
    (hrow : s.session.db.scheduler = some row) (hflag : row.process = true)
    (h : Ticks.segment lib job faults .checking s = (r, t)) :
    landing r = .done ∧ t.session.db = s.session.db := by
  have hwp : Eff.wp (Ticks.segment lib job faults .checking)
      (fun q u => q = .done ∧ u.session.db = s.session.db)
      (fun _ u => u.session.db = s.session.db) s := by
    simp only [Ticks.segment, Eff.wp_tryCatch, Eff.wp_bind, Eff.wp_pure]
    refine Eff.wp_mono (wp_checkState s) (fun doJob u hu => ?_) (fun e u hu => ?_)
    · obtain ⟨hsame, htrue⟩ := hu
      refine ⟨?_, congrArg Session.db hsame⟩
      cases doJob with
      | false => rfl
      | true =>
        obtain ⟨_, row', hrow', hclear, _⟩ := htrue rfl
        rw [hrow] at hrow'
        cases hrow'
        rw [hflag] at hclear
        cases hclear
    · obtain ⟨hsame, hraw⟩ := hu
      refine Eff.wp_mono (TickExclusion.wp_caught_raw hraw u) (fun _ _ hno => hno.elim)
        fun _ v hv => ?_
      rw [hv, hsame]
  obtain ⟨hok, herror⟩ := Eff.wp_iff.mp hwp
  cases r with
  | ok q => exact hok q t h
  | error e => exact ⟨rfl, herror e t h⟩

theorem Stuck.step {s u : System T} {act : Action T} {id : String} (hok : NoStart id s act)
    (hstep : step lib s act = some u) (h : Stuck id s) : Stuck id u := by
  cases act with
  | boot code => exact hok.elim
  | find fault =>
    obtain ⟨_, rfl | rfl⟩ := find_cases hstep
    · exact ⟨h.flag, h.waiting⟩
    · exact ⟨h.flag, h.waiting⟩
  | reset fault => exact hok.elim
  | switchOff other fault =>
    obtain ⟨found, pending, _, _, rfl⟩ := switchOff_cases hstep
    refine ⟨?_, h.waiting⟩
    obtain ⟨r, hr, hflag⟩ := h.flag
    cases fault with
    | some e => exact ⟨r, hr, hflag⟩
    | none =>
      by_cases hid : id = other
      · subst hid
        have hrow :=
          content_updateScheduler_self s.schedulers id fun row => { row with status := false }
        rw [hr] at hrow
        exact ⟨_, hrow, hflag⟩
      · exact ⟨r, (content_updateScheduler_ne _ hid _).trans hr, hflag⟩
  | fire other job faults =>
    obtain ⟨service, hservice, _, rfl⟩ := fire_cases hstep
    refine ⟨h.flag, fun service' hservice' a ha => ?_⟩
    rw [services_setService] at hservice'
    split at hservice'
    · rename_i hsame
      cases hservice'
      rcases List.mem_append.mp ha with ha | ha
      · exact h.waiting service (hsame ▸ hservice) a ha
      · exact Or.inl (List.mem_singleton.mp ha ▸ rfl)
    · exact h.waiting service' hservice' a ha
  | advance other i =>
    obtain ⟨service, a, r, t, hservice, ha, hphase, hseg, rfl⟩ := advance_cases hstep
    obtain ⟨row, hrow, hflag⟩ := h.flag
    by_cases hid : id = other
    · subst hid
      have hchecking : a.phase = .checking :=
        (h.waiting service hservice a (List.mem_of_getElem? ha)).resolve_right hphase
      rw [hchecking] at hseg
      have hload : (s.load id service a).session.db.scheduler = some row.toScheduler := by
        show (s.schedulers.content id).map SchedulerRow.toScheduler = _
        rw [hrow]
        rfl
      obtain ⟨hdone, hdb⟩ := checking_of_flag hload hflag hseg
      refine ⟨⟨row, ?_, hflag⟩, fun service' hservice' b hb => ?_⟩
      · show (Schedulers.write s.schedulers id t.session.db.scheduler).content id = some row
        rw [hdb, hload, Schedulers.write, content_updateScheduler_self, hrow]
        rfl
      · have hsaved :=
          (if_pos rfl : (s.saved id _ t.session.db).services id = _).symm.trans hservice'
        cases hsaved
        rcases List.mem_or_eq_of_mem_set hb with hb | rfl
        · exact h.waiting service hservice b hb
        · exact Or.inr hdone
    · refine ⟨⟨row, (content_write_ne s.schedulers hid _).trans hrow, hflag⟩,
        fun service' hservice' => h.waiting service' ?_⟩
      rw [← hservice', services_saved_ne s hid]
  | edit schedulers =>
    cases hstep
    obtain ⟨r, hr, hflag⟩ := h.flag
    exact ⟨⟨r, (show schedulers.content id = _ from hok).trans hr, hflag⟩, h.waiting⟩

/-! ## Ticks that nothing comes between -/

/-- One tick of a job without failures, from its start to its end, and nothing else
meanwhile. -/
def UndisturbedTick (lib : CronLibrary) (id : String) (job : Job T) (s t : System T) : Prop :=
  ∃ service u, s.services id = some service ∧ step lib s (.fire id job .none) = some u ∧
    Reaches (step lib) (fun _ act => act = .advance id service.activations.length) u t ∧
      ∃ service' a, t.services id = some service' ∧
        service'.activations[service.activations.length]? = some a ∧ a.phase = .done

/-- What is left of the tick leads where all of it leads. -/
def Follows (lib : CronLibrary) (id : String) (job : Job T) (i : ℕ) (final : JobState T)
    (t : System T) : Prop :=
  ∃ service c, t.services id = some service ∧ service.activations[i]? = some c ∧ c.job = job ∧
    c.faults = .none ∧ (Ticks.resume lib job .none c.phase (t.load id service c)).2 = final

/-- A part of a tick neither adds nor removes the row. -/
theorem segment_row {p : Phase} {s t : JobState T} {r : Except Thrown Phase}
    (h : Ticks.segment lib job faults p s = (r, t)) :
    t.session.db.scheduler.isSome = s.session.db.scheduler.isSome := by
  have hflag : (TickExclusion.processFlag t.session.db).isSome =
      (TickExclusion.processFlag s.session.db).isSome := by
    cases TickExclusion.segment_moves h with
    | idle _ _ kept _ => rw [kept]
    | enter _ _ set => rw [set, Option.isSome_map]
    | hold _ _ kept => rw [kept]
    | leave _ _ row => exact row
  simpa [TickExclusion.processFlag] using hflag

/-- So what is stored is what the part leaves. -/
theorem db_saved {s : System T} {id : String} {service service' : Service T} {a : Activation T}
    {p : Phase} {r : Except Thrown Phase} {t : JobState T}
    (h : Ticks.segment lib job faults p (s.load id service a) = (r, t)) :
    (s.saved id service' t.session.db).db id = t.session.db := by
  have hrow : t.session.db.scheduler.isSome = (s.schedulers.content id).isSome := by
    rw [segment_row h]
    exact Option.isSome_map
  generalize t.session.db = db at hrow
  obtain ⟨scheduler, tables⟩ := db
  refine congrArg (fun row => (⟨row, tables⟩ : Db T)) ?_
  show ((Schedulers.write s.schedulers id scheduler).content id).map SchedulerRow.toScheduler =
    scheduler
  cases scheduler with
  | none =>
    have hnone : s.schedulers.content id = none := by simpa using hrow.symm
    rw [Schedulers.write, hnone]
    rfl
  | some row =>
    obtain ⟨old, hold⟩ := Option.isSome_iff_exists.mp hrow.symm
    rw [Schedulers.write, content_updateScheduler_self, hold]
    rfl

theorem Follows.step {t u : System T} {id : String} {i : ℕ} {final : JobState T}
    (hstep : step lib t (.advance id i) = some u) (h : Follows lib id job i final t) :
    Follows lib id job i final u := by
  obtain ⟨service, c, hservice, hc, hjob, hfaults, hrest⟩ := h
  obtain ⟨service', c', r, t', hservice', hc', _, hseg, rfl⟩ := advance_cases hstep
  rw [hservice] at hservice'
  cases hservice'
  rw [hc] at hc'
  cases hc'
  have hi : i < service.activations.length := (List.getElem?_eq_some_iff.mp hc).1
  refine ⟨_, c.saved (landing r) t', if_pos rfl, by simp [Service.saved, hi], hjob, hfaults, ?_⟩
  rw [← hrest, Ticks.resume_segment c.phase, Eff.bind_eq]
  rw [hjob, hfaults] at hseg
  rw [hseg]
  have hload : (t.saved id (service.saved i (c.saved (landing r) t') (t.load id service c) t')
      t'.session.db).load id (service.saved i (c.saved (landing r) t') (t.load id service c) t')
        (c.saved (landing r) t') = t' := by
    rw [System.load, db_saved hseg]
    rfl
  cases r with
  | ok phase => exact congrArg (fun j => (Ticks.resume lib job .none phase j).2) hload
  | error e => exact hload

/-- A tick that nothing comes between does what `processWork` does. -/
theorem tick_processWork {s t : System T} {id : String} {service : Service T}
    (hservice : s.services id = some service) (h : UndisturbedTick lib id job s t) :
    ∃ service' final,
      (processWork lib job .none
        ⟨startSession (s.db id), service.registered, service.cron, .new⟩).2 = final ∧
        t.services id = some service' ∧ t.db id = final.session.db ∧
          service'.cron = final.cron := by
  obtain ⟨service₀, u, hservice₀, hfire, hrun, last, b, hlast, hb, hdone⟩ := h
  rw [hservice] at hservice₀
  cases hservice₀
  obtain ⟨service₁, hservice₁, _, rfl⟩ := fire_cases hfire
  rw [hservice] at hservice₁
  cases hservice₁
  have hfirst : Follows lib id job service.activations.length
      (processWork lib job .none
        ⟨startSession (s.db id), service.registered, service.cron, .new⟩).2
      (s.setService id { service with activations := service.activations ++
        [⟨job, .none, .checking, startSession (s.db id), .new⟩] }) :=
    ⟨_, ⟨job, .none, .checking, startSession (s.db id), .new⟩, if_pos rfl, by simp, rfl, rfl, rfl⟩
  obtain ⟨service', c, hservice', hc, _, _, hend⟩ :=
    hrun.invariant (Follows lib id job service.activations.length _)
      (fun _ _ _ hact hstep hI => hI.step (hact ▸ hstep)) hfirst
  rw [hlast] at hservice'
  cases hservice'
  rw [hb] at hc
  cases hc
  rw [hdone] at hend
  refine ⟨last, _, rfl, hlast, ?_, ?_⟩
  · rw [← hend]
    rfl
  · rw [← hend]
    rfl

/-! ## A start and the two ticks after it -/

/-- A tick on a row with another cron string takes that over, and does nothing else. -/
theorem processWork_setsCron (lib : CronLibrary) (job : Job T) {s : JobState T} {row : Scheduler}
    {cron : String}
    (hrow : s.session.db.scheduler = some row) (hclear : row.process = false)
    (hcron : lib.expression row.cron = some cron) (hvalid : lib.isCronString (some cron) = true)
    (hother : s.cron ≠ cron) :
    (processWork lib job .none s).2.session.db = s.session.db ∧
      (processWork lib job .none s).2.cron = cron := by
  have hwp : Eff.wp (processWork lib job .none)
      (fun _ t => t.session.db = s.session.db ∧ t.cron = cron)
      (fun _ t => t.session.db = s.session.db ∧ t.cron = cron) s := by
    simp [processWork, checkState, findScheduler, connectionRead, wp_onSession, Eff.wp_mayFail,
      WorkFaults.none, hrow, hclear, hcron, hvalid, hother, setMessage, Eff.wp_ite]
  exact Eff.wp_final (P := fun t : JobState T => t.session.db = s.session.db ∧ t.cron = cron) hwp

/-- A tick on a row with its own cron string and a clear flag runs the job, and clears
the flag behind it. -/
theorem processWork_runs (lib : CronLibrary) (job : Job T) {s : JobState T} {row : Scheduler}
    {ran : Session (Db T) LoggerData} (hrow : s.session.db.scheduler = some row)
    (hclear : row.process = false) (hcron : lib.expression row.cron = some s.cron)
    (hrun : job.run { s.session with
      db := s.session.db.setScheduler fun r => { r with process := true } } = (.ok (), ran)) :
    (processWork lib job .none s).2.session.db =
      ran.db.setScheduler fun r => { r with process := false } := by
  have hwp : Eff.wp (processWork lib job .none)
      (fun _ t => t.session.db = ran.db.setScheduler fun r => { r with process := false })
      (fun _ t => t.session.db = ran.db.setScheduler fun r => { r with process := false }) s := by
    simp [processWork, checkState, findScheduler, connectionRead, wp_onSession, Eff.wp_mayFail,
      WorkFaults.none, hrow, hclear, hcron, setMessage, Eff.wp_ite, updateProcessing,
      Base.updateScheduler, connectionWrite, work]
    refine Eff.wp_iff.mpr ⟨fun a t ht => ?_, fun e t ht => ?_⟩
    · cases hrun.symm.trans ht
      rfl
    · cases hrun.symm.trans ht
  exact Eff.wp_final (P := fun t : JobState T => t.session.db =
    ran.db.setScheduler fun r => { r with process := false }) hwp

/-- The process after a start without failures. -/
def System.restarted (s : System T) (code : List String) : System T :=
  (s.boot code).clearFlags.launch (getAllSchedulers s.schedulers)

theorem restarted_eq (s : System T) (code : List String) :
    [Action.boot code, .find none, .reset none].foldlM (step lib) s =
      some (System.restarted s code) := rfl

/-- The session that a run starts in: the flag is set, whatever it was before. -/
def runSession (row : SchedulerRow) (tables : T) : Session (Db T) LoggerData :=
  startSession ⟨some { row.toScheduler with process := true }, tables⟩

/-- The job has run on these tables, and its flag is clear. -/
def HasRun (job : Job T) (id : String) (row : SchedulerRow) (tables : T) (t : System T) : Prop :=
  t.db id = (job.run (runSession row tables)).2.db.setScheduler fun r => { r with process := false }

theorem hasRun_of_tick {s t : System T} {id : String} {row : SchedulerRow} {service : Service T}
    (hservice : s.services id = some service)
    (hdb : s.db id = ⟨some { row.toScheduler with process := false }, s.tables⟩)
    (hcron : lib.expression row.cron = some service.cron)
    (hrun : (job.run (runSession row s.tables)).1 = .ok ())
    (h : UndisturbedTick lib id job s t) : HasRun job id row s.tables t := by
  obtain ⟨_, final, hfinal, _, hend, _⟩ := tick_processWork hservice h
  rw [hdb] at hfinal
  have hran : job.run (runSession row s.tables) =
      (.ok (), (job.run (runSession row s.tables)).2) := Prod.ext hrun rfl
  have hprocess := processWork_runs lib job
    (s := ⟨startSession ⟨some { row.toScheduler with process := false }, s.tables⟩,
      service.registered, service.cron, .new⟩) rfl rfl hcron hran
  rw [HasRun, hend, ← hfinal, hprocess]

theorem restart_runs {s t₁ t₂ : System T} {id cron : String} {row : SchedulerRow}
    {code : List String} (hrow : s.schedulers.content id = some row) (hon : row.status = true)
    (hcode : id ∈ code) (hcron : lib.expression row.cron = some cron)
    (hvalid : lib.isCronString (some cron) = true)
    (hrun : (job.run (runSession row s.tables)).1 = .ok ())
    (h₁ : UndisturbedTick lib id job (System.restarted s code) t₁)
    (h₂ : UndisturbedTick lib id job t₁ t₂) :
    HasRun job id row s.tables t₁ ∨ HasRun job id row s.tables t₂ := by
  have hdb : (System.restarted s code).db id =
      ⟨some { row.toScheduler with process := false }, s.tables⟩ := by
    refine congrArg (fun row => (⟨row, s.tables⟩ : Db T)) ?_
    show ((updateSchedulers s.schedulers _).content id).map SchedulerRow.toScheduler = _
    rw [content_updateSchedulers, hrow]
    rfl
  have hservice : (System.restarted s code).services id = some ⟨true, true, EVERY_SECOND, []⟩ := by
    have hfound : id ∈ getAllSchedulers s.schedulers := mem_getAllSchedulers.mpr ⟨row, hrow, hon⟩
    simp [System.restarted, System.launch, System.clearFlags, System.boot, Service.new, hcode,
      hfound]
  by_cases hsame : EVERY_SECOND = cron
  · have hcron₀ : lib.expression row.cron = some EVERY_SECOND := hsame ▸ hcron
    exact Or.inl (hasRun_of_tick (s := System.restarted s code) hservice hdb hcron₀ hrun h₁)
  · -- the first tick takes the cron string over
    obtain ⟨service, final, hfinal, hservice₁, hend, hcron₁⟩ := tick_processWork hservice h₁
    rw [hdb] at hfinal
    obtain ⟨hkept, hset⟩ := processWork_setsCron lib job
      (s := ⟨startSession ⟨some { row.toScheduler with process := false }, s.tables⟩,
        true, EVERY_SECOND, .new⟩) rfl rfl hcron hvalid hsame
    rw [hfinal] at hkept hset
    have hdb₁ : t₁.db id = ⟨some { row.toScheduler with process := false }, s.tables⟩ :=
      hend.trans hkept
    have htables : t₁.tables = s.tables := congrArg Db.tables hdb₁
    have hran := hasRun_of_tick hservice₁ (htables ▸ hdb₁)
      (hcron.trans (congrArg some (hcron₁.trans hset).symm)) (htables ▸ hrun) h₂
    exact Or.inr (htables ▸ hran)

/-- **A flag that was left set keeps the job out until a start.** However the awaits
of the ticks of all jobs interleave and whatever fails: with the flag set and no tick
past `checkState`, no tick of the job ever gets further, until the process is started
again. And from any state whatever, after a start without failures a job that is
switched on and has a cron string has run by the end of its second tick, on the tables
as they were. -/
theorem stuck_until_start (s : System T) (id : String) :
    (Stuck id s → ∀ t, Reaches (step lib) (NoStart id) s t → Stuck id t) ∧
    ∀ (code : List String) (row : SchedulerRow) (cron : String) (job : Job T) (t₁ t₂ : System T),
      s.schedulers.content id = some row → row.status = true → id ∈ code →
      lib.expression row.cron = some cron → lib.isCronString (some cron) = true →
      (job.run (runSession row s.tables)).1 = .ok () →
      UndisturbedTick lib id job (System.restarted s code) t₁ → UndisturbedTick lib id job t₁ t₂ →
        HasRun job id row s.tables t₁ ∨ HasRun job id row s.tables t₂ := by
  refine ⟨fun hstuck t ht => ?_, ?_⟩
  · exact ht.invariant (Stuck id) (fun _ _ _ hok hstep hI => hI.step hok hstep) hstuck
  · intro code row cron job t₁ t₂ hrow hon hcode hcron hvalid hrun h₁ h₂
    exact restart_runs hrow hon hcode hcron hvalid hrun h₁ h₂

/-- A tick of the job from its start to its end; `i` counts the ticks before it. -/
def exampleTick (i : ℕ) (s : System Unit) : System Unit :=
  (([.fire "token" idleJob .none, .advance "token" i, .advance "token" i, .advance "token" i,
    .advance "token" i] : List (Action Unit)).foldlM (step .everySecond) s).getD s

/-- The same process before it was started again. -/
def exampleStuck : System Unit :=
  exampleSystem.setService "token" ⟨true, true, "* * * * * *", []⟩

theorem token_stuck_until_start :
    (∃ t, Reaches (step .everySecond) (NoStart "token") exampleStuck t ∧
      (t.services "token").map (fun service => service.activations.length) = some 1 ∧
        Stuck "token" t) ∧
    (HasRun idleJob "token" exampleRow ()
        (exampleTick 0 (System.restarted exampleSystem ["token"])) ∨
      HasRun idleJob "token" exampleRow ()
        (exampleTick 1 (exampleTick 0 (System.restarted exampleSystem ["token"])))) := by
  have hstuck : Stuck "token" exampleStuck :=
    ⟨⟨exampleRow, rfl, rfl⟩, fun service hservice a ha => by cases hservice; cases ha⟩
  have hrun : Reaches (step .everySecond) (NoStart "token") exampleStuck _ :=
    .next (.next .start (a := .fire "token" idleJob .none) trivial rfl)
      (a := .advance "token" 0) trivial rfl
  have h₁ : UndisturbedTick .everySecond "token" idleJob
      (System.restarted exampleSystem ["token"])
      (exampleTick 0 (System.restarted exampleSystem ["token"])) :=
    ⟨_, _, rfl, rfl, .next (.next (.next (.next .start rfl rfl) rfl rfl) rfl rfl) rfl rfl,
      _, _, rfl, rfl, rfl⟩
  have h₂ : UndisturbedTick .everySecond "token" idleJob
      (exampleTick 0 (System.restarted exampleSystem ["token"]))
      (exampleTick 1 (exampleTick 0 (System.restarted exampleSystem ["token"]))) :=
    ⟨_, _, rfl, rfl, .next (.next (.next (.next .start rfl rfl) rfl rfl) rfl rfl) rfl rfl,
      _, _, rfl, rfl, rfl⟩
  refine ⟨⟨_, hrun, rfl, (stuck_until_start exampleStuck "token").1 hstuck _ hrun⟩, ?_⟩
  exact (stuck_until_start exampleSystem "token").2 ["token"] exampleRow "* * * * * *"
    idleJob _ _ rfl rfl (by decide) rfl rfl rfl h₁ h₂

end BlockchainTask.SchedulerJob.Restarts

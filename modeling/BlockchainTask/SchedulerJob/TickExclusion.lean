import BlockchainTask.SchedulerJob.Ticks

/-! # When ticks exclude each other

The `process` flag is meant to keep a second tick out while one is inside
`run`. It does as long as no tick sets the flag when it is set already: then
the flag has at most one owner, the tick that set it last and has not cleared
it. The code does not ask for that when it sets the flag. Two ticks that both
read the flag before either sets it are both inside `run`. -/
namespace BlockchainTask.SchedulerJob.TickExclusion
open BlockchainTask.Common.Exception
open BlockchainTask.Library.Effect BlockchainTask.Library.Transaction BlockchainTask.Library.Runs
open BlockchainTask.SchedulerJob.Base BlockchainTask.SchedulerJob.Ticks

variable {T : Type} {lib : CronLibrary} {job : Job T} {faults : WorkFaults}

/-- The stored flag; `none` without a row. -/
def processFlag (db : Db T) : Option Bool := db.scheduler.map Scheduler.process

theorem processFlag_of_flags {d d' : Db T} (h : d'.flags = d.flags) :
    processFlag d' = processFlag d := by
  have hmap : ∀ db : Db T, processFlag db = db.flags.map Flags.process := by
    intro db
    simp only [processFlag, Db.flags, Option.map_map]
    rfl
  rw [hmap, hmap, h]

theorem processFlag_setScheduler_process (b : Bool) (d : Db T) :
    processFlag (d.setScheduler fun r => { r with process := b }) =
      (processFlag d).map fun _ => b := by
  simp only [processFlag, Db.setScheduler_scheduler, Option.map_map]
  rfl

/-- An update of another column keeps the flag. -/
theorem processFlag_setScheduler_of_keeps {f : Scheduler → Scheduler}
    (h : ∀ r, (f r).process = r.process) (d : Db T) :
    processFlag (d.setScheduler f) = processFlag d := by
  simp only [processFlag, Db.setScheduler_scheduler, Option.map_map]
  exact congrArg (fun g => d.scheduler.map g) (funext h)

theorem processFlag_setScheduler_status (b : Bool) (d : Db T) :
    processFlag (d.setScheduler fun r => { r with status := b }) = processFlag d :=
  processFlag_setScheduler_of_keeps (f := fun r => { r with status := b }) (fun _ => rfl) d

theorem processFlag_setScheduler_error (b : Bool) (d : Db T) :
    processFlag (d.setScheduler fun r => { r with error := b }) = processFlag d :=
  processFlag_setScheduler_of_keeps (f := fun r => { r with error := b }) (fun _ => rfl) d

/-- From the moment a tick has set the flag until it has cleared it or given up
clearing it. -/
def owns : Phase → Bool
  | .running | .clearing | .normalStatus | .normalProcessing => true
  | .checking | .starting | .fatalStatus | .fatalError | .done => false

/-- At most one tick is inside `run`, and while one is, the flag is set. -/
def Exclusive (s : Sys T) : Prop :=
  (∀ (i j : Nat) (a b : Activation T), s.activations[i]? = some a → s.activations[j]? = some b →
    a.phase = .running → b.phase = .running → i = j) ∧
  ∀ (i : Nat) (a : Activation T), s.activations[i]? = some a → a.phase = .running →
    processFlag s.db = some true

/-- A tick that is about to set the flag finds it clear. -/
def FindsClear (s : Sys T) (act : Action T) : Prop :=
  ∀ i a, act = .advance i → s.activations[i]? = some a → a.phase = .starting →
    processFlag s.db = some false

/-! ## What a segment does to the flag -/

/-- From phase `p` and flag `f` to phase `q` and flag `f'`. -/
inductive Moves (p q : Phase) (f f' : Option Bool) : Prop where
  | idle (before : owns p = false) (after : owns q = false) (kept : f' = f)
      (ready : q = .starting → f.isSome = true)
  | enter (before : p = .starting) (after : q = .running) (set : f' = f.map fun _ => true)
  | hold (before : owns p = true) (after : owns q = true) (kept : f' = f)
  | leave (before : owns p = true) (after : owns q = false) (row : f'.isSome = f.isSome)

theorem wp_caught (e : Thrown) (s : JobState T) :
    Eff.wp (caught e) (fun q t => t.session = s.session ∧ e.isException = true ∧
      (q = .fatalStatus ∨ q = .normalStatus)) (fun _ t => t.session = s.session) s := by
  cases e with
  | error m => exact rfl
  | exception m level d =>
    cases level with
    | Normal => exact ⟨rfl, rfl, Or.inr rfl⟩
    | Fatal =>
      simp only [caught, setLoggerLevel, deleteScheduler, Eff.wp_bind, Eff.wp_update, Eff.wp_read,
        Eff.wp_ite, Eff.wp_pure, Eff.wp_throw]
      exact ⟨fun _ => ⟨trivial, rfl, Or.inl trivial⟩, fun _ => trivial⟩

/-- An error that is no `Exception` ends the tick where it stands. -/
theorem wp_caught_raw {e : Thrown} (h : e.isException = false) (s : JobState T) :
    Eff.wp (caught e) (fun _ _ => False) (fun _ t => t.session = s.session) s := by
  cases e with
  | error m => exact rfl
  | exception m level d => cases h

theorem raw_of_fault {fault : Option RawError} {e : Thrown}
    (h : fault.map RawError.thrown = some e) : e.isException = false := by
  obtain ⟨raw, _, rfl⟩ := Option.map_eq_some_iff.mp h
  rfl

/-- Then the flag stays as it is. -/
theorem wp_caught_kept {p : Phase} {e : Thrown} {f : Option Bool} (h : e.isException = false)
    {s : JobState T} (hmoves : Moves p .done f (processFlag s.session.db)) :
    Eff.wp (caught e) (fun q t => Moves p q f (processFlag t.session.db))
      (fun _ t => Moves p .done f (processFlag t.session.db)) s := by
  refine Eff.wp_mono (wp_caught_raw h s) (fun _ _ h => h.elim) (fun _ u hu => ?_)
  rw [hu]
  exact hmoves

theorem wp_segment (p : Phase) (s : JobState T) :
    Eff.wp (Ticks.segment lib job faults p)
      (fun q t => Moves p q (processFlag s.session.db) (processFlag t.session.db))
      (fun _ t => Moves p .done (processFlag s.session.db) (processFlag t.session.db)) s := by
  cases p with
  | checking =>
    simp only [Ticks.segment, Eff.wp_tryCatch, Eff.wp_bind, Eff.wp_pure]
    refine Eff.wp_mono (wp_checkState s) (fun doJob t ht => ?_) (fun e t ht => ?_)
    · obtain ⟨hsame, htrue⟩ := ht
      rw [hsame]
      cases doJob with
      | false => exact .idle rfl rfl rfl (by simp)
      | true =>
        obtain ⟨_, r, hr, _⟩ := htrue rfl
        exact .idle rfl rfl rfl (fun _ => by simp [processFlag, hr])
    · obtain ⟨hsame, hraw⟩ := ht
      refine wp_caught_kept hraw ?_
      rw [hsame]
      exact .idle rfl rfl rfl (by simp)
  | starting =>
    simp only [Ticks.segment, updateProcessing, wp_writeScheduler, Eff.wp_tryCatch, Eff.wp_bind,
      Eff.wp_pure]
    refine ⟨fun _ => ?_, fun e he => ?_⟩
    · exact .enter rfl rfl (processFlag_setScheduler_process true s.session.db)
    · exact wp_caught_kept (raw_of_fault he) (.idle rfl rfl rfl (by simp))
  | running =>
    simp only [Ticks.segment, Eff.wp_tryCatch, Eff.wp_bind, wp_onSession, Eff.wp_pure]
    refine Eff.wp_mono (job.keepsFlags s.session) (fun _ t ht => ?_) (fun e t ht => ?_)
    · exact .hold rfl rfl (processFlag_of_flags ht)
    · have hflag := processFlag_of_flags ht
      refine Eff.wp_mono (wp_caught e _) (fun q u hu => ?_) (fun _ u hu => ?_)
      · obtain ⟨hsame, _, rfl | rfl⟩ := hu
        · rw [hsame]
          exact .leave rfl rfl (congrArg Option.isSome hflag)
        · rw [hsame]
          exact .hold rfl rfl hflag
      · rw [hu]
        exact .leave rfl rfl (congrArg Option.isSome hflag)
  | clearing =>
    simp only [Ticks.segment, updateProcessing, wp_writeScheduler, setMessage, Eff.wp_tryCatch,
      Eff.wp_bind, Eff.wp_update, Eff.wp_pure]
    refine ⟨fun _ => ?_, fun e he => ?_⟩
    · refine .leave rfl rfl ?_
      rw [processFlag_setScheduler_process, Option.isSome_map]
    · exact wp_caught_kept (raw_of_fault he) (.leave rfl rfl rfl)
  | fatalStatus =>
    simp only [Ticks.segment, updateStatus, wp_writeScheduler, Eff.wp_bind, Eff.wp_pure]
    refine ⟨fun _ => ?_, fun _ _ => .idle rfl rfl rfl (by simp)⟩
    exact .idle rfl rfl (processFlag_setScheduler_status false _) (by simp)
  | fatalError =>
    simp only [Ticks.segment, updateError, wp_writeScheduler, Eff.wp_bind, Eff.wp_pure]
    refine ⟨fun _ => ?_, fun _ _ => .idle rfl rfl rfl (by simp)⟩
    exact .idle rfl rfl (processFlag_setScheduler_error true _) (by simp)
  | normalStatus =>
    simp only [Ticks.segment, updateStatus, wp_writeScheduler, Eff.wp_bind, Eff.wp_pure]
    refine ⟨fun _ => ?_, fun _ _ => .leave rfl rfl rfl⟩
    exact .hold rfl rfl (processFlag_setScheduler_status true _)
  | normalProcessing =>
    simp only [Ticks.segment, updateProcessing, wp_writeScheduler, Eff.wp_bind, Eff.wp_pure]
    refine ⟨fun _ => .leave rfl rfl ?_, fun _ _ => .leave rfl rfl rfl⟩
    rw [processFlag_setScheduler_process, Option.isSome_map]
  | done => exact .idle rfl rfl rfl (by simp)

theorem segment_moves {p : Phase} {s t : JobState T} {r : Except Thrown Phase}
    (h : Ticks.segment lib job faults p s = (r, t)) :
    Moves p (landing r) (processFlag s.session.db) (processFlag t.session.db) := by
  have hwp : Eff.wp (Ticks.segment lib job faults p) _ _ s := wp_segment p s
  obtain ⟨hok, herror⟩ := Eff.wp_iff.mp hwp
  cases r with
  | ok q => exact hok q t h
  | error e => exact herror e t h

/-! ## The owner of the flag -/

/-- The flag has at most one owner, an owner's flag is set, and a tick that is
about to set it has a row to do so. -/
structure Owned (s : Sys T) : Prop where
  unique : ∀ (i j : Nat) (a b : Activation T), s.activations[i]? = some a →
    s.activations[j]? = some b → owns a.phase = true → owns b.phase = true → i = j
  set : ∀ (i : Nat) (a : Activation T), s.activations[i]? = some a → owns a.phase = true →
    processFlag s.db = some true
  row : ∀ (i : Nat) (a : Activation T), s.activations[i]? = some a → a.phase = .starting →
    (processFlag s.db).isSome = true

theorem Owned.exclusive {s : Sys T} (h : Owned s) : Exclusive s := by
  refine ⟨fun i j a b ha hb hra hrb => ?_, fun i a ha hr => ?_⟩
  · exact h.unique i j a b ha hb (by rw [hra]; rfl) (by rw [hrb]; rfl)
  · exact h.set i a ha (by rw [hr]; rfl)

/-- A new tick owns nothing. -/
theorem Owned.fire {s : Sys T} (h : Owned s) (a : Activation T) (ha : a.phase = .checking) :
    Owned { s with activations := s.activations ++ [a] } := by
  -- a tick that is not the new one was there before
  have hold : ∀ (i : Nat) (b : Activation T), (s.activations ++ [a])[i]? = some b →
      b.phase ≠ .checking → s.activations[i]? = some b := by
    intro i b hb hphase
    rw [List.getElem?_append] at hb
    split at hb
    · exact hb
    · obtain ⟨_, hget⟩ := List.getElem?_eq_some_iff.mp hb
      have hba : b = a := by simpa using hget.symm
      exact absurd (hba ▸ ha) hphase
  have howns : ∀ b : Activation T, owns b.phase = true → b.phase ≠ .checking := by
    intro b hb hphase
    rw [hphase] at hb
    cases hb
  refine ⟨fun i j b c hb hc hob hoc => ?_, fun i b hb hob => ?_, fun i b hb hs => ?_⟩
  · exact h.unique i j b c (hold i b hb (howns b hob)) (hold j c hc (howns c hoc)) hob hoc
  · exact h.set i b (hold i b hb (howns b hob)) hob
  · exact h.row i b (hold i b hb (by rw [hs]; decide)) hs

/-- Saving one tick changes its own entry only. -/
theorem saved_self {s : Sys T} {i : Nat} {a b : Activation T} {q : Phase} {t : JobState T}
    (ha : s.activations[i]? = some a) (hb : (s.saved i (a.saved q t) t).activations[i]? = some b) :
    b.phase = q := by
  have hi : i < s.activations.length := (List.getElem?_eq_some_iff.mp ha).1
  simp only [Sys.saved, List.getElem?_set_self hi, Option.some.injEq] at hb
  rw [← hb]
  rfl

theorem saved_other {s : Sys T} {i j : Nat} {a b : Activation T} {q : Phase} {t : JobState T}
    (hj : j ≠ i) (hb : (s.saved i (a.saved q t) t).activations[j]? = some b) :
    s.activations[j]? = some b := by
  simpa only [Sys.saved, List.getElem?_set_ne (Ne.symm hj)] using hb

/-- Without a set flag there is no owner. -/
theorem Owned.free_of_flag {s : Sys T} (h : Owned s) (hflag : processFlag s.db ≠ some true)
    {j : Nat} {b : Activation T} (hb : s.activations[j]? = some b) : owns b.phase = false := by
  cases hob : owns b.phase with
  | false => rfl
  | true => exact absurd (h.set j b hb hob) hflag

/-- Beside an owner there is no other one. -/
theorem Owned.free_of_owner {s : Sys T} (h : Owned s) {i j : Nat} {a b : Activation T}
    (ha : s.activations[i]? = some a) (hoa : owns a.phase = true) (hj : j ≠ i)
    (hb : s.activations[j]? = some b) : owns b.phase = false := by
  cases hob : owns b.phase with
  | false => rfl
  | true => exact absurd (h.unique j i b a hb ha hob hoa) hj

/-- A tick that is the only one that may own the flag afterwards. -/
theorem owned_of_alone {s : Sys T} {i : Nat} {a : Activation T} (ha : s.activations[i]? = some a)
    {q : Phase} {t : JobState T}
    (hfree : ∀ (j : Nat) (b : Activation T), j ≠ i → s.activations[j]? = some b →
      owns b.phase = false)
    (hset : owns q = true → processFlag t.session.db = some true)
    (hrow : (processFlag t.session.db).isSome = true) : Owned (s.saved i (a.saved q t) t) := by
  -- an owner afterwards is this tick
  have hmine : ∀ (j : Nat) (b : Activation T),
      (s.saved i (a.saved q t) t).activations[j]? = some b → owns b.phase = true →
        j = i ∧ owns q = true := by
    intro j b hb hob
    by_cases hj : j = i
    · subst hj
      rw [saved_self ha hb] at hob
      exact ⟨rfl, hob⟩
    · rw [hfree j b hj (saved_other hj hb)] at hob
      cases hob
  refine ⟨?_, ?_, ?_⟩
  · intro j k b c hb hc hob hoc
    rw [(hmine j b hb hob).1, (hmine k c hc hoc).1]
  · intro j b hb hob
    exact hset (hmine j b hb hob).2
  · intro _ _ _ _
    exact hrow

/-- A segment of one tick, in a state where a tick about to set the flag finds
it clear. -/
theorem Owned.advance {s : Sys T} (h : Owned s) {i : Nat} {a : Activation T}
    (ha : s.activations[i]? = some a) {q : Phase} {t : JobState T}
    (hmoves : Moves a.phase q (processFlag s.db) (processFlag t.session.db))
    (hclear : a.phase = .starting → processFlag s.db = some false) :
    Owned (s.saved i (a.saved q t) t) := by
  cases hmoves with
  | idle before after kept ready =>
    -- the owners are those of before
    have hother : ∀ (j : Nat) (b : Activation T),
        (s.saved i (a.saved q t) t).activations[j]? = some b → owns b.phase = true →
          s.activations[j]? = some b := by
      intro j b hb hob
      by_cases hj : j = i
      · subst hj
        rw [saved_self ha hb, after] at hob
        cases hob
      · exact saved_other hj hb
    refine ⟨?_, ?_, ?_⟩
    · intro j k b c hb hc hob hoc
      exact h.unique j k b c (hother j b hb hob) (hother k c hc hoc) hob hoc
    · intro j b hb hob
      exact kept.trans (h.set j b (hother j b hb hob) hob)
    · intro j b hb hs
      show (processFlag t.session.db).isSome = true
      rw [kept]
      by_cases hj : j = i
      · subst hj
        exact ready ((saved_self ha hb).symm.trans hs)
      · exact h.row j b (saved_other hj hb) hs
  | enter before after set =>
    have hflag : processFlag s.db = some false := hclear before
    have hset : processFlag t.session.db = some true := by
      rw [set, hflag]
      rfl
    have hclear' : processFlag s.db ≠ some true := by
      rw [hflag]
      decide
    refine owned_of_alone ha (fun j b _ hb => h.free_of_flag hclear' hb) (fun _ => hset) ?_
    rw [hset]
    rfl
  | hold before after kept =>
    have hset : processFlag t.session.db = some true := kept.trans (h.set i a ha before)
    refine owned_of_alone ha (fun j b hj hb => h.free_of_owner ha before hj hb) (fun _ => hset) ?_
    rw [hset]
    rfl
  | leave before after row =>
    refine owned_of_alone ha (fun j b hj hb => h.free_of_owner ha before hj hb) (fun hq => ?_) ?_
    · rw [after] at hq
      cases hq
    · rw [row, h.set i a ha before]
      rfl

theorem Owned.step {s u : Sys T} {act : Action T} (hok : FindsClear s act)
    (hstep : step lib s act = some u) (h : Owned s) : Owned u := by
  rcases step_cases hstep with ⟨_, _, _, _, rfl⟩ | ⟨i, a, r, t, rfl, ha, _, hseg, rfl⟩
  · exact h.fire _ rfl
  · exact h.advance ha (segment_moves hseg) (hok i a rfl ha)

/-- **Exclusion.** From a state without ticks, however the ticks interleave: as
long as no tick sets the flag when it is set already, at most one tick is inside
`run` at a time, and the flag is set while one is. -/
theorem exclusive_of_findsClear {s t : Sys T} (hstart : s.activations = [])
    (h : Reaches (step lib) FindsClear s t) : Exclusive t := by
  have hempty : ∀ (i : Nat) (a : Activation T), s.activations[i]? ≠ some a := by
    intro i a ha
    rw [hstart] at ha
    cases ha
  have hfirst : Owned s :=
    ⟨fun i _ a _ ha => absurd ha (hempty i a), fun i a ha => absurd ha (hempty i a),
      fun i a ha => absurd ha (hempty i a)⟩
  exact (h.invariant Owned (fun _ _ _ hok hstep hI => hI.step hok hstep) hfirst).exclusive

/-! ## Two ticks that read the flag before either sets it -/

/-- A run that does nothing. -/
def idleJob : Job Unit where
  run := pure ()
  keepsFlags _ := rfl

def exampleSys : Sys Unit :=
  ⟨⟨some ⟨"EVERY_SECOND", none, some 0, false, false, true⟩, ()⟩, true, "* * * * * *", []⟩

def exampleFire : Action Unit := .fire idleJob .none

/-- A tick on its own gets into `run`, and is alone there. -/
theorem first_tick_exclusive :
    ∃ t, Reaches (step .everySecond) FindsClear exampleSys t ∧
      (∃ a, t.activations[0]? = some a ∧ a.phase = .running) ∧ Exclusive t := by
  have hrun : Reaches (step .everySecond) FindsClear exampleSys _ :=
    .next (.next (.next .start (a := exampleFire) (fun _ _ _ _ _ => rfl) rfl)
      (a := .advance 0) (fun _ _ _ _ _ => rfl) rfl) (a := .advance 0) (fun _ _ _ _ _ => rfl) rfl
  exact ⟨_, hrun, ⟨_, rfl, rfl⟩, exclusive_of_findsClear rfl hrun⟩

/-- The second tick reads the flag before the first has set it. -/
def overlappingTicks : List (Action Unit) :=
  [exampleFire, exampleFire, .advance 0, .advance 1, .advance 0, .advance 1]

theorem overlapping_ticks_not_exclusive :
    ¬ ∀ t, Reaches (step .everySecond) (fun _ _ => True) exampleSys t → Exclusive t := by
  intro h
  have hrun : Reaches (step .everySecond) (fun _ _ => True) exampleSys _ :=
    reaches_of_foldlM (show overlappingTicks.foldlM (step .everySecond) exampleSys = some _ from rfl)
  have hsame : 0 = 1 := (h _ hrun).1 0 1 _ _ rfl rfl rfl rfl
  cases hsame

end BlockchainTask.SchedulerJob.TickExclusion

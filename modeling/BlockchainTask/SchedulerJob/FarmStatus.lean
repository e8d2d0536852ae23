import BlockchainTask.SchedulerJob.AutoFarm
import BlockchainTask.SchedulerJob.BakeryFarm
import BlockchainTask.SchedulerJob.RewarderFarm

/-! # What a turn does to the status of the farms

The status of a farm is written in two places: a pool without allocation clears
it, and a refresh sets it, but only of a row where it is set already. So the
turn of a pid in a run clears the status of its own row, or leaves every status
as it is, apart from that of a row it inserts. -/
namespace BlockchainTask.SchedulerJob.FarmStatus
open BlockchainTask.Common.Exception BlockchainTask.Helper BlockchainTask.Helper.Decimals
open BlockchainTask.Library.Decimal BlockchainTask.Library.Effect BlockchainTask.Library.Transaction
open BlockchainTask.Library.Store
open BlockchainTask.Repository.Farm BlockchainTask.SchedulerJob.Base
open BlockchainTask.SchedulerJob.FarmTemplate

/-- The status of the row that a search finds. -/
def statusAt (w : FarmSearch) (t : Farms) : Option Bool :=
  (findFirst w t).map fun s => s.row.status

theorem statusAt_of_found {w : FarmSearch} {t : Farms} {s : Stored FarmRow}
    (h : findFirst w t = some s) : statusAt w t = some s.row.status := by
  rw [statusAt, h]
  rfl

theorem pid_of_found {w : FarmSearch} {t : Farms} {s : Stored FarmRow}
    (h : findFirst w t = some s) : s.row.pid = some w.pid := by
  have hholds := Table.holds_of_first h
  simp only [FarmSearch.holds, Bool.and_eq_true, beq_iff_eq] at hholds
  exact hholds.2

/-! ## Statements -/

/-- A set that leaves a farm active. -/
structure Activates (set : FarmSet) : Prop extends set.KeepsPlace where
  status : ∀ r, (set.apply r).status = true

theorem activates_refreshed (amount value apr : Number) :
    Activates (.refreshed amount value apr) :=
  ⟨keepsPlace_refreshed amount value apr, fun _ => rfl⟩

theorem Activates.withData {set : FarmSet} (h : Activates set) (data : String) :
    Activates (set.withData data) := ⟨h.toKeepsPlace.withData data, h.status⟩

/-- The statements of a turn that refreshes its pool: a status that changes is
that of a row of the pid where there was none, and it is active. -/
def Refreshed (pid : ℕ) (t t' : Farms) : Prop :=
  ∀ w, statusAt w t' = statusAt w t ∨
    w.pid = pid ∧ statusAt w t = none ∧ statusAt w t' = some true

variable {pid : ℕ} {t t' t'' : Farms}

theorem Refreshed.refl (pid : ℕ) (t : Farms) : Refreshed pid t t := fun _ => Or.inl rfl

theorem Refreshed.trans (h : Refreshed pid t t') (h' : Refreshed pid t' t'') :
    Refreshed pid t t'' := by
  intro w
  rcases h' w with hsame | ⟨hpid, hnone, hactive⟩
  · rw [hsame]
    exact h w
  · rcases h w with hsame | ⟨_, _, hsome⟩
    · exact Or.inr ⟨hpid, hsame ▸ hnone, hactive⟩
    · rw [hnone] at hsome
      cases hsome

/-- A refresh of an active row changes no status. -/
theorem statusAt_update {s : Stored FarmRow} (hmem : s ∈ t.rows) (hstatus : s.row.status = true)
    {set : FarmSet} (hset : Activates set) (w : FarmSearch) :
    statusAt w (updateOne s.id set t) = statusAt w t := by
  unfold statusAt findFirst updateOne
  rw [Table.first_updateId t s.id set.keepsKey (hset.holds w), Option.map_map]
  cases hfound : t.first w.holds with
  | none => rfl
  | some s' =>
    have hrow : (s'.updated s.id set.apply).row.status = s'.row.status := by
      unfold Stored.updated
      split
      · rename_i hid
        rw [Table.id_inj (Table.mem_of_first hfound) hmem hid, hstatus]
        exact hset.status s.row
      · rfl
    exact congrArg some hrow

theorem refreshed_update {s : Stored FarmRow} (hmem : s ∈ t.rows) (hstatus : s.row.status = true)
    {set : FarmSet} (hset : Activates set) : Refreshed pid t (updateOne s.id set t) :=
  fun w => Or.inl (statusAt_update hmem hstatus hset w)

/-- A row that is inserted is active, and the first one only where there was
none. -/
theorem refreshed_create {r : FarmRow} (hfree : insertRefused r t = none) (hpid : r.pid = some pid)
    (hstatus : r.status = true) : Refreshed pid t (t.insertIgnore r) := by
  have hconflict : t.conflicts r = false := by
    by_contra hconflict
    rw [Bool.not_eq_false] at hconflict
    simp [insertRefused, hconflict] at hfree
  intro w
  unfold statusAt findFirst
  rw [Table.first_insertIgnore hconflict]
  cases hfound : t.first w.holds with
  | some s => exact Or.inl rfl
  | none =>
    by_cases hholds : w.holds r = true
    · refine Or.inr ⟨?_, rfl, ?_⟩
      · have hsame := hholds
        simp only [FarmSearch.holds, Bool.and_eq_true, beq_iff_eq, hpid, Option.some.injEq] at hsame
        exact hsame.2.symm
      · rw [hholds]
        exact congrArg some hstatus
    · rw [if_neg hholds]
      exact Or.inl rfl

/-- What is cleared is the status of the row that was found. -/
theorem statusAt_disable {own : FarmSearch} {s : Stored FarmRow} (hfound : findFirst own t = some s) :
    statusAt own (updateOne s.id .disabled t) = some false ∧
      ∀ w, w.pid ≠ own.pid → statusAt w (updateOne s.id .disabled t) = statusAt w t := by
  have hfirst : ∀ w : FarmSearch, findFirst w (updateOne s.id .disabled t) =
      (findFirst w t).map (Stored.updated s.id FarmSet.disabled.apply) := fun w =>
    Table.first_updateId t s.id FarmSet.disabled.keepsKey (keepsPlace_disabled.holds w)
  refine ⟨?_, fun w hpid => ?_⟩
  · rw [statusAt, hfirst, hfound]
    simp [Stored.updated, FarmSet.disabled]
  · rw [statusAt, hfirst, statusAt]
    cases hother : findFirst w t with
    | none => rfl
    | some s' =>
      have hne : s'.id ≠ s.id := by
        intro hid
        have hsame := Table.id_inj (Table.mem_of_first hother) (Table.mem_of_first hfound) hid
        have hpids := (pid_of_found hother).symm.trans (hsame ▸ pid_of_found hfound)
        exact hpid (Option.some.inj hpids)
      simp [Stored.updated, hne]

/-! ## Transactions -/

section
variable {d : Db Farms}

/-- A body whose statements are a refresh of its pid. -/
def Refreshes (pid : ℕ) (d : Db Farms) {α : Type} (m : JobEff Farms α) : Prop :=
  Stages d m fun v _ w => Refreshed pid v.tables w.tables

theorem Refreshes.pure {α : Type} (a : α) : Refreshes pid d (pure a : JobEff Farms α) :=
  Stages.pure a fun v => Refreshed.refl pid v.tables

theorem Refreshes.throw {α : Type} (e : Thrown) : Refreshes pid d (Eff.throw e : JobEff Farms α) :=
  Stages.throw e

theorem Refreshes.await {α : Type} (answer : Except Thrown α) :
    Refreshes pid d (Eff.await answer : JobEff Farms α) :=
  Stages.await answer fun v _ _ => Refreshed.refl pid v.tables

theorem Refreshes.mayFail (fault : Option Thrown) :
    Refreshes pid d (Eff.mayFail fault : JobEff Farms Unit) := by
  intro s hd hactive
  rw [Eff.wp_mayFail]
  exact ⟨fun _ => ⟨hd, hactive, rfl, Refreshed.refl pid s.view.tables⟩, fun _ _ => hd⟩

theorem Refreshes.bind {α β : Type} {m : JobEff Farms α} {f : α → JobEff Farms β}
    (hm : Refreshes pid d m) (hf : ∀ a, Refreshes pid d (f a)) : Refreshes pid d (m >>= f) :=
  Stages.bind (fun _ v _ w => Refreshed pid v.tables w.tables) hm hf
    fun _ _ _ _ _ hfirst hnext => hfirst.trans hnext

theorem Refreshes.ite {α : Type} {c : Prop} [Decidable c] {m n : JobEff Farms α}
    (hm : Refreshes pid d m) (hn : Refreshes pid d n) :
    Refreshes pid d (if c then m else n) := Stages.ite (fun _ => hm) fun _ => hn

theorem Refreshes.when {c : Prop} [Decidable c] {m : JobEff Farms Unit} (hm : Refreshes pid d m) :
    Refreshes pid d (Eff.when c m) := Stages.when (fun _ => hm) fun v => Refreshed.refl pid v.tables

theorem refreshes_create (fault : Option Thrown) {r : FarmRow} (hpid : r.pid = some pid)
    (hstatus : r.status = true) : Refreshes pid d (createFarmWith fault r) :=
  (Stages.managerWrite fault _ _).mono fun v _ w h => by
    rw [h.2]
    exact refreshed_create h.1 hpid hstatus

/-- What follows a search through the manager: a row that is found is one of the
table, and if it is active its refresh changes no status. -/
theorem refreshes_found (fault : Option Thrown) (find : Farms → Option (Stored FarmRow))
    (hfind : ∀ t s, find t = some s → s ∈ t.rows)
    {body : Option (Stored FarmRow) → JobEff Farms Unit} (hmissing : Refreshes pid d (body none))
    (hidle : ∀ s : Stored FarmRow, s.row.status = false → Refreshes pid d (body (some s)))
    (hactive : ∀ s : Stored FarmRow, s.row.status = true → Stages d (body (some s)) fun v _ w =>
      ∃ set, Activates set ∧ w.tables = updateOne s.id set v.tables) :
    Refreshes pid d (managerRead fault (fun db : Db Farms => find db.tables) >>= body) := by
  refine Stages.bindOf (fun farm v _ w => find v.tables = farm → Refreshed pid v.tables w.tables)
    (Stages.managerRead fault _) (fun v farm w _ => ?_) (fun v farm w b x hfound h => ?_)
  · cases farm with
    | none => exact Stages.mono hmissing fun _ _ _ h _ => h
    | some s =>
      cases hstatus : s.row.status with
      | false => exact Stages.mono (hidle s hstatus) fun _ _ _ h _ => h
      | true =>
        refine Stages.mono (hactive s hstatus) fun v _ w h hfound => ?_
        obtain ⟨set, hset, hw⟩ := h
        rw [hw]
        exact refreshed_update (hfind _ _ hfound) hstatus hset
  · obtain ⟨rfl, rfl⟩ := hfound
    exact h rfl

/-- An update of a found row, after answers from outside. -/
def Updates (d : Db Farms) (id : ℕ) (m : JobEff Farms Unit) : Prop :=
  Stages d m fun v _ w => ∃ set, Activates set ∧ w.tables = updateOne id set v.tables

theorem updates_updateFarm (fault : Option Thrown) (id : ℕ) {set : FarmSet} (hset : Activates set) :
    Updates d id (updateFarmWith fault id set) :=
  (Stages.managerWrite fault _ _).mono fun _ _ _ h => ⟨set, hset, h.2 ▸ rfl⟩

theorem updates_throw (id : ℕ) (e : Thrown) : Updates d id (Eff.throw e) := Stages.throw e

theorem updates_await {α : Type} (answer : Except Thrown α) {id : ℕ} {f : α → JobEff Farms Unit}
    (hf : ∀ a, Updates d id (f a)) : Updates d id (Eff.await answer >>= f) :=
  Stages.bind (fun _ v _ w => ∃ set, Activates set ∧ w.tables = updateOne id set v.tables)
    (Stages.await answer fun _ _ _ => rfl) hf fun v _ w _ x (hsame : v = w) h => by
      rw [hsame]
      exact h

end

/-! ## Turns -/

/-- What the turn of a pid does to the status of its own row. -/
inductive Change where
  | kept
  | disabled
  | refreshed
  deriving DecidableEq

def Change.Leads : Change → Option Bool → Option Bool → Prop
  | kept, before, after => after = before
  | disabled, before, after => after = before.map fun _ => false
  | refreshed, before, after => after = before ∨ before = none ∧ after = some true

/-- Every other pid's row keeps its status. -/
structure TurnChanges (own : ℕ → FarmSearch) (pid : ℕ) (change : Change) (t t' : Farms) : Prop where
  turned : change.Leads (statusAt (own pid) t) (statusAt (own pid) t')
  others : ∀ q, q ≠ pid → statusAt (own q) t' = statusAt (own q) t

/-- The searches of a job tell its pids apart. -/
def ByPid (own : ℕ → FarmSearch) : Prop := ∀ pid, (own pid).pid = pid

variable {own : ℕ → FarmSearch}

theorem turnChanges_kept (own : ℕ → FarmSearch) (pid : ℕ) (t : Farms) :
    TurnChanges own pid .kept t t := ⟨rfl, fun _ _ => rfl⟩

theorem turnChanges_missing (h : findFirst (own pid) t = none) :
    TurnChanges own pid .disabled t t := by
  refine ⟨?_, fun _ _ => rfl⟩
  simp [Change.Leads, statusAt, h]

theorem turnChanges_disabled (hown : ByPid own) {s : Stored FarmRow}
    (h : findFirst (own pid) t = some s) :
    TurnChanges own pid .disabled t (updateOne s.id .disabled t) := by
  obtain ⟨hcleared, hothers⟩ := statusAt_disable h
  refine ⟨?_, fun q hq => hothers (own q) ?_⟩
  · rw [hcleared, statusAt_of_found h]
    rfl
  · rw [hown, hown]
    exact hq

theorem turnChanges_refreshed (hown : ByPid own) (h : Refreshed pid t t') :
    TurnChanges own pid .refreshed t t' := by
  refine ⟨?_, fun q hq => ?_⟩
  · rcases h (own pid) with hsame | ⟨_, hnone, hactive⟩
    · exact Or.inl hsame
    · exact Or.inr ⟨hnone, hactive⟩
  · rcases h (own q) with hsame | ⟨hpid, _⟩
    · exact hsame
    · rw [hown] at hpid
      exact absurd hpid hq

/-- A block that, if it returns, changes statuses as the turn of a pid does. -/
def Changes (own : ℕ → FarmSearch) (pid : ℕ) (change : Change)
    (s : Session (Db Farms) LoggerData) (block : JobEff Farms Unit) : Prop :=
  Eff.wp block
    (fun _ u => u.log = s.log ∧ TurnChanges own pid change s.db.tables u.db.tables)
    (fun _ _ => True) s

variable {s : Session (Db Farms) LoggerData}

theorem changes_kept (own : ℕ → FarmSearch) (pid : ℕ) (s : Session (Db Farms) LoggerData) :
    Changes own pid .kept s (pure ()) := ⟨rfl, turnChanges_kept own pid s.db.tables⟩

theorem changes_throw (own : ℕ → FarmSearch) (pid : ℕ) (change : Change)
    (s : Session (Db Farms) LoggerData) (e : Thrown) : Changes own pid change s (Eff.throw e) :=
  trivial

theorem changes_await {α : Type} {change : Change} {answer : Except Thrown α}
    {f : α → JobEff Farms Unit} (hf : ∀ a, answer = .ok a → Changes own pid change s (f a)) :
    Changes own pid change s (Eff.await answer >>= f) := by
  unfold Changes at hf ⊢
  rw [Eff.wp_bind, Eff.wp_await]
  exact ⟨hf, fun _ _ => trivial⟩

/-- After a computation that only asks. -/
theorem changes_bind {α : Type} {change : Change} {m : JobEff Farms α} {f : α → JobEff Farms Unit}
    (hm : Eff.wp m (fun _ u => u = s) (fun _ _ => True) s)
    (hf : ∀ a, Changes own pid change s (f a)) : Changes own pid change s (m >>= f) := by
  unfold Changes
  rw [Eff.wp_bind]
  refine Eff.wp_mono hm (fun a u hu => ?_) (fun _ _ h => h)
  rw [hu]
  exact hf a

theorem changes_search {change : Change} {fault : Option Thrown}
    (find : Farms → Option (Stored FarmRow)) {f : Option (Stored FarmRow) → JobEff Farms Unit}
    (hf : Changes own pid change s (f (find s.db.tables))) :
    Changes own pid change s
      (connectionRead fault (fun db : Db Farms => find db.tables) >>= f) := by
  unfold Changes at hf ⊢
  simp only [connectionRead, Eff.wp_bind, Eff.wp_mayFail, Eff.wp_read]
  exact ⟨fun _ => hf, fun _ _ => trivial⟩

theorem changes_disable (hown : ByPid own) (fault : Option Thrown) {farm : Option (Stored FarmRow)}
    (h : findFirst (own pid) s.db.tables = farm) :
    Changes own pid .disabled s (FarmLoop.disableFound fault farm) := by
  cases farm with
  | none => exact ⟨rfl, turnChanges_missing h⟩
  | some farm =>
    exact wp_connectionWrite (fun _ => ⟨rfl, turnChanges_disabled hown h⟩) fun _ _ => trivial

theorem changes_transaction (hown : ByPid own) {m : JobEff Farms Unit} {f₁ f₂ f₃ : Option Thrown}
    (hm : Refreshes pid s.db m) :
    Changes own pid .refreshed s
      (do
        createQueryRunner
        connect f₁
        startTransaction f₂
        m
        commitTransaction f₃) := by
  have hcommitted := Stages.transaction (P := fun w => Refreshed pid s.db.tables w.tables)
    f₁ f₂ f₃ hm (fun _ _ h => h) rfl
  refine Eff.wp_mono hcommitted (fun _ u hu => ?_) (fun _ _ _ => trivial)
  exact ⟨hu.2.2, turnChanges_refreshed hown hu.1⟩

/-! ## Runs -/

/-- A turn that puts nothing on the record has returned. -/
theorem wp_turn {change : Change} {attempt : JobEff Farms Unit} (rollback : Option Thrown)
    (h : Changes own pid change { s with runner := none } attempt) :
    Eff.wp (FarmLoop.turn rollback pid attempt)
      (fun _ u => u.log.failed = [] → s.log.failed = [] ∧
        TurnChanges own pid change s.db.tables u.db.tables)
      (fun _ _ => True) s := by
  rw [FarmLoop.turn, Eff.wp_bind]
  refine wp_recordedStep
    (f := fun e (l : LoggerData) => { l with failed := l.failed ++ [(pid, e)] })
    (P := fun _ (db : Db Farms) (log : LoggerData) => log.failed = [] → s.log.failed = [] ∧
      TurnChanges own pid change s.db.tables db.tables)
    (F := fun _ _ => True) (fun _ _ => rfl) ?_
  refine Eff.wp_mono h (fun _ u hu hnone => ?_) (fun e u _ => ⟨fun _ hnone => ?_, fun _ => trivial⟩)
  · rw [hu.1] at hnone
    exact ⟨hnone, hu.2⟩
  · -- a turn that throws puts an entry on the record
    exact absurd hnone (List.append_ne_nil_of_right_ne_nil _ (List.cons_ne_nil _ _))

/-- The statuses after some of the turns. -/
structure RunChanges (own : ℕ → FarmSearch) (change : ℕ → Change) (pids : List ℕ) (t t' : Farms) :
    Prop where
  done : ∀ pid ∈ pids, (change pid).Leads (statusAt (own pid) t) (statusAt (own pid) t')
  others : ∀ q, q ∉ pids → statusAt (own q) t' = statusAt (own q) t

theorem RunChanges.step {change : ℕ → Change} {done : List ℕ} (h : RunChanges own change done t t')
    (hpid : pid ∉ done) (hturn : TurnChanges own pid (change pid) t' t'') :
    RunChanges own change (done ++ [pid]) t t'' := by
  have hbefore : statusAt (own pid) t' = statusAt (own pid) t := h.others pid hpid
  refine ⟨fun q hq => ?_, fun q hq => ?_⟩
  · rcases List.mem_append.mp hq with hq | hq
    · have hne : q ≠ pid := fun he => hpid (he ▸ hq)
      rw [hturn.others q hne]
      exact h.done q hq
    · rw [List.mem_singleton.mp hq, ← hbefore]
      exact hturn.turned
  · rw [List.mem_append, List.mem_singleton, not_or] at hq
    exact (hturn.others q hq.2).trans (h.others q hq.1)

theorem wp_turns {change : ℕ → Change} {turns : ℕ → JobEff Farms Unit}
    (hturns : ∀ pid s, Eff.wp (turns pid)
      (fun _ u => u.log.failed = [] → s.log.failed = [] ∧
        TurnChanges own pid (change pid) s.db.tables u.db.tables) (fun _ _ => True) s)
    {pids : List ℕ} (hpids : pids.Nodup) :
    Eff.wp (Eff.forEach pids turns)
      (fun _ u => u.log.failed = [] → RunChanges own change pids s.db.tables u.db.tables)
      (fun _ _ => True) s := by
  refine Eff.wp_forEach (fun done (u : Session (Db Farms) LoggerData) =>
    u.log.failed = [] → RunChanges own change done s.db.tables u.db.tables)
    (fun done pid rest he u hu => ?_) (fun _ => ?_)
  · have hpid : pid ∉ done := by
      rw [he] at hpids
      exact fun hmem => (List.nodup_append.mp hpids).2.2 pid hmem pid List.mem_cons_self rfl
    refine Eff.wp_mono (hturns pid u) (fun _ v hv hnone => ?_) (fun _ _ h => h)
    obtain ⟨hbefore, hturn⟩ := hv hnone
    exact (hu hbefore).step hpid hturn
  · exact ⟨fun pid h => absurd h List.not_mem_nil, fun _ _ => rfl⟩

/-- A run that returns with nothing on its record has had the answers that its
loop needs, and its turns made their changes. -/
theorem run_changes {I S : Type} {networkPid : Except Thrown ℕ}
    {getFarmInfos : List ℕ → Except Thrown (List (Option I))} {getFarmState : Except Thrown S}
    {turns : List (Option I) → S → ℕ → JobEff Farms Unit} {change : List (Option I) → ℕ → Change}
    (hturns : ∀ farmInfos farmState pid s, Eff.wp (turns farmInfos farmState pid)
      (fun _ u => u.log.failed = [] → s.log.failed = [] ∧
        TurnChanges own pid (change farmInfos pid) s.db.tables u.db.tables) (fun _ _ => True) s)
    {db : Db Farms} {u : Session (Db Farms) LoggerData}
    (hrun : FarmLoop.run networkPid getFarmInfos getFarmState turns (startSession db) = (.ok (), u))
    (hnone : u.log.failed = []) :
    ∃ total farmInfos, networkPid = .ok total ∧
      getFarmInfos (fillSequenceNumber total 0) = .ok farmInfos ∧
      RunChanges own (change farmInfos) (fillSequenceNumber total 0) db.tables u.db.tables := by
  have hwp : Eff.wp (FarmLoop.run networkPid getFarmInfos getFarmState turns)
      (fun _ u => u.log.failed = [] → ∃ total farmInfos, networkPid = .ok total ∧
        getFarmInfos (fillSequenceNumber total 0) = .ok farmInfos ∧
        RunChanges own (change farmInfos) (fillSequenceNumber total 0) db.tables u.db.tables)
      (fun _ _ => True) (startSession db) := by
    simp only [FarmLoop.run, writeLog, Eff.wp_bind, Eff.wp_update, Eff.wp_tryCatch, Eff.wp_throw,
      Eff.wp_await]
    refine ⟨fun total htotal => ⟨fun farmInfos hinfos => ⟨fun farmState _ => ?_, fun _ _ => trivial⟩,
      fun _ _ => trivial⟩, fun _ _ => trivial⟩
    have hpids : (fillSequenceNumber total 0).Nodup := List.nodup_range'
    refine Eff.wp_mono (wp_turns (hturns farmInfos farmState) hpids) (fun _ u hu hnone => ?_)
      (fun _ _ _ => trivial)
    exact ⟨total, farmInfos, htotal, hinfos, hu hnone⟩
  exact (Eff.wp_iff.mp hwp).1 () u hrun hnone

end BlockchainTask.SchedulerJob.FarmStatus

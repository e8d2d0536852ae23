import BlockchainTask.SchedulerJob.Farm2Draft

/-! # What a farm2 run leaves in the database

A turn that registers or refreshes a farm ends with its statements pending, and
its connection goes back to the pool with the transaction open, where a later
deactivation may take it. A missing entry ends the run. So a run does what its
turns are for exactly when no turn it gets to has anything to commit, none
deactivates a farm after another one left its transaction open, and nothing comes
after a hole. -/
namespace BlockchainTask.SchedulerJob.Farm2Durability
open BlockchainTask.Common.Exception BlockchainTask.Helper
open BlockchainTask.Library.Effect BlockchainTask.Library.Transaction BlockchainTask.Library.Store
open BlockchainTask.Library.Simulation
open BlockchainTask.Repository.Farm BlockchainTask.SchedulerJob.Base
open BlockchainTask.SchedulerJob.FarmTemplate (findFarm)
open BlockchainTask.SchedulerJob.FarmDraft
open BlockchainTask.SchedulerJob.Farm2 BlockchainTask.SchedulerJob.Farm2Draft

section
variable (env : Farm2.Env) (currentBlockNumber : ℕ) (pid : ℕ) (farmInfo : SmartChef)

/-- The row of a SmartChef's key. -/
def rowOf (db : Db Farms) : Option FarmRow :=
  db.tables.content (env.context.farmWhere pid farmInfo).key

/-- What a turn leaves in the committed row: one that ended may disable its farm,
one that is running leaves it. -/
def rowAfter (row : Option FarmRow) : Option FarmRow :=
  if currentBlockNumber ≥ farmInfo.endBlock then
    match endedDraft env pid (.start row) with
    | (.ok _, draft) => draft.row
    | (.error _, _) => row
  else row

/-- The turn of a running SmartChef throws with its transaction open, and so does
the rollback. -/
structure Stuck (row : Option FarmRow) : Prop where
  live : currentBlockNumber < farmInfo.endBlock
  opened : (env.faults pid).findFarm = none ∧ (env.faults pid).connect = none
  throws : ∃ e, (liveDraft env pid farmInfo (.start row)).1 = .error e
  rollback : (env.faults pid).rollbackTransaction.isSome = true

/-- The turn of a running SmartChef ends with something to commit. -/
def HasToCommit (row : Option FarmRow) : Prop :=
  currentBlockNumber < farmInfo.endBlock ∧ Writes env pid farmInfo row

/-- It ends with its transaction open and nothing in it. -/
def StaysOpen (row : Option FarmRow) : Prop :=
  currentBlockNumber < farmInfo.endBlock ∧ LeavesOpen env pid farmInfo row

/-- The database finds the farm of an ended SmartChef and disables it. -/
def Disables (env : Farm2.Env) (pid : ℕ) : Prop :=
  (env.faults pid).findFarm = none ∧ (env.faults pid).disableFarm = none

instance (env : Farm2.Env) (pid : ℕ) : Decidable (Disables env pid) :=
  inferInstanceAs (Decidable (_ ∧ _))

/-- The turn of an ended SmartChef disables an active farm. -/
structure Deactivates (row : Option FarmRow) : Prop where
  ended : farmInfo.endBlock ≤ currentBlockNumber
  disables : Disables env pid
  active : ∃ r, found env.context.farm2Name row = some r ∧ r.status = true

/-- The statement of an ended SmartChef, which no query runner makes. -/
def deactivation (db : Db Farms) : Option (Db Farms → Db Farms) :=
  if farmInfo.endBlock ≤ currentBlockNumber ∧ Disables env pid then
    (findOne (env.context.farmWhere pid farmInfo) db.tables).map fun farm =>
      Db.setTables (updateOne farm.id .disabled)
  else none

/-! ## The try block -/

theorem wp_findFarm {w : FarmWhere} {fault : Option Thrown} {s : Session (Db Farms) LoggerData}
    {Q : Option (Stored FarmRow) → Session (Db Farms) LoggerData → Prop}
    {R : Thrown → Session (Db Farms) LoggerData → Prop} :
    Eff.wp (findFarm fault w) Q R s ↔
      (fault = none → Q (findOne w s.db.tables) s) ∧ ∀ e, fault = some e → R e s := by
  simp only [findFarm, connectionRead, Eff.wp_bind, Eff.wp_mayFail, Eff.wp_read]

variable {env currentBlockNumber pid farmInfo} {s : Session (Db Farms) LoggerData}

/-- A SmartChef that is running ends its try block with what its draft did
pending. -/
theorem wp_smartChef_live (hlive : currentBlockNumber < farmInfo.endBlock) (hs : s.runner = none) :
    Eff.wp (smartChef env currentBlockNumber pid farmInfo)
      (fun _ t => t.db = s.db ∧ ∃ p draft, t.pending = some p ∧
        liveDraft env pid farmInfo (.start (rowOf env pid farmInfo s.db)) = (.ok (), draft) ∧
        Follows s.db (env.context.farmWhere pid farmInfo) p draft)
      (fun e t => t.db = s.db ∧
        (liveDraft env pid farmInfo (.start (rowOf env pid farmInfo s.db))).1 = .error e ∧
        (t.isTransactionActive = true ↔
          (env.faults pid).findFarm = none ∧ (env.faults pid).connect = none)) s := by
  have hnot : ¬ currentBlockNumber ≥ farmInfo.endBlock := by omega
  have hsearch : (findOne (env.context.farmWhere pid farmInfo) s.db.tables).map Stored.row =
      found env.context.farm2Name (rowOf env pid farmInfo s.db) := findOne_content _ s.db.tables
  simp only [smartChef, liveDraft, hnot, if_false]
  rw [Eff.wp_bind, wp_findFarm]
  refine ⟨fun hfind => ?_, fun e hfind => ?_⟩
  · simp only [hfind, Draft.findFarm_none, Draft.start_row, true_and]
    rw [← hsearch]
    refine Eff.wp_mono (Simulates.opened (simulates_registerAndRefresh env s.db pid farmInfo _) rfl
      (Follows.start s.db _)) (fun _ t ht => ?_) (fun _ _ ht => ht)
    obtain ⟨htd, p, draft, _, hp, hdraft, hfollows⟩ := ht
    exact ⟨htd, p, draft, hp, hdraft, hfollows⟩
  · simp only [hfind, Draft.findFarm_some, reduceCtorEq, false_and, iff_false, true_and]
    rw [Session.isTransactionActive, Session.pending, hs]
    exact fun h => by cases h

/-- One that has ended does what its draft does, without a transaction. -/
theorem settles_smartChef_ended (hended : currentBlockNumber ≥ farmInfo.endBlock) :
    Settles (env.context.farmWhere pid farmInfo) s (smartChef env currentBlockNumber pid farmInfo)
      (endedDraft env pid) := by
  refine settles_find _ fun farm hfarm => ?_
  simp only [hended, if_true]
  exact settles_disable _ farm hfarm

theorem wp_smartChef_ended (hended : currentBlockNumber ≥ farmInfo.endBlock) :
    Eff.wp (smartChef env currentBlockNumber pid farmInfo) (fun _ t => t.runner = s.runner)
      (fun _ t => t.runner = s.runner) s := by
  simp only [smartChef, hended, if_true]
  rw [Eff.wp_bind, wp_findFarm]
  refine ⟨fun _ => ?_, fun _ _ => rfl⟩
  cases findOne (env.context.farmWhere pid farmInfo) s.db.tables with
  | none => rfl
  | some farm => exact wp_connectionWrite (fun _ => rfl) (fun _ _ => rfl)

/-- It makes its statement and no other. -/
theorem wp_smartChef_deactivation (hended : currentBlockNumber ≥ farmInfo.endBlock) :
    Eff.wp (smartChef env currentBlockNumber pid farmInfo)
      (fun _ t =>
        t.db = ((deactivation env currentBlockNumber pid farmInfo s.db).getD id) s.db)
      (fun _ t =>
        t.db = ((deactivation env currentBlockNumber pid farmInfo s.db).getD id) s.db) s := by
  simp only [smartChef, hended, if_true, deactivation, Disables, true_and]
  rw [Eff.wp_bind, wp_findFarm]
  refine ⟨fun hfind => ?_, fun e hfind => ?_⟩
  · cases findOne (env.context.farmWhere pid farmInfo) s.db.tables with
    | none => simp
    | some farm =>
      refine wp_connectionWrite (fun hdisable => ?_) (fun e hdisable => ?_)
      · simp [hfind, hdisable]
      · simp [hdisable]
  · simp [hfind]

/-- Where it has a statement, its farm is found, and the statement changes the data
exactly when the farm is active. -/
theorem deactivation_eq_some {db : Db Farms} {w : Db Farms → Db Farms}
    (h : deactivation env currentBlockNumber pid farmInfo db = some w) :
    w db = db ∨ Deactivates env currentBlockNumber pid farmInfo (rowOf env pid farmInfo db) := by
  unfold deactivation at h
  split at h
  · rename_i hdone
    obtain ⟨farm, hfarm, rfl⟩ := Option.map_eq_some_iff.mp h
    cases hactive : farm.row.status with
    | true =>
      refine Or.inr ⟨hdone.1, hdone.2, farm.row, ?_, hactive⟩
      have hsearch := findOne_content (env.context.farmWhere pid farmInfo) db.tables
      rw [hfarm] at hsearch
      exact hsearch.symm
    | false =>
      have hsame : updateOne farm.id .disabled db.tables = db.tables := by
        refine (Table.updateId_eq_self_iff (findOne_some hfarm) _ _).mpr ?_
        rw [FarmSet.disabled, ← hactive]
      exact Or.inl (congrArg (fun tables => { db with tables := tables }) hsame)
  · cases h

theorem Deactivates.changes {db : Db Farms}
    (h : Deactivates env currentBlockNumber pid farmInfo (rowOf env pid farmInfo db)) :
    ∃ w, deactivation env currentBlockNumber pid farmInfo db = some w ∧ w db ≠ db := by
  obtain ⟨r, hfound, hactive⟩ := h.active
  have hsearch := findOne_content (env.context.farmWhere pid farmInfo) db.tables
  obtain ⟨farm, hfarm, hrow⟩ := Option.map_eq_some_iff.mp (hsearch.trans hfound)
  refine ⟨_, by rw [deactivation, if_pos ⟨h.ended, h.disables⟩, hfarm]; rfl, fun hsame => ?_⟩
  have hidle := (Table.updateId_eq_self_iff (findOne_some hfarm) _ FarmSet.disabled.keepsKey).mp
    (congrArg Db.tables hsame)
  rw [← hrow, ← hidle] at hactive
  cases hactive

/-- What a try block that returns leaves: statements uncommitted exactly when it
has written in a transaction, and otherwise what it has done in the data. -/
structure Returned (env : Farm2.Env) (currentBlockNumber pid : ℕ) (farmInfo : SmartChef)
    (s t : Session (Db Farms) LoggerData) : Prop where
  row : RowAt (env.context.farmWhere pid farmInfo).key
    (rowAfter env currentBlockNumber pid farmInfo (rowOf env pid farmInfo s.db)) s.db t.db
  free : ¬ Stuck env currentBlockNumber pid farmInfo (rowOf env pid farmInfo s.db)
  uncommitted : t.Uncommitted ↔
    HasToCommit env currentBlockNumber pid farmInfo (rowOf env pid farmInfo s.db)
  shown : ¬ t.Uncommitted → t.view = t.db

/-- What one that throws leaves: the data as they were, and its transaction open
when the throw came after it was asked for. -/
structure Failed (env : Farm2.Env) (currentBlockNumber pid : ℕ) (farmInfo : SmartChef)
    (s t : Session (Db Farms) LoggerData) : Prop where
  db : t.db = s.db
  row : rowAfter env currentBlockNumber pid farmInfo (rowOf env pid farmInfo s.db) =
    rowOf env pid farmInfo s.db
  idle : ¬ HasToCommit env currentBlockNumber pid farmInfo (rowOf env pid farmInfo s.db)
  stuck : Stuck env currentBlockNumber pid farmInfo (rowOf env pid farmInfo s.db) ↔
    t.isTransactionActive = true ∧ (env.faults pid).rollbackTransaction.isSome = true

theorem wp_smartChef_of_ended (hended : currentBlockNumber ≥ farmInfo.endBlock)
    (hs : s.runner = none) :
    Eff.wp (smartChef env currentBlockNumber pid farmInfo)
      (fun _ t => Returned env currentBlockNumber pid farmInfo s t)
      (fun _ t => Failed env currentBlockNumber pid farmInfo s t) s := by
  have hnotlive : ¬ currentBlockNumber < farmInfo.endBlock := Nat.not_lt.mpr hended
  refine Eff.wp_mono (Eff.wp_and (settles_smartChef_ended hended) (wp_smartChef_ended hended))
    (fun _ t ht => ?_) (fun e t ht => ?_)
  · obtain ⟨⟨_, draft, hdraft, hrow⟩, hrunner⟩ := ht
    have hpending : t.pending = none := by
      rw [Session.pending, hrunner, hs]
      rfl
    have hclean : ¬ t.Uncommitted := by
      intro h
      obtain ⟨p, hp, _⟩ := h
      rw [hpending] at hp
      cases hp
    have hafter : rowAfter env currentBlockNumber pid farmInfo (rowOf env pid farmInfo s.db) =
        draft.row := by
      rw [rowAfter, if_pos hended, rowOf, hdraft]
    refine ⟨hafter ▸ hrow, fun h => hnotlive h.live, ?_, fun _ => ?_⟩
    · exact ⟨fun h => absurd h hclean, fun h => absurd h.1 hnotlive⟩
    · rw [Session.view, hpending]
  · obtain ⟨⟨_, hdb, hthrow⟩, hrunner⟩ := ht
    refine ⟨hdb, ?_, fun h => hnotlive h.1, fun h => absurd h.live hnotlive, fun h => ?_⟩
    · have hthrow' : endedDraft env pid (.start (rowOf env pid farmInfo s.db)) =
          (.error e, (endedDraft env pid (.start (rowOf env pid farmInfo s.db))).2) :=
        Prod.ext hthrow rfl
      rw [rowAfter, if_pos hended, hthrow']
    · rw [Session.isTransactionActive, Session.pending, hrunner, hs] at h
      cases h.1

theorem wp_smartChef_of_live (hlive : currentBlockNumber < farmInfo.endBlock)
    (hs : s.runner = none) :
    Eff.wp (smartChef env currentBlockNumber pid farmInfo)
      (fun _ t => Returned env currentBlockNumber pid farmInfo s t)
      (fun _ t => Failed env currentBlockNumber pid farmInfo s t) s := by
  have hafter : rowAfter env currentBlockNumber pid farmInfo (rowOf env pid farmInfo s.db) =
      rowOf env pid farmInfo s.db := by
    rw [rowAfter, if_neg (Nat.not_le.mpr hlive)]
  have hwrites := Eff.wp_iff.mp (wp_liveDraft env pid farmInfo (rowOf env pid farmInfo s.db))
  refine Eff.wp_mono (wp_smartChef_live hlive hs) (fun _ t ht => ?_) (fun e t ht => ?_)
  · obtain ⟨htd, p, draft, hp, hdraft, hfollows⟩ := ht
    have hwritten := hwrites.1 () draft hdraft
    have huncommitted : t.Uncommitted ↔ p ≠ id := by
      constructor
      · intro h
        obtain ⟨q, hq, hne⟩ := h
        rw [hp] at hq
        rw [Option.some.inj hq]
        exact hne
      · intro h
        exact ⟨p, hp, h⟩
    refine ⟨?_, fun h => ?_, ⟨fun h => ⟨hlive, hwritten.mp ?_⟩, fun h => ?_⟩, fun h => ?_⟩
    · rw [htd, hafter]
      exact RowAt.refl _ s.db
    · obtain ⟨e, hthrow⟩ := h.throws
      rw [hdraft] at hthrow
      cases hthrow
    · cases hidle : draft.written with
      | false => exact absurd (hfollows.idle hidle) (huncommitted.mp h)
      | true => rfl
    · refine huncommitted.mpr fun hid => hfollows.written (hwritten.mpr h.2) ?_
      rw [hid]
      exact Function.surjective_id
    · have hid : p = id := by_contra fun hne => h (huncommitted.mpr hne)
      rw [Session.view_of_pending hp, hid, id_eq]
  · obtain ⟨htd, hthrow, hactive⟩ := ht
    refine ⟨htd, hafter, fun h => hwrites.2 e _ (Prod.ext hthrow rfl) h.2, ?_⟩
    constructor
    · intro h
      exact ⟨hactive.mpr h.opened, h.rollback⟩
    · intro h
      exact ⟨hlive, hactive.mp h.1, ⟨e, hthrow⟩, h.2⟩

theorem wp_smartChef (env : Farm2.Env) (currentBlockNumber pid : ℕ) (farmInfo : SmartChef)
    {s : Session (Db Farms) LoggerData} (hs : s.runner = none) :
    Eff.wp (smartChef env currentBlockNumber pid farmInfo)
      (fun _ t => Returned env currentBlockNumber pid farmInfo s t)
      (fun _ t => Failed env currentBlockNumber pid farmInfo s t) s := by
  by_cases hended : currentBlockNumber ≥ farmInfo.endBlock
  · exact wp_smartChef_of_ended hended hs
  · exact wp_smartChef_of_live (Nat.lt_of_not_le hended) hs

/-- A try block that returns leaves a transaction open exactly if its SmartChef is
running, and one that throws was not to. -/
theorem wp_smartChef_open (env : Farm2.Env) (currentBlockNumber pid : ℕ) (farmInfo : SmartChef)
    {s : Session (Db Farms) LoggerData} (hs : s.runner = none) :
    Eff.wp (smartChef env currentBlockNumber pid farmInfo)
      (fun _ t => t.isTransactionActive = true ↔
        StaysOpen env currentBlockNumber pid farmInfo (rowOf env pid farmInfo s.db) ∨
          HasToCommit env currentBlockNumber pid farmInfo (rowOf env pid farmInfo s.db))
      (fun _ _ => ¬ (StaysOpen env currentBlockNumber pid farmInfo (rowOf env pid farmInfo s.db) ∨
          HasToCommit env currentBlockNumber pid farmInfo (rowOf env pid farmInfo s.db))) s := by
  by_cases hended : currentBlockNumber ≥ farmInfo.endBlock
  · have hnot : ¬ (StaysOpen env currentBlockNumber pid farmInfo (rowOf env pid farmInfo s.db) ∨
        HasToCommit env currentBlockNumber pid farmInfo (rowOf env pid farmInfo s.db)) := by
      rintro (h | h)
      · exact Nat.not_lt.mpr hended h.1
      · exact Nat.not_lt.mpr hended h.1
    refine Eff.wp_mono (wp_smartChef_ended hended) (fun _ t ht => ?_) (fun _ _ _ => hnot)
    rw [Session.isTransactionActive, Session.pending, ht, hs]
    exact ⟨fun h => (by cases h), fun h => absurd h hnot⟩
  · have hlive : currentBlockNumber < farmInfo.endBlock := Nat.lt_of_not_le hended
    have hopen := Eff.wp_iff.mp (wp_liveDraft_open env pid farmInfo (rowOf env pid farmInfo s.db))
    have hwrites := Eff.wp_iff.mp (wp_liveDraft env pid farmInfo (rowOf env pid farmInfo s.db))
    refine Eff.wp_mono (wp_smartChef_live hlive hs) (fun _ t ht => ?_) (fun e t ht => ?_)
    · obtain ⟨_, p, draft, hp, hdraft, _⟩ := ht
      rw [Session.isTransactionActive, hp]
      refine ⟨fun _ => ?_, fun _ => rfl⟩
      rcases hopen.1 () draft hdraft with hwritten | hleft
      · exact Or.inr ⟨hlive, (hwrites.1 () draft hdraft).mp hwritten⟩
      · exact Or.inl ⟨hlive, hleft⟩
    · obtain ⟨_, hthrow, _⟩ := ht
      rintro (h | h)
      · rw [h.2.returns] at hthrow
        cases hthrow
      · exact hwrites.2 e _ (Prod.ext hthrow rfl) h.2

/-! ## A turn -/

variable {farmInfos : List (Option SmartChef)}

theorem attempt_deactivation {w : Db Farms → Db Farms}
    (hentry : entry farmInfos pid = some farmInfo)
    (hw : deactivation env currentBlockNumber pid farmInfo s.db = some w) :
    (attempt env currentBlockNumber farmInfos pid s).2.db = w s.db := by
  have hended : currentBlockNumber ≥ farmInfo.endBlock := by
    unfold deactivation at hw
    split at hw
    · rename_i hdone
      exact hdone.1
    · cases hw
  have hwp : Eff.wp (attempt env currentBlockNumber farmInfos pid) (fun _ t => t.db = w s.db)
      (fun _ t => t.db = w s.db) s := by
    simp only [attempt, hentry, Eff.wp_bind, Eff.wp_pure]
    have hstatement : Eff.wp (smartChef env currentBlockNumber pid farmInfo) _ _ s :=
      wp_smartChef_deactivation hended
    rwa [hw] at hstatement
  rcases houtcome : attempt env currentBlockNumber farmInfos pid s with ⟨_ | _, t⟩
  · exact (Eff.wp_iff.mp hwp).2 _ t houtcome
  · exact (Eff.wp_iff.mp hwp).1 _ t houtcome

/-- A missing entry ends the loop and nothing else. -/
theorem wp_turn_missing (env : Farm2.Env) (currentBlockNumber : ℕ)
    (s : Session (Db Farms) LoggerData) (hentry : entry farmInfos pid = none) :
    Eff.wp (turn env currentBlockNumber farmInfos pid) (fun go t => go = false ∧ t.db = s.db)
      (fun _ _ => False) s := by
  simp only [turn, attempt, hentry, noQueryRunner, Eff.wp_bind, Eff.wp_update, Eff.wp_tryFinally,
    Eff.wp_tryCatch, Eff.wp_pure]
  exact Eff.wp_mono wp_releaseIfHeld (fun _ t ht => ⟨trivial, ht.1⟩) (fun _ _ h => h)

/-- The turn of an entry goes on, unless it is stuck. -/
theorem wp_turn (env : Farm2.Env) (currentBlockNumber : ℕ) (s : Session (Db Farms) LoggerData)
    (hentry : entry farmInfos pid = some farmInfo) :
    Eff.wp (turn env currentBlockNumber farmInfos pid)
      (fun go t => go = true ∧
        ¬ Stuck env currentBlockNumber pid farmInfo (rowOf env pid farmInfo s.db) ∧
        RowAt (env.context.farmWhere pid farmInfo).key
          (rowAfter env currentBlockNumber pid farmInfo (rowOf env pid farmInfo s.db)) s.db t.db)
      (fun _ t => Stuck env currentBlockNumber pid farmInfo (rowOf env pid farmInfo s.db) ∧
        t.db = s.db) s := by
  rw [turn, Eff.wp_bind]
  refine wp_recordedStep
    (f := fun e (l : LoggerData) => { l with failed := l.failed ++ [(pid, e)] })
    (P := fun go db _ => go = true ∧
      ¬ Stuck env currentBlockNumber pid farmInfo (rowOf env pid farmInfo s.db) ∧
      RowAt (env.context.farmWhere pid farmInfo).key
        (rowAfter env currentBlockNumber pid farmInfo (rowOf env pid farmInfo s.db)) s.db db)
    (F := fun db _ => Stuck env currentBlockNumber pid farmInfo (rowOf env pid farmInfo s.db) ∧
      db = s.db)
    (fun _ _ => rfl) ?_
  simp only [attempt, hentry]
  rw [Eff.wp_bind]
  refine Eff.wp_mono
    (wp_smartChef env currentBlockNumber pid farmInfo (s := { s with runner := none }) rfl)
    (fun _ t ht => ⟨rfl, ht.free, ht.row⟩) (fun e t ht => ?_)
  have hdb : t.db = s.db := ht.db
  have hafter : rowAfter env currentBlockNumber pid farmInfo (rowOf env pid farmInfo s.db) =
      rowOf env pid farmInfo s.db := ht.row
  refine ⟨fun hfree => ⟨trivial, fun h => hfree (ht.stuck.mp h), ?_⟩,
    fun hactive => ⟨ht.stuck.mpr hactive, hdb⟩⟩
  rw [hafter, hdb]
  exact RowAt.refl _ s.db

/-- Past a turn, a transaction is open exactly if its SmartChef is running and its
steps came to their end. -/
theorem active_turn (env : Farm2.Env) (currentBlockNumber : ℕ) (s : Session (Db Farms) LoggerData)
    (hentry : entry farmInfos pid = some farmInfo)
    (hfree : ¬ Stuck env currentBlockNumber pid farmInfo (rowOf env pid farmInfo s.db)) :
    (turn env currentBlockNumber farmInfos pid s).2.isTransactionActive = true ↔
      StaysOpen env currentBlockNumber pid farmInfo (rowOf env pid farmInfo s.db) ∨
        HasToCommit env currentBlockNumber pid farmInfo (rowOf env pid farmInfo s.db) := by
  have hwp : Eff.wp (turn env currentBlockNumber farmInfos pid)
      (fun _ t => t.isTransactionActive = true ↔
        StaysOpen env currentBlockNumber pid farmInfo (rowOf env pid farmInfo s.db) ∨
          HasToCommit env currentBlockNumber pid farmInfo (rowOf env pid farmInfo s.db))
      (fun _ _ => Stuck env currentBlockNumber pid farmInfo (rowOf env pid farmInfo s.db)) s := by
    rw [turn, Eff.wp_bind]
    refine wp_recordedStep_active
      (f := fun e (l : LoggerData) => { l with failed := l.failed ++ [(pid, e)] })
      (fun _ _ => rfl) ?_
    simp only [attempt, hentry]
    rw [Eff.wp_bind]
    refine Eff.wp_mono (Eff.wp_and
      (wp_smartChef env currentBlockNumber pid farmInfo (s := { s with runner := none }) rfl)
      (wp_smartChef_open env currentBlockNumber pid farmInfo (s := { s with runner := none }) rfl))
      (fun _ t ht => ht.2) (fun e t ht => ⟨ht.2, fun hactive => ht.1.stuck.mpr hactive⟩)
  have houtcome := Eff.wp_iff.mp hwp
  rcases hturn : turn env currentBlockNumber farmInfos pid s with ⟨_ | _, t⟩
  · exact absurd (houtcome.2 _ t hturn) hfree
  · exact houtcome.1 _ t hturn

end

/-! ## The turns of a run -/

section
variable (env : Farm2.Env) (currentBlockNumber : ℕ) (farmInfos : List (Option SmartChef))

/-- The loop does not go on after this pid. -/
inductive Stops (db : Db Farms) (pid : ℕ) : Prop
  | missing (h : entry farmInfos pid = none)
  | stuck (farmInfo : SmartChef) (hentry : entry farmInfos pid = some farmInfo)
      (h : Stuck env currentBlockNumber pid farmInfo (rowOf env pid farmInfo db))

/-- The rows of the pids are what their turns leave, and the other keys have what
they had. -/
structure Settled (pids : List ℕ) (d d' : Db Farms) : Prop where
  own : ∀ pid ∈ pids, ∀ farmInfo, entry farmInfos pid = some farmInfo →
    rowOf env pid farmInfo d' =
      rowAfter env currentBlockNumber pid farmInfo (rowOf env pid farmInfo d)
  others : ∀ key, (∀ pid ∈ pids, ∀ farmInfo, entry farmInfos pid = some farmInfo →
    key ≠ (env.context.farmWhere pid farmInfo).key) → d'.tables.content key = d.tables.content key

variable {env currentBlockNumber farmInfos}

theorem farmKey_inj {pid pid' : ℕ} {farmInfo farmInfo' : SmartChef}
    (h : (env.context.farmWhere pid farmInfo).key = (env.context.farmWhere pid' farmInfo').key) :
    pid = pid' :=
  congrArg (fun key : FarmKey => key.2.2) h

theorem Stops.congr {d d' : Db Farms} {pid : ℕ}
    (h : ∀ farmInfo, entry farmInfos pid = some farmInfo →
      rowOf env pid farmInfo d' = rowOf env pid farmInfo d) :
    Stops env currentBlockNumber farmInfos d' pid ↔ Stops env currentBlockNumber farmInfos d pid := by
  refine ⟨fun hstops => ?_, fun hstops => ?_⟩
  · cases hstops with
    | missing hnone => exact .missing hnone
    | stuck farmInfo hentry hstuck => exact .stuck farmInfo hentry (h farmInfo hentry ▸ hstuck)
  · cases hstops with
    | missing hnone => exact .missing hnone
    | stuck farmInfo hentry hstuck => exact .stuck farmInfo hentry ((h farmInfo hentry).symm ▸ hstuck)

/-- Where there is an entry, the loop stops because its turn is stuck. -/
theorem Stops.stuckOf {d : Db Farms} {pid : ℕ} {farmInfo : SmartChef}
    (h : Stops env currentBlockNumber farmInfos d pid)
    (hentry : entry farmInfos pid = some farmInfo) :
    Stuck env currentBlockNumber pid farmInfo (rowOf env pid farmInfo d) := by
  cases h with
  | missing hnone =>
    rw [hentry] at hnone
    cases hnone
  | stuck farmInfo' hentry' hstuck =>
    rw [hentry] at hentry'
    cases hentry'
    exact hstuck

/-- The loop gets through the turns before the first pid that stops it, and to
that one, if there is any. Each turn starts on the row its pid had. -/
structure Split (env : Farm2.Env) (currentBlockNumber : ℕ) (farmInfos : List (Option SmartChef))
    (pids : List ℕ) (s : Session (Db Farms) LoggerData) (done rest : List ℕ) : Prop where
  split : pids = done ++ rest
  goesOn : ∀ pid ∈ done, ¬ Stops env currentBlockNumber farmInfos s.db pid
  stops : ∀ pid ∈ rest.head?, Stops env currentBlockNumber farmInfos s.db pid
  visited : (Eff.reached (turn env currentBlockNumber farmInfos) pids s).map Prod.fst =
    done ++ rest.head?.toList
  rows : ∀ v ∈ Eff.reached (turn env currentBlockNumber farmInfos) pids s, ∀ farmInfo,
    entry farmInfos v.1 = some farmInfo → rowOf env v.1 farmInfo v.2.db = rowOf env v.1 farmInfo s.db
  settled : Settled env currentBlockNumber farmInfos done s.db
    (Eff.whileEach pids (turn env currentBlockNumber farmInfos) s).2.db

/-- The loop is left in the first turn. -/
theorem split_of_stops {pid : ℕ} {pids : List ℕ} {s t : Session (Db Farms) LoggerData}
    (hstops : Stops env currentBlockNumber farmInfos s.db pid) (hdb : t.db = s.db)
    {result : Except Thrown Unit}
    (hloop : Eff.whileEach (pid :: pids) (turn env currentBlockNumber farmInfos) s = (result, t))
    (hreached : Eff.reached (turn env currentBlockNumber farmInfos) (pid :: pids) s = [(pid, s)]) :
    Split env currentBlockNumber farmInfos (pid :: pids) s [] (pid :: pids) where
  split := rfl
  goesOn _ h := nomatch h
  stops pid' h := by
    rw [List.head?_cons, Option.mem_some_iff] at h
    exact h ▸ hstops
  visited := by
    rw [hreached]
    rfl
  rows v hv farmInfo _ := by
    rw [hreached, List.mem_singleton] at hv
    rw [hv]
  settled := by
    rw [hloop]
    exact ⟨fun _ h => (nomatch h), fun key _ => by rw [hdb]⟩

/-- The first turn goes on. -/
theorem Split.cons {pid : ℕ} {pids done rest : List ℕ} {s t : Session (Db Farms) LoggerData}
    {farmInfo : SmartChef} (hentry : entry farmInfos pid = some farmInfo)
    (hturn : turn env currentBlockNumber farmInfos pid s = (.ok true, t))
    (hstuck : ¬ Stuck env currentBlockNumber pid farmInfo (rowOf env pid farmInfo s.db))
    (hrow : RowAt (env.context.farmWhere pid farmInfo).key
      (rowAfter env currentBlockNumber pid farmInfo (rowOf env pid farmInfo s.db)) s.db t.db)
    (hpid : pid ∉ pids) (h : Split env currentBlockNumber farmInfos pids t done rest) :
    Split env currentBlockNumber farmInfos (pid :: pids) s (pid :: done) rest := by
  obtain ⟨hloop, hreached⟩ := Eff.whileEach_of_true hturn pids
  -- no other pid has the row of this one
  have hother : ∀ pid' ∈ pids, ∀ farmInfo', entry farmInfos pid' = some farmInfo' →
      rowOf env pid' farmInfo' t.db = rowOf env pid' farmInfo' s.db := by
    intro pid' hmem farmInfo' _
    refine hrow.tables.others _ fun hkey => hpid ?_
    rw [← farmKey_inj hkey]
    exact hmem
  have hdone : ∀ pid' ∈ done, pid' ∈ pids := by
    intro pid' hmem
    rw [h.split]
    exact List.mem_append_left _ hmem
  refine ⟨by rw [h.split]; rfl, fun pid' hmem => ?_, fun pid' hmem => ?_, ?_, fun v hv => ?_, ?_⟩
  · rcases List.mem_cons.mp hmem with rfl | hmem
    · exact fun hstops => hstuck (hstops.stuckOf hentry)
    · rw [← Stops.congr (hother pid' (hdone pid' hmem))]
      exact h.goesOn pid' hmem
  · have hin : pid' ∈ pids := by
      rw [h.split]
      exact List.mem_append_right _ (List.mem_of_head? hmem)
    rw [← Stops.congr (hother pid' hin)]
    exact h.stops pid' hmem
  · rw [hreached, List.map_cons, h.visited]
    rfl
  · rw [hreached] at hv
    rcases List.mem_cons.mp hv with rfl | hv
    · exact fun _ _ => rfl
    · intro farmInfo' hentry'
      exact (h.rows v hv farmInfo' hentry').trans
        (hother v.1 (Eff.mem_of_reached hv) farmInfo' hentry')
  · rw [hloop]
    refine ⟨fun pid' hmem farmInfo' hentry' => ?_, fun key hkey => ?_⟩
    · rcases List.mem_cons.mp hmem with rfl | hmem
      · rw [hentry] at hentry'
        cases hentry'
        refine (h.settled.others _ fun pid'' hmem' farmInfo'' _ hkey => ?_).trans hrow.tables.own
        exact hpid (farmKey_inj hkey ▸ hdone pid'' hmem')
      · rw [h.settled.own pid' hmem farmInfo' hentry',
          hother pid' (hdone pid' hmem) farmInfo' hentry']
    · refine (h.settled.others key fun pid' hmem => hkey pid' (List.mem_cons_of_mem _ hmem)).trans ?_
      exact hrow.tables.others key (hkey pid List.mem_cons_self farmInfo hentry)

theorem exists_split (env : Farm2.Env) (currentBlockNumber : ℕ)
    (farmInfos : List (Option SmartChef)) {pids : List ℕ} (hpids : pids.Nodup)
    (s : Session (Db Farms) LoggerData) :
    ∃ done rest, Split env currentBlockNumber farmInfos pids s done rest := by
  induction pids generalizing s with
  | nil =>
    exact ⟨[], [], rfl, fun _ h => (nomatch h), fun _ h => (nomatch h), rfl, fun _ h => (nomatch h),
      fun _ h => (nomatch h), fun _ _ => rfl⟩
  | cons pid pids ih =>
    obtain ⟨hpid, hrest⟩ := List.nodup_cons.mp hpids
    generalize hturn : turn env currentBlockNumber farmInfos pid s = outcome
    obtain ⟨result, t⟩ := outcome
    rcases hentry : entry farmInfos pid with _ | farmInfo
    · have hmissing := Eff.wp_iff.mp (wp_turn_missing env currentBlockNumber s hentry)
      cases result with
      | ok go =>
        obtain ⟨rfl, hdb⟩ := hmissing.1 go t hturn
        obtain ⟨hloop, hreached⟩ := Eff.whileEach_of_false hturn pids
        exact ⟨[], _, split_of_stops (.missing hentry) hdb hloop hreached⟩
      | error e => exact (hmissing.2 e t hturn).elim
    · have hthere := Eff.wp_iff.mp (wp_turn env currentBlockNumber s hentry)
      cases result with
      | ok go =>
        obtain ⟨rfl, hstuck, hrow⟩ := hthere.1 go t hturn
        obtain ⟨done, rest, hsplit⟩ := ih hrest t
        exact ⟨_, _, hsplit.cons hentry hturn hstuck hrow hpid⟩
      | error e =>
        obtain ⟨hstuck, hdb⟩ := hthere.2 e t hturn
        obtain ⟨hloop, hreached⟩ := Eff.whileEach_of_error hturn pids
        exact ⟨[], _, split_of_stops (.stuck farmInfo hentry hstuck) hdb hloop hreached⟩

theorem mem_pids {networkPid pid : ℕ} : pid ∈ fillSequenceNumber networkPid 0 ↔ pid < networkPid := by
  simp [fillSequenceNumber]

/-- The loop gets to a pid exactly when no earlier one stops it. -/
theorem visited_iff {networkPid pid : ℕ} {s : Session (Db Farms) LoggerData} {done rest : List ℕ}
    (h : Split env currentBlockNumber farmInfos (fillSequenceNumber networkPid 0) s done rest) :
    pid ∈ (Eff.reached (turn env currentBlockNumber farmInfos) (fillSequenceNumber networkPid 0)
        s).map Prod.fst ↔
      pid < networkPid ∧ ∀ q < pid, ¬ Stops env currentBlockNumber farmInfos s.db q := by
  have hsorted : (done ++ rest).Pairwise (· < ·) := by
    rw [← h.split]
    exact List.pairwise_lt_range'
  have hmem : ∀ q, q < networkPid ↔ q ∈ done ∨ q ∈ rest := by
    intro q
    rw [← mem_pids, h.split, List.mem_append]
  obtain ⟨_, hrest, hbetween⟩ := List.pairwise_append.mp hsorted
  rw [h.visited, List.mem_append]
  cases rest with
  | nil =>
    simp only [List.head?_nil, Option.toList_none, List.not_mem_nil, or_false] at hmem ⊢
    rw [hmem]
    refine ⟨fun hpid => ⟨hpid, fun q hq => h.goesOn q ?_⟩, fun hpid => hpid.1⟩
    rw [← hmem] at hpid ⊢
    omega
  | cons x rest =>
    have hx : Stops env currentBlockNumber farmInfos s.db x := h.stops x rfl
    have hlater := (List.pairwise_cons.mp hrest).1
    have hlast : x < networkPid := (hmem x).mpr (Or.inr List.mem_cons_self)
    -- a pid is done exactly when it comes before the one that stops the loop
    have hdone : ∀ q, q ∈ done ↔ q < x := by
      intro q
      refine ⟨fun hq => hbetween q hq x List.mem_cons_self, fun hq => ?_⟩
      rcases (hmem q).mp (by omega) with hin | hin
      · exact hin
      · rcases List.mem_cons.mp hin with rfl | hin
        · omega
        · have := hlater q hin
          omega
    simp only [List.head?_cons, Option.toList_some, List.mem_singleton, hdone]
    refine ⟨fun hpid => ⟨by omega, fun q hq => h.goesOn q ((hdone q).mpr (by omega))⟩,
      fun hpid => ?_⟩
    have hle : ¬ x < pid := fun hlt => hpid.2 x hlt hx
    omega

/-- A visited pid has what its turn leaves in its row, unless it is where the loop
stops: then its row is as it was. -/
theorem rowOf_whileEach {pids : List ℕ} {pid : ℕ} {s : Session (Db Farms) LoggerData}
    {farmInfo : SmartChef} {done rest : List ℕ}
    (h : Split env currentBlockNumber farmInfos pids s done rest) (hpids : pids.Nodup)
    (hentry : entry farmInfos pid = some farmInfo)
    (hvisited : pid ∈ (Eff.reached (turn env currentBlockNumber farmInfos) pids s).map Prod.fst) :
    let d := (Eff.whileEach pids (turn env currentBlockNumber farmInfos) s).2.db
    (¬ Stops env currentBlockNumber farmInfos s.db pid ∧ rowOf env pid farmInfo d =
      rowAfter env currentBlockNumber pid farmInfo (rowOf env pid farmInfo s.db)) ∨
    (Stuck env currentBlockNumber pid farmInfo (rowOf env pid farmInfo s.db) ∧
      rowOf env pid farmInfo d = rowOf env pid farmInfo s.db) := by
  intro d
  rw [h.visited] at hvisited
  rcases List.mem_append.mp hvisited with hmem | hmem
  · exact Or.inl ⟨h.goesOn pid hmem, h.settled.own pid hmem farmInfo hentry⟩
  · have hhead : pid ∈ rest.head? := Option.mem_toList.mp hmem
    refine Or.inr ⟨?_, h.settled.others _ fun pid' hmem' farmInfo' _ hkey => ?_⟩
    · exact (h.stops pid hhead).stuckOf hentry
    · rw [h.split] at hpids
      have hpid : pid' = pid := (farmKey_inj hkey).symm
      rw [hpid] at hmem'
      exact (List.nodup_append.mp hpids).2.2 pid hmem' pid (List.mem_of_head? hhead) rfl

end

/-! ## A run -/

section
variable (env : Farm2.Env) (currentBlockNumber : ℕ) (farmInfos : List (Option SmartChef))
  (networkPid : ℕ) (db : Db Farms)

/-- The session that the loop of a run starts in. -/
def loopStart : Session (Db Farms) LoggerData :=
  { startSession db with log := { LoggerData.empty with total := some networkPid } }

/-- The pids that a run gets to, each with the session its turn starts in. -/
def turns : List (ℕ × Session (Db Farms) LoggerData) :=
  Eff.reached (turn env currentBlockNumber farmInfos) (fillSequenceNumber networkPid 0)
    (loopStart networkPid db)

/-- What the step of a SmartChef makes of its row: what its own query runner sees
at the end of the step, or the row as it was when the step throws. -/
def effect (pid : ℕ) (farmInfo : SmartChef) : Option FarmRow :=
  match smartChef env currentBlockNumber pid farmInfo (startSession db) with
  | (.ok _, t) => rowOf env pid farmInfo t.view
  | (.error _, _) => rowOf env pid farmInfo db

/-- The pool that a turn takes the connection of its deactivation from, at its
worst: no turn before it had the connection of another one, and the transactions
that were left open are open still. -/
def poolAt (v : ℕ × Session (Db Farms) LoggerData) : Pool (Db Farms) where
  db := v.2.db
  left := ((turns env currentBlockNumber farmInfos networkPid db).filter fun u =>
      decide (u.1 < v.1)).flatMap fun u =>
    (turn env currentBlockNumber farmInfos u.1 u.2).2.pending.toList

/-- What a run is for: a step that ends without an error has committed what it
wrote when its query runner is released, a deactivation is all that its step does and
is committed whichever connection it gets, every entry has its turn, and the table is
the effect of all steps. -/
structure Durable : Prop where
  committed : ∀ v ∈ turns env currentBlockNumber farmInfos networkPid db, ∀ go t,
    attempt env currentBlockNumber farmInfos v.1 { v.2 with runner := none } = (.ok go, t) →
      ¬ t.Uncommitted
  deactivated : ∀ v ∈ turns env currentBlockNumber farmInfos networkPid db, ∀ farmInfo w,
    entry farmInfos v.1 = some farmInfo →
      deactivation env currentBlockNumber v.1 farmInfo v.2.db = some w →
        (attempt env currentBlockNumber farmInfos v.1 { v.2 with runner := none }).2.db =
            w v.2.db ∧
          (poolAt env currentBlockNumber farmInfos networkPid db v).Commits w
  processed : ∀ pid < networkPid, (entry farmInfos pid).isSome = true →
    pid ∈ (turns env currentBlockNumber farmInfos networkPid db).map Prod.fst
  effects : ∀ pid < networkPid, ∀ farmInfo, entry farmInfos pid = some farmInfo →
    rowOf env pid farmInfo (run env (startSession db)).2.db =
      effect env currentBlockNumber db pid farmInfo
  others : ∀ key, (∀ pid < networkPid, ∀ farmInfo, entry farmInfos pid = some farmInfo →
      key ≠ (env.context.farmWhere pid farmInfo).key) →
    (run env (startSession db)).2.db.tables.content key = db.tables.content key

/-- No SmartChef that the loop gets to has something to commit. -/
def NothingToCommit : Prop :=
  ∀ pid < networkPid, (∀ q < pid, ¬ Stops env currentBlockNumber farmInfos db q) →
    ∀ farmInfo, entry farmInfos pid = some farmInfo →
      ¬ HasToCommit env currentBlockNumber pid farmInfo (rowOf env pid farmInfo db)

/-- No farm that the loop gets to is deactivated after a turn that left its
transaction open. -/
def NoneLeftOpen : Prop :=
  ∀ q pid, q < pid → pid < networkPid →
    (∀ p < pid, ¬ Stops env currentBlockNumber farmInfos db p) →
    ∀ before farmInfo, entry farmInfos q = some before → entry farmInfos pid = some farmInfo →
      StaysOpen env currentBlockNumber q before (rowOf env q before db) →
        ¬ Deactivates env currentBlockNumber pid farmInfo (rowOf env pid farmInfo db)

/-- Where the loop stops, no entry comes after. -/
def StopsLast : Prop :=
  ∀ q pid, q < pid → pid < networkPid → Stops env currentBlockNumber farmInfos db q →
    entry farmInfos pid = none

variable {env currentBlockNumber farmInfos networkPid db}

theorem run_db (hblock : env.getBlockNumber = .ok currentBlockNumber)
    (hnetwork : env.networkPid = .ok networkPid)
    (hinfos : env.getFarm2Infos networkPid = .ok farmInfos) (db : Db Farms) :
    (run env (startSession db)).2.db =
      (Eff.whileEach (fillSequenceNumber networkPid 0) (turn env currentBlockNumber farmInfos)
        (loopStart networkPid db)).2.db := by
  have hstart : (writeLog (fun _ => .empty) : JobEff Farms Unit) (startSession db) =
      (.ok (), startSession db) := rfl
  rw [run, Eff.bind_of_ok hstart, Eff.tryCatch_rethrow_snd]
  simp only [hblock, hnetwork, hinfos, Eff.bind_eq, Eff.await, writeLog, Eff.update]
  rfl

/-- A try block leaves something uncommitted exactly when it had to commit. -/
theorem wp_attempt (env : Farm2.Env) (currentBlockNumber : ℕ) {pid : ℕ} {farmInfo : SmartChef}
    {s : Session (Db Farms) LoggerData}
    (hentry : entry farmInfos pid = some farmInfo) (hs : s.runner = none) :
    Eff.wp (attempt env currentBlockNumber farmInfos pid)
      (fun _ t => t.Uncommitted ↔
        HasToCommit env currentBlockNumber pid farmInfo (rowOf env pid farmInfo s.db))
      (fun _ _ => ¬ HasToCommit env currentBlockNumber pid farmInfo (rowOf env pid farmInfo s.db))
      s := by
  simp only [attempt, hentry, Eff.wp_bind, Eff.wp_pure]
  exact Eff.wp_mono (wp_smartChef env currentBlockNumber pid farmInfo hs)
    (fun _ _ ht => ht.uncommitted) (fun _ _ ht => ht.idle)

theorem effect_eq {pid : ℕ} {farmInfo : SmartChef}
    (h : ¬ HasToCommit env currentBlockNumber pid farmInfo (rowOf env pid farmInfo db)) :
    effect env currentBlockNumber db pid farmInfo =
      rowAfter env currentBlockNumber pid farmInfo (rowOf env pid farmInfo db) := by
  have hwp := Eff.wp_iff.mp
    (wp_smartChef env currentBlockNumber pid farmInfo (s := startSession db) rfl)
  unfold effect
  generalize smartChef env currentBlockNumber pid farmInfo (startSession db) = outcome at hwp ⊢
  obtain ⟨result, t⟩ := outcome
  cases result with
  | ok a =>
    have hreturned := hwp.1 a t rfl
    show rowOf env pid farmInfo t.view = _
    rw [hreturned.shown fun hu => h (hreturned.uncommitted.mp hu)]
    exact hreturned.row.tables.own
  | error e => exact (hwp.2 e t rfl).row.symm

theorem rowAfter_stuck {pid : ℕ} {farmInfo : SmartChef} {row : Option FarmRow}
    (h : Stuck env currentBlockNumber pid farmInfo row) :
    rowAfter env currentBlockNumber pid farmInfo row = row := by
  rw [rowAfter, if_neg (Nat.not_le.mpr h.live)]

/-- The same of a turn of a run, by the row that its SmartChef has before the run. -/
theorem wp_attempt_turn {done rest : List ℕ}
    (hsplit : Split env currentBlockNumber farmInfos (fillSequenceNumber networkPid 0)
      (loopStart networkPid db) done rest)
    {v : ℕ × Session (Db Farms) LoggerData}
    (hv : v ∈ turns env currentBlockNumber farmInfos networkPid db) {farmInfo : SmartChef}
    (hentry : entry farmInfos v.1 = some farmInfo) :
    Eff.wp (attempt env currentBlockNumber farmInfos v.1)
      (fun _ t => t.Uncommitted ↔
        HasToCommit env currentBlockNumber v.1 farmInfo (rowOf env v.1 farmInfo db))
      (fun _ _ => ¬ HasToCommit env currentBlockNumber v.1 farmInfo (rowOf env v.1 farmInfo db))
      { v.2 with runner := none } := by
  have hrow : rowOf env v.1 farmInfo v.2.db = rowOf env v.1 farmInfo db :=
    hsplit.rows v hv farmInfo hentry
  rw [← hrow]
  exact wp_attempt env currentBlockNumber (s := { v.2 with runner := none }) hentry rfl

theorem Durable.nothingToCommit {done rest : List ℕ}
    (hsplit : Split env currentBlockNumber farmInfos (fillSequenceNumber networkPid 0)
      (loopStart networkPid db) done rest)
    (h : Durable env currentBlockNumber farmInfos networkPid db) :
    NothingToCommit env currentBlockNumber farmInfos networkPid db := by
  intro pid hpid hbefore farmInfo hentry hcommit
  obtain ⟨v, hv, rfl⟩ := List.mem_map.mp ((visited_iff hsplit).mpr ⟨hpid, hbefore⟩)
  have hattempt := Eff.wp_iff.mp (wp_attempt_turn hsplit hv hentry)
  rcases houtcome : attempt env currentBlockNumber farmInfos v.1 { v.2 with runner := none } with
    ⟨_ | _, t⟩
  · exact hattempt.2 _ t houtcome hcommit
  · exact h.committed v hv _ t houtcome ((hattempt.1 _ t houtcome).mpr hcommit)

/-- The transactions that the pool has left at a turn, by what the turns before it
did. -/
theorem left_eq_nil_iff {done rest : List ℕ}
    (hsplit : Split env currentBlockNumber farmInfos (fillSequenceNumber networkPid 0)
      (loopStart networkPid db) done rest)
    {v : ℕ × Session (Db Farms) LoggerData}
    (hv : v ∈ turns env currentBlockNumber farmInfos networkPid db) :
    (poolAt env currentBlockNumber farmInfos networkPid db v).left = [] ↔
      ∀ q < v.1, ∀ before, entry farmInfos q = some before →
        ¬ (StaysOpen env currentBlockNumber q before (rowOf env q before db) ∨
          HasToCommit env currentBlockNumber q before (rowOf env q before db)) := by
  obtain ⟨hpid, hbefore⟩ := (visited_iff hsplit).mp (List.mem_map_of_mem hv)
  have hactive : ∀ u ∈ turns env currentBlockNumber farmInfos networkPid db, u.1 < v.1 →
      ∀ before, entry farmInfos u.1 = some before →
        ((turn env currentBlockNumber farmInfos u.1 u.2).2.isTransactionActive = true ↔
          StaysOpen env currentBlockNumber u.1 before (rowOf env u.1 before db) ∨
            HasToCommit env currentBlockNumber u.1 before (rowOf env u.1 before db)) := by
    intro u hu hlt before hentry
    have hrow : rowOf env u.1 before u.2.db = rowOf env u.1 before db :=
      hsplit.rows u hu before hentry
    rw [← hrow]
    refine active_turn env currentBlockNumber u.2 hentry fun hstuck => ?_
    rw [hrow] at hstuck
    exact hbefore u.1 hlt (.stuck before hentry hstuck)
  simp only [poolAt, List.flatMap_eq_nil_iff, List.mem_filter, decide_eq_true_eq,
    Option.toList_eq_nil_iff, and_imp]
  constructor
  · intro hnone q hq before hentry hopen
    have hvisited := (visited_iff hsplit).mpr ⟨hq.trans hpid, fun p hp => hbefore p (hp.trans hq)⟩
    obtain ⟨u, hu, rfl⟩ := List.mem_map.mp hvisited
    have hleft := (hactive u hu hq before hentry).mpr hopen
    rw [Session.isTransactionActive, hnone u hu hq] at hleft
    cases hleft
  · intro hnone u hu hlt
    rcases hentry : entry farmInfos u.1 with _ | before
    · exact absurd (.missing hentry) (hbefore u.1 hlt)
    · have hclosed := mt (hactive u hu hlt before hentry).mp (hnone u.1 hlt before hentry)
      rwa [Session.isTransactionActive, Option.not_isSome_iff_eq_none] at hclosed

theorem Durable.noneLeftOpen {done rest : List ℕ}
    (hsplit : Split env currentBlockNumber farmInfos (fillSequenceNumber networkPid 0)
      (loopStart networkPid db) done rest)
    (h : Durable env currentBlockNumber farmInfos networkPid db) :
    NoneLeftOpen env currentBlockNumber farmInfos networkPid db := by
  intro q pid hq hpid hbefore before farmInfo hentry' hentry hopen hdeactivates
  obtain ⟨v, hv, rfl⟩ := List.mem_map.mp ((visited_iff hsplit).mpr ⟨hpid, hbefore⟩)
  have hrow : rowOf env v.1 farmInfo v.2.db = rowOf env v.1 farmInfo db :=
    hsplit.rows v hv farmInfo hentry
  rw [← hrow] at hdeactivates
  obtain ⟨w, hw, hchanges⟩ := hdeactivates.changes
  rcases Pool.commits_iff.mp (h.deactivated v hv farmInfo w hentry hw).2 with hnone | hsame
  · exact (left_eq_nil_iff hsplit hv).mp hnone q hq before hentry' (Or.inl hopen)
  · exact hchanges hsame

/-- A deactivation that changes something finds no transaction left open. -/
theorem commits_of_noneLeftOpen {done rest : List ℕ}
    (hsplit : Split env currentBlockNumber farmInfos (fillSequenceNumber networkPid 0)
      (loopStart networkPid db) done rest)
    (hnothing : NothingToCommit env currentBlockNumber farmInfos networkPid db)
    (hopen : NoneLeftOpen env currentBlockNumber farmInfos networkPid db)
    {v : ℕ × Session (Db Farms) LoggerData}
    (hv : v ∈ turns env currentBlockNumber farmInfos networkPid db) {farmInfo : SmartChef}
    {w : Db Farms → Db Farms} (hentry : entry farmInfos v.1 = some farmInfo)
    (hw : deactivation env currentBlockNumber v.1 farmInfo v.2.db = some w) :
    (poolAt env currentBlockNumber farmInfos networkPid db v).Commits w := by
  obtain ⟨hpid, hbefore⟩ := (visited_iff hsplit).mp (List.mem_map_of_mem hv)
  rw [Pool.commits_iff]
  rcases deactivation_eq_some hw with hsame | hdeactivates
  · exact Or.inr hsame
  · have hrow : rowOf env v.1 farmInfo v.2.db = rowOf env v.1 farmInfo db :=
      hsplit.rows v hv farmInfo hentry
    rw [hrow] at hdeactivates
    refine Or.inl ((left_eq_nil_iff hsplit hv).mpr fun q hq before hentry' hleft => ?_)
    rcases hleft with hstays | hcommit
    · exact hopen q v.1 hq hpid hbefore before farmInfo hentry' hentry hstays hdeactivates
    · exact hnothing q (hq.trans hpid) (fun p hp => hbefore p (hp.trans hq)) before hentry' hcommit

theorem Durable.stopsLast {done rest : List ℕ}
    (hsplit : Split env currentBlockNumber farmInfos (fillSequenceNumber networkPid 0)
      (loopStart networkPid db) done rest)
    (h : Durable env currentBlockNumber farmInfos networkPid db) :
    StopsLast env currentBlockNumber farmInfos networkPid db := by
  intro q pid hq hpid hstops
  by_contra hpresent
  have hvisit := h.processed pid hpid (Option.isSome_iff_ne_none.mpr hpresent)
  exact ((visited_iff hsplit).mp hvisit).2 q hq hstops

/-- No pid with an entry comes after one that stops the loop. -/
theorem StopsLast.reached (h : StopsLast env currentBlockNumber farmInfos networkPid db) {pid : ℕ}
    {farmInfo : SmartChef} (hpid : pid < networkPid) (hentry : entry farmInfos pid = some farmInfo) :
    ∀ q < pid, ¬ Stops env currentBlockNumber farmInfos db q := by
  intro q hq hstops
  rw [h q pid hq hpid hstops] at hentry
  cases hentry

/-- A turn without a SmartChef writes nothing, and any other had nothing to commit. -/
theorem committed_of_nothing {done rest : List ℕ}
    (hsplit : Split env currentBlockNumber farmInfos (fillSequenceNumber networkPid 0)
      (loopStart networkPid db) done rest)
    (hnothing : NothingToCommit env currentBlockNumber farmInfos networkPid db)
    {v : ℕ × Session (Db Farms) LoggerData}
    (hv : v ∈ turns env currentBlockNumber farmInfos networkPid db) {go : Bool}
    {t : Session (Db Farms) LoggerData}
    (hattempt : attempt env currentBlockNumber farmInfos v.1 { v.2 with runner := none } =
      (.ok go, t)) : ¬ t.Uncommitted := by
  intro huncommitted
  rcases hentry : entry farmInfos v.1 with _ | farmInfo
  · rw [attempt, hentry] at hattempt
    cases hattempt
    obtain ⟨p, hp, _⟩ := huncommitted
    cases hp
  · obtain ⟨hpid, hbefore⟩ := (visited_iff hsplit).mp (List.mem_map_of_mem hv)
    have hcommit := (Eff.wp_iff.mp (wp_attempt_turn hsplit hv hentry)).1 go t hattempt
    exact hnothing v.1 hpid hbefore farmInfo hentry (hcommit.mp huncommitted)

/-- **Durability.** A run does what it is for exactly when no SmartChef that it
gets to has something to commit, no farm is deactivated after a transaction was left
open, and where it stops no entry comes after. -/
theorem durable_iff (hblock : env.getBlockNumber = .ok currentBlockNumber)
    (hnetwork : env.networkPid = .ok networkPid)
    (hinfos : env.getFarm2Infos networkPid = .ok farmInfos) (db : Db Farms) :
    Durable env currentBlockNumber farmInfos networkPid db ↔
      NothingToCommit env currentBlockNumber farmInfos networkPid db ∧
        NoneLeftOpen env currentBlockNumber farmInfos networkPid db ∧
        StopsLast env currentBlockNumber farmInfos networkPid db := by
  have hpids : (fillSequenceNumber networkPid 0).Nodup := List.nodup_range'
  obtain ⟨done, rest, hsplit⟩ :=
    exists_split env currentBlockNumber farmInfos hpids (loopStart networkPid db)
  have hrun := run_db hblock hnetwork hinfos db
  constructor
  · intro h
    exact ⟨h.nothingToCommit hsplit, h.noneLeftOpen hsplit, h.stopsLast hsplit⟩
  · intro h
    obtain ⟨hnothing, hopen, hlast⟩ := h
    refine ⟨fun v hv go t hattempt => committed_of_nothing hsplit hnothing hv hattempt,
      fun v hv farmInfo w hentry hw => ⟨attempt_deactivation hentry hw,
        commits_of_noneLeftOpen hsplit hnothing hopen hv hentry hw⟩,
      fun pid hpid hsome => ?_, fun pid hpid farmInfo hentry => ?_, fun key hkey => ?_⟩
    · obtain ⟨farmInfo, hentry⟩ := Option.isSome_iff_exists.mp hsome
      exact (visited_iff hsplit).mpr ⟨hpid, hlast.reached hpid hentry⟩
    · have hbefore := hlast.reached hpid hentry
      have hvisited := (visited_iff hsplit).mpr ⟨hpid, hbefore⟩
      rw [hrun, effect_eq (hnothing pid hpid hbefore farmInfo hentry)]
      rcases rowOf_whileEach hsplit hpids hentry hvisited with ⟨_, hafter⟩ | ⟨hstuck, hkept⟩
      · exact hafter
      · exact hkept.trans (rowAfter_stuck hstuck).symm
    · rw [hrun]
      refine hsplit.settled.others key fun pid hmem farmInfo hentry => ?_
      have hpid : pid < networkPid := by
        rw [← mem_pids, hsplit.split]
        exact List.mem_append_left _ hmem
      exact hkey pid hpid farmInfo hentry

end

/-! ### Two SmartChefs and a hole -/

def cake : FarmToken := ⟨1, "CAKE", "0xca1e", 18, 20, true, 56, true⟩

def abc : FarmToken := ⟨2, "ABC", "0xabc", 18, 3, true, 56, true⟩

def exampleEnv (farmInfos : List (Option SmartChef)) : Farm2.Env where
  context := ⟨1, 56, 3, "PancakeSwap Farm2"⟩
  tokens := [cake, abc]
  getBlockNumber := .ok 100
  networkPid := .ok farmInfos.length
  getFarm2Infos _ := .ok farmInfos
  getSafeERC20BalanceOf _ _ _ := .ok (5 * 10 ^ 18)
  faults _ := .none

def exampleChef (endBlock : ℕ) : SmartChef := ⟨"0xc4ef", "0xca1e", "0xabc", .finite 1, endBlock⟩

def exampleDb : Db Farms := ⟨none, Table.empty⟩

/-- The farm of the first SmartChef is active, that of the second is not. -/
def closingDb : Db Farms :=
  let row := FarmRow.new ⟨1, "PancakeSwap Farm2", "0xc4ef", 0⟩ "CAKE/ABC" [cake] [abc]
  let row' := FarmRow.new ⟨1, "PancakeSwap Farm2", "0xc4ef", 1⟩ "CAKE/ABC" [cake] [abc]
  ⟨none, (Table.empty.insertIgnore row).insertIgnore { row' with status := false }⟩

def closingChefs : List (Option SmartChef) := [some (exampleChef 90), some (exampleChef 200), none]

/-- The first one has ended, the second is running and its farm stays disabled. -/
theorem ended_durable :
    Durable (exampleEnv closingChefs) 100 closingChefs 3 closingDb := by
  refine (durable_iff rfl rfl rfl closingDb).mpr
    ⟨fun pid hpid _ farmInfo hentry h => ?_,
      fun q pid hq hpid _ before farmInfo _ hentry _ h => ?_, fun q pid hq hpid hstops => ?_⟩
  · have hcases : pid = 0 ∨ pid = 1 ∨ pid = 2 := by omega
    rcases hcases with rfl | rfl | rfl
    · cases hentry
      exact absurd h.1 (by decide)
    · cases hentry
      rcases h.2.written with ⟨r, hr, hrefreshes⟩ | ⟨hnone, _⟩
      · cases hr
        exact absurd hrefreshes.active (by decide)
      · cases hnone
    · cases hentry
  · have hcases : pid = 1 ∨ pid = 2 := by omega
    rcases hcases with rfl | rfl
    · cases hentry
      exact absurd h.ended (by decide)
    · cases hentry
  · have hcases : pid = 2 ∨ pid = 1 ∧ q = 0 := by omega
    rcases hcases with rfl | ⟨rfl, rfl⟩
    · rfl
    · exact absurd (hstops.stuckOf rfl).live (by decide)

/-- One that is running, with both tokens registered: its row is made, and after
the run the table is empty. -/
theorem running_not_durable :
    ¬ Durable (exampleEnv [some (exampleChef 200)]) 100 [some (exampleChef 200)] 1 exampleDb := by
  intro h
  have heffect := h.effects 0 (by decide) (exampleChef 200) rfl
  have hafter : rowOf (exampleEnv [some (exampleChef 200)]) 0 (exampleChef 200)
      (run (exampleEnv [some (exampleChef 200)]) (startSession exampleDb)).2.db = none := by
    decide
  have hmade : (effect (exampleEnv [some (exampleChef 200)]) 100 exampleDb 0
      (exampleChef 200)).isSome = true := by
    decide
  rw [← heffect, hafter] at hmade
  cases hmade

end BlockchainTask.SchedulerJob.Farm2Durability

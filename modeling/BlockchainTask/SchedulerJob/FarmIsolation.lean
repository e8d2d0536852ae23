import BlockchainTask.SchedulerJob.FarmDraft

/-! # What a pool leaves of the farm table

Each turn of a farm job's loop follows a program on the row of its own pool, and
leaves every other row alone. So a run leaves of each row what its pool's turn
alone would make of it, whichever other pools fail. -/
namespace BlockchainTask.SchedulerJob.FarmIsolation
open BlockchainTask.Common.Exception BlockchainTask.Helper BlockchainTask.Helper.Decimals
open BlockchainTask.Library.Effect BlockchainTask.Library.Transaction BlockchainTask.Library.Store
open BlockchainTask.Library.Simulation
open BlockchainTask.Repository.Farm BlockchainTask.SchedulerJob.Base
open BlockchainTask.SchedulerJob.FarmTemplate BlockchainTask.SchedulerJob.FarmDraft

variable {I : Type} (pools : Pools I) (env : Env I) (farmState : FarmState)

/-! ## The turn of a pool, on its own row -/

def registerDraft (pid : ℕ) (lpToken : String) : DraftEff Bool := do
  .mayFail (env.faults pid).findToken
  match findToken env.tokens env.context.chainId lpToken with
  | none => pure false
  | some stakeToken =>
    Draft.createFarm (env.faults pid).createFarm env.context.farmAddress (newFarm env pid stakeToken)
    pure true

def refreshDraft (pid : ℕ) (info : I) : DraftEff Unit := do
  match ← Draft.findFarm (env.faults pid).findFarmAgain env.context.farmName with
  | none => .throw typeError
  | some row =>
    if !row.status then pure ()
    else
      match (relation env.tokens row.stake_tokens).head? with
      | none => .throw typeError
      | some targetStakeToken =>
        let amount ← .await
          (pools.stakedAmount (env.getSafeERC20BalanceOf pid) env.context info targetStakeToken)
        Draft.updateFarm (env.faults pid).refreshFarm
          (refreshed farmState (pools.pool info).allocPoint targetStakeToken amount)

def registerAndRefreshDraft (pid : ℕ) (info : I) (row : Option FarmRow) : DraftEff Unit := do
  let initialized ←
    (if row.isNone then registerDraft env pid (pools.pool info).lpToken else pure true)
  .when initialized (refreshDraft pools env farmState pid info)

def attemptDraft (farmInfos : List (Option I)) (pid : ℕ) : DraftEff Unit := do
  let row ← Draft.findFarm (env.faults pid).findFarm env.context.farmName
  match farmInfos[pid]? with
  | none => .throw typeError
  | some none => .mayFail pools.unreadable.error
  | some (some info) =>
    if isZero (.finite (pools.pool info).allocPoint) then
      match row with
      | some _ => Draft.updateFarm (env.faults pid).disableFarm .disabled
      | none => pure ()
    else
      .mayFail (env.faults pid).connect
      .mayFail (env.faults pid).startTransaction
      registerAndRefreshDraft pools env farmState pid info row
      .mayFail (env.faults pid).commitTransaction

/-! ## Each step follows its draft -/

variable (d : Db Farms) (pid : ℕ)

theorem simulates_registerFarm (lpToken : String) :
    Simulates d (Follows d (env.context.farmWhere pid)) (registerFarm env pid lpToken)
      (registerDraft env pid lpToken)
      (fun q b x y => Follows d (env.context.farmWhere pid) q b ∧ y = x) := by
  refine Simulates.bind (Simulates.mayFail _) fun _ _ => ?_
  cases findToken env.tokens env.context.chainId lpToken with
  | none => exact Simulates.pure fun _ _ h => ⟨h, rfl⟩
  | some stakeToken =>
    refine Simulates.bind ?_ fun _ _ => Simulates.pure fun _ _ h => ⟨h, rfl⟩
    exact simulates_createFarm d (env.context.farmWhere pid) _ _ _ _

theorem simulates_refreshFarm (info : I) :
    Simulates d (Follows d (env.context.farmWhere pid)) (refreshFarm pools env farmState pid info)
      (refreshDraft pools env farmState pid info)
      (fun q b _ _ => Follows d (env.context.farmWhere pid) q b) := by
  refine Simulates.bind (simulates_findFarm d (env.context.farmWhere pid) _) fun found row => ?_
  refine Simulates.assuming fun hrow => ?_
  subst hrow
  cases found with
  | none => exact Simulates.throw _
  | some farm =>
    refine Simulates.ite (fun _ => Simulates.pure fun _ _ h => h.1) fun _ => ?_
    cases (relation env.tokens farm.row.stake_tokens).head? with
    | none => exact Simulates.throw _
    | some targetStakeToken =>
      refine Simulates.bindSame (Simulates.await _) fun amount => ?_
      exact simulates_refresh d (env.context.farmWhere pid) _ farm _ _ _

theorem simulates_registerAndRefresh (info : I) (farm : Option (Stored FarmRow)) :
    Simulates d (Follows d (env.context.farmWhere pid))
      (registerAndRefresh pools env farmState pid info farm)
      (registerAndRefreshDraft pools env farmState pid info (farm.map Stored.row))
      (fun q b _ _ => Follows d (env.context.farmWhere pid) q b) :=
  FarmDraft.simulates_registerAndRefresh farm (simulates_registerFarm env d pid _)
    (simulates_refreshFarm pools env farmState d pid info)

/-! ## One turn -/

variable (farmInfos : List (Option I))

theorem settles_attempt (s : Session (Db Farms) LoggerData) :
    Settles (env.context.farmWhere pid) s (attempt pools env farmState farmInfos pid)
      (attemptDraft pools env farmState farmInfos pid) := by
  refine settles_find _ fun farm hfarm => ?_
  rcases farmInfos[pid]? with _ | _ | info
  · exact ⟨rfl, rfl, rfl⟩
  · cases pools.unreadable with
    | null => exact ⟨rfl, _, rfl, RowAt.refl _ s.db⟩
    | emptyArray => exact ⟨rfl, rfl, rfl⟩
  · by_cases hzero : isZero (.finite (pools.pool info).allocPoint) = true
    · simp only [hzero, if_true]
      exact settles_disable _ farm hfarm
    · simp only [hzero]
      exact settles_transaction (simulates_registerAndRefresh pools env farmState s.db pid info farm)

/-- The row of a pool's key. -/
def rowOf (db : Db Farms) : Option FarmRow := db.tables.content (env.context.farmWhere pid).key

/-- What a turn makes of its row, and what it puts on the record. -/
def rowAfter (row : Option FarmRow) : Option FarmRow :=
  match attemptDraft pools env farmState farmInfos pid (.start row) with
  | (.ok _, draft) => draft.row
  | (.error _, _) => row

def failure (row : Option FarmRow) : List (ℕ × Thrown) :=
  match (attemptDraft pools env farmState farmInfos pid (.start row)).1 with
  | .ok _ => []
  | .error e => [(pid, e)]

section
variable {pools env farmState pid farmInfos} {row : Option FarmRow}

theorem after_of_ok {draft : Draft}
    (h : attemptDraft pools env farmState farmInfos pid (.start row) = (.ok (), draft)) :
    rowAfter pools env farmState pid farmInfos row = draft.row ∧
      failure pools env farmState pid farmInfos row = [] := by
  simp [rowAfter, failure, h]

theorem after_of_error {e : Thrown}
    (h : (attemptDraft pools env farmState farmInfos pid (.start row)).1 = .error e) :
    rowAfter pools env farmState pid farmInfos row = row ∧
      failure pools env farmState pid farmInfos row = [(pid, e)] := by
  unfold rowAfter failure
  generalize attemptDraft pools env farmState farmInfos pid (.start row) = outcome at h ⊢
  obtain ⟨result, draft⟩ := outcome
  cases h
  exact ⟨rfl, rfl⟩

end

/-- A turn always comes to its end when the rollback succeeds. -/
theorem wp_turn (hrollback : (env.faults pid).rollbackTransaction = none)
    (s : Session (Db Farms) LoggerData) :
    Eff.wp (turn pools env farmState farmInfos pid)
      (fun _ t =>
        RowAt (env.context.farmWhere pid).key
          (rowAfter pools env farmState pid farmInfos (rowOf env pid s.db)) s.db t.db ∧
        t.log.failed = s.log.failed ++
          failure pools env farmState pid farmInfos (rowOf env pid s.db))
      (fun _ _ => False) s := by
  rw [turn, Eff.wp_bind]
  refine wp_recordedStep
    (f := fun e (l : LoggerData) => { l with failed := l.failed ++ [(pid, e)] })
    (P := fun _ db (log : LoggerData) => RowAt (env.context.farmWhere pid).key
        (rowAfter pools env farmState pid farmInfos (rowOf env pid s.db)) s.db db ∧
      log.failed = s.log.failed ++ failure pools env farmState pid farmInfos (rowOf env pid s.db))
    (F := fun _ _ => False) (fun _ _ => rfl) ?_
  have hattempt := settles_attempt pools env farmState pid farmInfos { s with runner := none }
  refine Eff.wp_mono hattempt (fun _ t ht => ?_) (fun e t ht => ?_)
  · obtain ⟨hlog, draft, hdraft, hrow⟩ := ht
    have hnone : failure pools env farmState pid farmInfos (rowOf env pid s.db) = [] :=
      (after_of_ok hdraft).2
    rw [hlog]
    exact ⟨(after_of_ok hdraft).1 ▸ hrow, by rw [hnone, List.append_nil]⟩
  · obtain ⟨hlog, hdb, hthrow⟩ := ht
    have hafter : rowAfter pools env farmState pid farmInfos (rowOf env pid s.db) =
        rowOf env pid s.db := (after_of_error hthrow).1
    have hrecord : failure pools env farmState pid farmInfos (rowOf env pid s.db) = [(pid, e)] :=
      (after_of_error hthrow).2
    refine ⟨fun _ => ⟨?_, ?_⟩, fun hfailed => ?_⟩
    · rw [hdb, hafter]
      exact RowAt.refl _ s.db
    · rw [hlog, hrecord]
    · rw [hrollback] at hfailed
      cases hfailed.2

/-! ## All turns -/

theorem farmKey_inj {pid' : ℕ}
    (h : (env.context.farmWhere pid).key = (env.context.farmWhere pid').key) : pid = pid' :=
  congrArg (fun key : FarmKey => key.2.2) h

/-- The rows of the pids are what their turns make of them, and the rest of the
database is as it was. -/
structure Settled (pids : List ℕ) (d d' : Db Farms) : Prop where
  own : ∀ pid ∈ pids, rowOf env pid d' = rowAfter pools env farmState pid farmInfos (rowOf env pid d)
  others : ∀ key, (∀ pid ∈ pids, key ≠ (env.context.farmWhere pid).key) →
    d'.tables.content key = d.tables.content key
  unkeyed : d'.tables.unkeyed = d.tables.unkeyed
  scheduler : d'.scheduler = d.scheduler

variable {pools env farmState farmInfos d pid}

theorem Settled.step {done : List ℕ} {d' d'' : Db Farms}
    (h : Settled pools env farmState farmInfos done d d') (hpid : pid ∉ done)
    (hrow : RowAt (env.context.farmWhere pid).key
      (rowAfter pools env farmState pid farmInfos (rowOf env pid d')) d' d'') :
    Settled pools env farmState farmInfos (done ++ [pid]) d d'' := by
  have hfresh : ∀ pid' ∈ done,
      (env.context.farmWhere pid').key ≠ (env.context.farmWhere pid).key := by
    intro pid' hmem hkey
    exact hpid (farmKey_inj env pid' hkey ▸ hmem)
  have hbefore : rowOf env pid d' = rowOf env pid d :=
    h.others _ fun pid' hmem => (hfresh pid' hmem).symm
  refine ⟨fun pid' hmem => ?_, fun key hkey => ?_, ?_, ?_⟩
  · rcases List.mem_append.mp hmem with hmem | hmem
    · exact (hrow.tables.others _ (hfresh pid' hmem)).trans (h.own pid' hmem)
    · rw [List.mem_singleton.mp hmem, ← hbefore]
      exact hrow.tables.own
  · have hne := hkey pid (List.mem_append_right _ List.mem_cons_self)
    exact (hrow.tables.others key hne).trans
      (h.others key fun pid' hmem => hkey pid' (List.mem_append_left _ hmem))
  · exact hrow.tables.unkeyed.trans h.unkeyed
  · exact hrow.scheduler.trans h.scheduler

theorem wp_turns (hrollback : ∀ pid, (env.faults pid).rollbackTransaction = none) {pids : List ℕ}
    (hpids : pids.Nodup) (s : Session (Db Farms) LoggerData) :
    Eff.wp (Eff.forEach pids (turn pools env farmState farmInfos))
      (fun _ t => Settled pools env farmState farmInfos pids s.db t.db ∧
        t.log.failed = s.log.failed ++
          pids.flatMap fun pid => failure pools env farmState pid farmInfos (rowOf env pid s.db))
      (fun _ _ => False) s := by
  refine Eff.wp_forEach (fun done (t : Session (Db Farms) LoggerData) =>
    Settled pools env farmState farmInfos done s.db t.db ∧
      t.log.failed = s.log.failed ++
        done.flatMap fun pid => failure pools env farmState pid farmInfos (rowOf env pid s.db))
    (fun done pid rest he t ht => ?_) ?_
  · obtain ⟨hsettled, hfailed⟩ := ht
    have hpid : pid ∉ done := by
      rw [he] at hpids
      exact fun hmem => (List.nodup_append.mp hpids).2.2 pid hmem pid List.mem_cons_self rfl
    have hbefore : rowOf env pid t.db = rowOf env pid s.db :=
      hsettled.others _ fun pid' hmem hkey => hpid (farmKey_inj env pid hkey ▸ hmem)
    refine Eff.wp_mono (wp_turn pools env farmState pid farmInfos (hrollback pid) t)
      (fun _ u hu => ?_) (fun _ _ h => h)
    refine ⟨hsettled.step hpid hu.1, ?_⟩
    rw [hu.2, hfailed, hbefore, List.flatMap_append, List.flatMap_singleton, List.append_assoc]
  · refine ⟨⟨fun _ h => (by cases h), fun _ _ => rfl, rfl, rfl⟩, ?_⟩
    rw [List.flatMap_nil, List.append_nil]

/-! ## The turn of a pool alone -/

variable (pools env farmState farmInfos pid) (db : Db Farms)

/-- Where the turn of a pid leads when it is the only one. -/
def alone : Session (Db Farms) LoggerData :=
  (turn pools env farmState farmInfos pid (startSession db)).2

/-- The step of a pid fails: its try block throws. -/
def fails : Bool :=
  match (attempt pools env farmState farmInfos pid (startSession db)).1 with
  | .ok _ => false
  | .error _ => true

variable {pools env farmState farmInfos pid db}

theorem rowOf_alone (hrollback : (env.faults pid).rollbackTransaction = none) :
    rowOf env pid (alone pools env farmState pid farmInfos db).db =
      rowAfter pools env farmState pid farmInfos (rowOf env pid db) :=
  Eff.wp_final (P := fun t : Session (Db Farms) LoggerData =>
      rowOf env pid t.db = rowAfter pools env farmState pid farmInfos (rowOf env pid db))
    (Eff.wp_mono (wp_turn pools env farmState pid farmInfos hrollback (startSession db))
      (fun _ _ ht => ht.1.tables.own) (fun _ _ h => h.elim))

/-- A failing step leaves its row as it was and has one entry on the record, any
other one has none. -/
theorem failure_of_fails :
    (fails pools env farmState pid farmInfos db = true →
      rowAfter pools env farmState pid farmInfos (rowOf env pid db) = rowOf env pid db) ∧
      (failure pools env farmState pid farmInfos (rowOf env pid db)).map Prod.fst =
        if fails pools env farmState pid farmInfos db then [pid] else [] := by
  have hattempt := settles_attempt pools env farmState pid farmInfos (startSession db)
  unfold Settles Eff.wp at hattempt
  unfold fails
  generalize attempt pools env farmState farmInfos pid (startSession db) = outcome at hattempt ⊢
  obtain ⟨result, t⟩ := outcome
  cases result with
  | ok a =>
    obtain ⟨_, draft, hdraft, _⟩ := hattempt
    have hnone : failure pools env farmState pid farmInfos (rowOf env pid db) = [] :=
      (after_of_ok hdraft).2
    exact ⟨fun h => (by cases h), by rw [hnone]; rfl⟩
  | error e =>
    obtain ⟨_, _, hthrow⟩ := hattempt
    have hrecord : failure pools env farmState pid farmInfos (rowOf env pid db) = [(pid, e)] :=
      (after_of_error hthrow).2
    exact ⟨fun _ => (after_of_error hthrow).1, by rw [hrecord]; rfl⟩

/-! ## A run -/

/-- The row of each pid is what its own turn alone makes of it, that of a failing
pid is as it was, and the record has the failing pids in order. -/
structure Isolated (pools : Pools I) (env : Env I) (farmState : FarmState)
    (farmInfos : List (Option I)) (pids : List ℕ) (db : Db Farms)
    (t : Session (Db Farms) LoggerData) : Prop where
  own : ∀ pid ∈ pids, rowOf env pid t.db = rowOf env pid (alone pools env farmState pid farmInfos db).db
  failing : ∀ pid ∈ pids, fails pools env farmState pid farmInfos db = true →
    rowOf env pid t.db = rowOf env pid db
  others : ∀ key, (∀ pid ∈ pids, key ≠ (env.context.farmWhere pid).key) →
    t.db.tables.content key = db.tables.content key
  unkeyed : t.db.tables.unkeyed = db.tables.unkeyed
  failed : t.log.failed.map Prod.fst =
    pids.filter fun pid => fails pools env farmState pid farmInfos db

theorem isolated_of_settled (hrollback : ∀ pid, (env.faults pid).rollbackTransaction = none)
    {pids : List ℕ} {t : Session (Db Farms) LoggerData}
    (h : Settled pools env farmState farmInfos pids db t.db)
    (hfailed : t.log.failed =
      pids.flatMap fun pid => failure pools env farmState pid farmInfos (rowOf env pid db)) :
    Isolated pools env farmState farmInfos pids db t where
  own pid hpid := (h.own pid hpid).trans (rowOf_alone (hrollback pid)).symm
  failing pid hpid hfails := (h.own pid hpid).trans (failure_of_fails.1 hfails)
  others := h.others
  unkeyed := h.unkeyed
  failed := by
    rw [hfailed]
    clear h hfailed
    induction pids with
    | nil => rfl
    | cons pid pids ih =>
      rw [List.flatMap_cons, List.map_append, failure_of_fails.2, ih, List.filter_cons]
      by_cases hfails : fails pools env farmState pid farmInfos db = true <;> simp [hfails]

/-- The turn of a pid has failures of its own only. -/
theorem turn_congr {faults : ℕ → PoolFaults} (h : faults pid = env.faults pid) :
    turn pools { env with faults := faults } farmState farmInfos pid =
      turn pools env farmState farmInfos pid := by
  simp only [turn, attempt, registerAndRefresh, registerFarm, refreshFarm, h]
  rfl

theorem isolated_of_answers (pools : Pools I) (env : Env I) {networkPid : ℕ}
    {getFarmState : Except Thrown FarmState}
    (hnetwork : env.networkPid = .ok networkPid)
    (hinfos : env.getFarmInfos (fillSequenceNumber networkPid 0) = .ok farmInfos)
    (hstate : getFarmState = .ok farmState)
    (hrollback : ∀ pid, (env.faults pid).rollbackTransaction = none) (db : Db Farms) :
    ∃ t, run pools env getFarmState (startSession db) = (.ok (), t) ∧
      Isolated pools env farmState farmInfos (fillSequenceNumber networkPid 0) db t := by
  have hpids : (fillSequenceNumber networkPid 0).Nodup := List.nodup_range'
  have hwp : Eff.wp (run pools env getFarmState)
      (fun _ t => Isolated pools env farmState farmInfos (fillSequenceNumber networkPid 0) db t)
      (fun _ _ => False) (startSession db) := by
    simp only [run, writeLog, Eff.wp_bind, Eff.wp_update, Eff.wp_tryCatch, Eff.wp_throw, hnetwork,
      hinfos, hstate, Eff.wp_await_ok]
    refine Eff.wp_mono (wp_turns hrollback hpids _) (fun _ t ht => ?_) (fun _ _ h => h)
    exact isolated_of_settled hrollback ht.1 ht.2
  unfold Eff.wp at hwp
  generalize run pools env getFarmState (startSession db) = outcome at hwp ⊢
  obtain ⟨result, t⟩ := outcome
  cases result with
  | ok a => exact ⟨t, rfl, hwp⟩
  | error e => exact hwp.elim

/-- **Isolation.** While rollbacks succeed, a run goes through all pools: each
row is what its own pool's turn alone makes of it, and the record has the pids
that failed. No other pid's failures make a difference to a row. -/
theorem run_isolated (pools : Pools I) (env : Env I) {networkPid : ℕ}
    {getFarmState : Except Thrown FarmState}
    (hnetwork : env.networkPid = .ok networkPid)
    (hinfos : env.getFarmInfos (fillSequenceNumber networkPid 0) = .ok farmInfos)
    (hstate : getFarmState = .ok farmState)
    (hrollback : ∀ pid, (env.faults pid).rollbackTransaction = none) (db : Db Farms) :
    (∃ t, run pools env getFarmState (startSession db) = (.ok (), t) ∧
      Isolated pools env farmState farmInfos (fillSequenceNumber networkPid 0) db t) ∧
    ∀ faults : ℕ → PoolFaults, (∀ pid, (faults pid).rollbackTransaction = none) →
      ∀ pid ∈ fillSequenceNumber networkPid 0, faults pid = env.faults pid →
        rowOf env pid (run pools { env with faults := faults } getFarmState (startSession db)).2.db =
          rowOf env pid (run pools env getFarmState (startSession db)).2.db := by
  obtain ⟨t, hrun, hisolated⟩ := isolated_of_answers pools env hnetwork hinfos hstate hrollback db
  refine ⟨⟨t, hrun, hisolated⟩, fun faults hfaults pid hpid hsame => ?_⟩
  obtain ⟨t', hrun', hisolated'⟩ := isolated_of_answers pools { env with faults := faults }
    hnetwork hinfos hstate hfaults db
  have halone : alone pools { env with faults := faults } farmState pid farmInfos db =
      alone pools env farmState pid farmInfos db := by
    rw [alone, alone, turn_congr hsame]
  rw [hrun, hrun', hisolated.own pid hpid, ← halone]
  exact hisolated'.own pid hpid

/-! ### Three pools, one of which fails -/

def exampleToken : FarmToken := ⟨1, "CAKE", "0xca1e", 18, 20, true, 56, true⟩

def exampleLpToken : FarmToken := ⟨2, "CAKE-BNB", "0x1b", 18, 100, true, 56, true⟩

def exampleContext : Context := ⟨1, 56, 3, "PancakeSwap Farm", "0xfa", exampleToken⟩

/-- The commit of the second pool is lost; the info of the third is unreadable. -/
def exampleEnv {I : Type} (info : I) : Env I where
  context := exampleContext
  tokens := [exampleToken, exampleLpToken]
  networkPid := .ok 3
  getFarmInfos _ := .ok [some info, some info, none]
  getSafeERC20BalanceOf _ _ _ := .ok (5 * 10 ^ 18)
  faults pid :=
    if pid = 1 then { PoolFaults.none with commitTransaction := some (rawError "ECONNRESET") }
    else .none

def exampleRewards : Staked.Rewards := ⟨.ok 40, .ok (.finite (10 ^ 18))⟩

/-- The whole year is in one phase. -/
def examplePhases : Mdex.Rewards :=
  ⟨.ok 100, .ok 40, .ok (10 ^ 8), .ok 7, fun _ => .ok 0, fun _ => .ok (10 ^ 18)⟩

def exampleDb : Db Farms := ⟨none, Table.empty⟩

theorem exampleEnv_rollback {I : Type} (info : I) (pid : ℕ) :
    ((exampleEnv info).faults pid).rollbackTransaction = none := by
  simp only [exampleEnv]
  split <;> rfl

/-- PancakeSwap passes over the third pool, ApeSwap fails at it. -/
theorem pancakeSwap_apeSwap_mdex_isolated :
    (∃ farmState t,
      PancakeSwapBSCFarmService.run (exampleEnv ⟨"0x1b", 10⟩) exampleRewards
        (startSession exampleDb) = (.ok (), t) ∧
      Isolated Staked.pools (exampleEnv ⟨"0x1b", 10⟩) farmState
        [some ⟨"0x1b", 10⟩, some ⟨"0x1b", 10⟩, none] [0, 1, 2] exampleDb t ∧
      t.log.failed.map Prod.fst = [1]) ∧
    (∃ farmState t,
      ApeSwapBSCFarmService.run (exampleEnv ⟨"0x1b", 10⟩) exampleRewards
        (startSession exampleDb) = (.ok (), t) ∧
      Isolated ApeSwapBSCFarmService.pools (exampleEnv ⟨"0x1b", 10⟩) farmState
        [some ⟨"0x1b", 10⟩, some ⟨"0x1b", 10⟩, none] [0, 1, 2] exampleDb t ∧
      t.log.failed.map Prod.fst = [1, 2]) ∧
    ∃ farmState t, MdexJobBSCFarmService.run (exampleEnv ⟨⟨"0x1b", 10⟩, 7⟩) examplePhases
        (startSession exampleDb) = (.ok (), t) ∧
      Isolated Mdex.pools (exampleEnv ⟨⟨"0x1b", 10⟩, 7⟩) farmState
        [some ⟨⟨"0x1b", 10⟩, 7⟩, some ⟨⟨"0x1b", 10⟩, 7⟩, none] [0, 1, 2] exampleDb t := by
  have hstate : Staked.getFarmState exampleContext exampleRewards = _ := rfl
  obtain ⟨⟨t, hpancake, hisolated⟩, _⟩ := run_isolated Staked.pools (exampleEnv ⟨"0x1b", 10⟩) rfl
    rfl hstate (exampleEnv_rollback _) exampleDb
  obtain ⟨⟨u, hape, hisolated'⟩, _⟩ := run_isolated ApeSwapBSCFarmService.pools
    (exampleEnv ⟨"0x1b", 10⟩) rfl rfl hstate (exampleEnv_rollback _) exampleDb
  have hmdex := run_isolated Mdex.pools (exampleEnv ⟨⟨"0x1b", 10⟩, 7⟩) rfl rfl
    (show Mdex.getFarmState exampleContext examplePhases = _ from rfl) (exampleEnv_rollback _)
    exampleDb
  refine ⟨⟨_, t, hpancake, hisolated, ?_⟩, ⟨_, u, hape, hisolated', ?_⟩, _, hmdex.1⟩
  · exact hisolated.failed.trans (by decide +kernel)
  · exact hisolated'.failed.trans (by decide +kernel)

end BlockchainTask.SchedulerJob.FarmIsolation

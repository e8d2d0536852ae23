import BlockchainTask.Library.Runs
import BlockchainTask.SchedulerJob.FarmStatus

/-! # The status of the farms over a history of runs

After a run, the farm of a pool should be active exactly while the pool has an
allocation. A refresh passes over a farm that is not active, so a farm that was
disabled once is never active again: the status is right after a run exactly if
the run starts with an active row for each pool that has an allocation. -/
namespace BlockchainTask.SchedulerJob.FarmHistory
open BlockchainTask.Common.Exception BlockchainTask.Helper BlockchainTask.Helper.Decimals
open BlockchainTask.Library.Decimal BlockchainTask.Library.Effect BlockchainTask.Library.Transaction
open BlockchainTask.Library.Store BlockchainTask.Library.Runs
open BlockchainTask.Repository.Farm BlockchainTask.SchedulerJob.Base
open BlockchainTask.SchedulerJob.FarmTemplate BlockchainTask.SchedulerJob.FarmStatus

theorem byPid_searchAt (context : Context) : ByPid (FarmLoop.searchAt context) := fun _ => rfl

theorem byPid_searchByName (context : Context) : ByPid (FarmLoop.searchByName context) :=
  fun _ => rfl

theorem isZero_nat (n : ℕ) : isZero (.finite n) = decide (n = 0) := by
  simp only [isZero_finite, Nat.cast_eq_zero]

/-- What a run sees of a pool whose info is readable. AutoFarm passes over a pool
whose strat is no contract. -/
structure PoolView where
  allocPoint : ℕ
  isPassedOver : Bool

def PoolView.change (pool : PoolView) : Change :=
  if pool.isPassedOver then .kept
  else if pool.allocPoint = 0 then .disabled
  else .refreshed

theorem change_kept (allocPoint : ℕ) : PoolView.change ⟨allocPoint, true⟩ = .kept := rfl

theorem change_disabled : PoolView.change ⟨0, false⟩ = .disabled := rfl

theorem change_refreshed {allocPoint : ℕ} (h : allocPoint ≠ 0) :
    PoolView.change ⟨allocPoint, false⟩ = .refreshed := by
  simp [PoolView.change, h]

/-- What the turn of a pid does, by its entry in the list of infos. -/
def changeAt {I : Type} (view : ℕ → I → PoolView) (farmInfos : List (Option I)) (pid : ℕ) :
    Change :=
  match farmInfos[pid]? with
  | some (some info) => (view pid info).change
  | _ => .kept

/-- The entry of a pid in the answer of a run. -/
def readable {I : Type} (networkPid : Except Thrown ℕ)
    (getFarmInfos : List ℕ → Except Thrown (List (Option I))) (view : ℕ → I → PoolView) (pid : ℕ) :
    Option PoolView :=
  match networkPid with
  | .error _ => none
  | .ok total =>
    match getFarmInfos (fillSequenceNumber total 0) with
    | .error _ => none
    | .ok farmInfos => if pid < total then (farmInfos[pid]?.join).map (view pid) else none

/-! ## The turn of each job -/

variable {d : Db Farms} {s : Session (Db Farms) LoggerData}

theorem refreshes_registerFarm (faults : PoolFaults) (tokens : List FarmToken) (context : Context)
    (pid : ℕ) (lpToken data : String) :
    Refreshes pid d (FarmLoop.registerFarm faults tokens context pid lpToken data) := by
  refine Refreshes.bind (Refreshes.mayFail _) fun _ => ?_
  cases findToken tokens context.chainId lpToken with
  | none => exact Refreshes.pure false
  | some stakeToken =>
    exact Refreshes.bind (refreshes_create _ rfl rfl) fun _ => Refreshes.pure true

/-- A farm is registered unless it was found, and refreshed unless it was left
out. -/
theorem refreshes_registerAndRefresh {pid : ℕ} {register : JobEff Farms Bool}
    {refresh : JobEff Farms Unit} (farm : Option (Stored FarmRow))
    (hregister : Refreshes pid d register) (hrefresh : Refreshes pid d refresh) :
    Refreshes pid d (do
      let initialized ← (if farm.isNone then register else pure true)
      .when initialized refresh) :=
  Refreshes.bind (Refreshes.ite hregister (Refreshes.pure true)) fun _ => Refreshes.when hrefresh

/-- A farm that is found and active goes on to the rest of the body. -/
theorem refreshes_ifActive {pid : ℕ} (fault : Option Thrown) (find : Farms → Option (Stored FarmRow))
    (hfind : ∀ t s, find t = some s → s ∈ t.rows) {rest : Stored FarmRow → JobEff Farms Unit}
    (hrest : ∀ farm, Updates d farm.id (rest farm)) :
    Refreshes pid d (do
      match ← managerRead fault fun db : Db Farms => find db.tables with
      | none => Eff.throw typeError
      | some farm => if !farm.row.status then pure () else rest farm) := by
  refine refreshes_found fault find hfind (Refreshes.throw _) (fun farm hidle => ?_)
    (fun farm hactive => ?_)
  · simp only [hidle, Bool.not_false, if_true]
    exact Refreshes.pure ()
  · simp only [hactive, Bool.not_true, Bool.false_eq_true, if_false]
    exact hrest farm

/-- A farm without a stake token ends the body. -/
theorem updates_stakeToken {id : ℕ} (token : Option FarmToken) {body : FarmToken → JobEff Farms Unit}
    (hbody : ∀ token, Updates d id (body token)) :
    Updates d id (match token with
      | none => Eff.throw typeError
      | some token => body token) := by
  cases token with
  | none => exact updates_throw id _
  | some token => exact hbody token

section
variable {I : Type} (pools : Pools I) (env : Env I) (farmState : FarmState) (pid : ℕ)

theorem template_refreshFarm (info : I) :
    Refreshes pid d (refreshFarm pools env farmState pid info) := by
  refine refreshes_ifActive (env.faults pid).findFarmAgain (findOne (env.context.farmWhere pid))
    (fun t s h => (Table.lookup_some (findOne_some h)).1) fun farm => ?_
  refine updates_stakeToken _ fun targetStakeToken => updates_await _ fun amount => ?_
  exact updates_updateFarm _ farm.id (activates_refreshed _ _ _)

theorem template_registerFarm (lpToken : String) :
    Refreshes pid d (registerFarm env pid lpToken) := by
  refine Refreshes.bind (Refreshes.mayFail _) fun _ => ?_
  cases findToken env.tokens env.context.chainId lpToken with
  | none => exact Refreshes.pure false
  | some stakeToken =>
    exact Refreshes.bind (refreshes_create _ rfl rfl) fun _ => Refreshes.pure true

def templateView (info : I) : PoolView := ⟨(pools.pool info).allocPoint, false⟩

theorem template_attempt (farmInfos : List (Option I)) :
    Changes (FarmLoop.searchAt env.context) pid
      (changeAt (fun _ => templateView pools) farmInfos pid) s
      (attempt pools env farmState farmInfos pid) := by
  refine changes_search (findOne (env.context.farmWhere pid)) ?_
  have hown := byPid_searchAt env.context
  have hfarm := (findOne_eq_findFirst (env.context.farmWhere pid) s.db.tables).symm
  unfold changeAt
  rcases farmInfos[pid]? with _ | _ | info
  · exact changes_throw _ _ _ s _
  · cases pools.unreadable with
    | null => exact changes_kept _ pid s
    | emptyArray => exact changes_throw _ _ _ s _
  · by_cases hzero : (pools.pool info).allocPoint = 0
    · simp only [templateView, isZero_nat, hzero, decide_true, if_true, change_disabled]
      exact changes_disable hown _ hfarm
    · simp only [templateView, isZero_nat, hzero, decide_false, Bool.false_eq_true, if_false,
        change_refreshed hzero]
      exact changes_transaction hown (refreshes_registerAndRefresh _
        (template_registerFarm env pid _) (template_refreshFarm pools env farmState pid info))

end

section
variable (env : AutoFarm.AutoEnv) (farmState : FarmState) (pid : ℕ)

theorem autoFarm_refreshFarm (info : AutoFarm.AutoPoolInfo) :
    Refreshes pid d (AutoFarm.refreshFarm env farmState pid info) := by
  refine refreshes_ifActive (env.faults pid).findFarmAgain
    (findFirst (FarmLoop.searchByName env.context pid)) (fun t s h => Table.mem_of_first h)
    fun farm => ?_
  refine updates_await _ fun shares => updates_stakeToken _ fun targetStakeToken => ?_
  exact updates_updateFarm _ farm.id ((activates_refreshed _ _ _).withData _)

/-- The strat of a pool is no contract. -/
def isPassedOver (info : AutoFarm.AutoPoolInfo) : Bool :=
  match env.getSafeCheckCA pid info.strat with
  | .ok isValidStrat => !isValidStrat
  | .error _ => false

def autoFarmView (pid : ℕ) (info : AutoFarm.AutoPoolInfo) : PoolView :=
  ⟨info.allocPoint, isPassedOver env pid info⟩

theorem autoFarm_attempt (farmInfos : List (Option AutoFarm.AutoPoolInfo)) :
    Changes (FarmLoop.searchByName env.context) pid (changeAt (autoFarmView env) farmInfos pid) s
      (AutoFarm.attempt env farmState farmInfos pid) := by
  refine changes_search (findFirst (FarmLoop.searchByName env.context pid)) ?_
  have hown := byPid_searchByName env.context
  unfold changeAt
  rcases farmInfos[pid]? with _ | _ | info
  · exact changes_throw _ _ _ s _
  · exact changes_kept _ pid s
  · refine changes_await fun isValidStrat hvalid => ?_
    have hpassed : isPassedOver env pid info = !isValidStrat := by rw [isPassedOver, hvalid]
    cases isValidStrat with
    | false =>
      simp only [autoFarmView, hpassed, Bool.not_false, if_true, change_kept]
      exact changes_kept _ pid s
    | true =>
      by_cases hzero : info.allocPoint = 0
      · simp only [autoFarmView, hpassed, isZero_nat, hzero, Bool.not_true, Bool.false_eq_true,
          if_false, decide_true, if_true, change_disabled]
        exact changes_disable hown _ rfl
      · simp only [autoFarmView, hpassed, isZero_nat, hzero, Bool.not_true, Bool.false_eq_true,
          if_false, decide_false, change_refreshed hzero]
        exact changes_transaction hown (refreshes_registerAndRefresh _
          (refreshes_registerFarm _ _ _ pid _ _) (autoFarm_refreshFarm env farmState pid info))

end

section
variable (env : BakeryFarm.BakeryEnv) (farmState : FarmState) (pid : ℕ)

theorem bakery_refreshFarm (info : BakeryFarm.BakeryPoolInfo) :
    Refreshes pid d (BakeryFarm.refreshFarm env farmState pid info) := by
  refine refreshes_ifActive (env.faults pid).findFarmAgain _ (fun t s h => Table.mem_of_first h)
    fun farm => ?_
  refine updates_stakeToken _ fun targetStakeToken => updates_await _ fun amount => ?_
  exact updates_updateFarm _ farm.id (activates_refreshed _ _ _)

/-- A pool that does not exist has no allocation. -/
def bakeryView (info : BakeryFarm.BakeryPoolInfo) : PoolView :=
  ⟨if info.exists_ then info.allocPoint else 0, false⟩

theorem bakery_attempt (farmInfos : List (Option BakeryFarm.BakeryPoolInfo)) :
    Changes (FarmLoop.searchAt env.context) pid (changeAt (fun _ => bakeryView) farmInfos pid) s
      (BakeryFarm.attempt env farmState farmInfos pid) := by
  refine changes_search (findFirst (FarmLoop.searchAt env.context pid)) ?_
  have hown := byPid_searchAt env.context
  unfold changeAt
  rcases farmInfos[pid]? with _ | _ | info
  · exact changes_throw _ _ _ s _
  · exact changes_kept _ pid s
  · cases hexists : info.exists_ with
    | false =>
      simp only [bakeryView, hexists, Bool.false_eq_true, if_false, Bool.not_false, Bool.or_true,
        if_true, change_disabled]
      exact changes_disable hown _ rfl
    | true =>
      by_cases hzero : info.allocPoint = 0
      · simp only [bakeryView, isZero_nat, hexists, hzero, decide_true, Bool.true_or, if_true,
          change_disabled]
        exact changes_disable hown _ rfl
      · simp only [bakeryView, isZero_nat, hexists, hzero, decide_false, Bool.not_true, Bool.or_self,
          Bool.false_eq_true, if_false, if_true, change_refreshed hzero]
        exact changes_transaction hown (refreshes_registerAndRefresh _
          (refreshes_registerFarm _ _ _ pid _ _) (bakery_refreshFarm env farmState pid info))

end

section
variable (service : RewarderFarm.RewardService) (env : RewarderFarm.RewarderEnv)
  (state : RewarderFarm.RewardState) (pid : ℕ)

theorem rewarder_registerFarm (info : RewarderFarm.RewarderPoolInfo) (token : Option FarmToken) :
    Refreshes pid d (RewarderFarm.registerFarm env pid info token) := by
  refine Refreshes.bind (Refreshes.mayFail _) fun _ => ?_
  cases findToken env.tokens env.context.chainId info.lpToken with
  | none => exact Refreshes.pure false
  | some stakeToken =>
    cases token with
    | none => exact Refreshes.pure false
    | some token => exact Refreshes.bind (refreshes_create _ rfl rfl) fun _ => Refreshes.pure true

theorem rewarder_refreshFarm (info : RewarderFarm.RewarderPoolInfo) (token : Option FarmToken) :
    Refreshes pid d (RewarderFarm.refreshFarm env state pid info token) := by
  refine Refreshes.bind (Refreshes.await _) fun farmState => ?_
  refine refreshes_ifActive (env.faults pid).findFarmAgain
    (findFirst (FarmLoop.searchAt env.context pid)) (fun t s h => Table.mem_of_first h) fun farm => ?_
  refine updates_stakeToken _ fun targetStakeToken => updates_await _ fun amount => ?_
  exact updates_updateFarm _ farm.id ((activates_refreshed _ _ _).withData _)

def rewarderView (info : RewarderFarm.RewarderPoolInfo) : PoolView := ⟨info.allocPoint, false⟩

theorem wp_findRewarderRewardToken (info : RewarderFarm.RewarderPoolInfo) :
    Eff.wp (RewarderFarm.findRewarderRewardToken service env pid info) (fun _ u => u = s)
      (fun _ _ => True) s := by
  simp only [RewarderFarm.findRewarderRewardToken, Eff.wp_bind, Eff.wp_await, Eff.wp_ite,
    Eff.wp_mayFail, Eff.wp_pure, implies_true, and_self]

theorem rewarder_attempt (farmInfos : List (Option RewarderFarm.RewarderPoolInfo)) :
    Changes (FarmLoop.searchByName env.context) pid
      (changeAt (fun _ => rewarderView) farmInfos pid) s
      (RewarderFarm.attempt service env state farmInfos pid) := by
  refine changes_search (findFirst (FarmLoop.searchByName env.context pid)) ?_
  have hown := byPid_searchByName env.context
  unfold changeAt
  rcases farmInfos[pid]? with _ | _ | info
  · exact changes_throw _ _ _ s _
  · exact changes_kept _ pid s
  · by_cases hzero : info.allocPoint = 0
    · simp only [rewarderView, isZero_nat, hzero, decide_true, if_true, change_disabled]
      exact changes_disable hown _ rfl
    · simp only [rewarderView, isZero_nat, hzero, decide_false, Bool.false_eq_true, if_false,
        change_refreshed hzero]
      refine changes_bind (wp_findRewarderRewardToken service env pid info) fun token => ?_
      exact changes_transaction hown (refreshes_registerAndRefresh _
        (rewarder_registerFarm env pid info token) (rewarder_refreshFarm env state pid info token))

end

/-! ## The runs of all jobs -/

/-- A run of one of the jobs. -/
inductive FarmRun where
  | pancakeSwapBSC (env : Env PoolInfo) (rewards : Staked.Rewards)
  | apeSwapBSC (env : Env PoolInfo) (rewards : Staked.Rewards)
  | biSwapBSC (env : Env PoolInfo) (rewards : Staked.Rewards)
  | waultSwapBSC (env : Env PoolInfo) (rewards : Staked.Rewards)
  | mdexBSC (env : Env Mdex.MdexPoolInfo) (rewards : Mdex.Rewards)
  | mdexHECO (env : Env Mdex.MdexPoolInfo) (rewards : Mdex.Rewards)
  | autoFarmBSC (env : AutoFarm.AutoEnv) (rewards : Staked.Rewards)
  | bakerySwapBSC (env : BakeryFarm.BakeryEnv) (rewards : Staked.Rewards)
  | sushiSwapMATIC (env : RewarderFarm.RewarderEnv)
  | apeSwapMATIC (env : RewarderFarm.RewarderEnv) (bananaPerSecond : Except Thrown ℕ)
      (rewardToken : ℕ → String → Except Thrown String)

namespace FarmRun

def run : FarmRun → JobEff Farms Unit
  | pancakeSwapBSC env rewards => PancakeSwapBSCFarmService.run env rewards
  | apeSwapBSC env rewards => ApeSwapBSCFarmService.run env rewards
  | biSwapBSC env rewards => BiSwapJobBSCFarmService.run env rewards
  | waultSwapBSC env rewards => WaultSwapBSCFarmService.run env rewards
  | mdexBSC env rewards => MdexJobBSCFarmService.run env rewards
  | mdexHECO env rewards => MdexJobHECOFarmService.run env rewards
  | autoFarmBSC env rewards => AutoFarm.AutoFarmBSCFarmService.run env rewards
  | bakerySwapBSC env rewards => BakeryFarm.BakerySwapBSCFarmService.run env rewards
  | sushiSwapMATIC env => RewarderFarm.SushiSwapJobMATICFarmService.run env
  | apeSwapMATIC env bananaPerSecond rewardToken =>
    RewarderFarm.ApeSwapMATICFarmJobService.run env bananaPerSecond rewardToken

/-- How the job finds the row of a pid. -/
def search : FarmRun → ℕ → FarmSearch
  | pancakeSwapBSC env _ | apeSwapBSC env _ | biSwapBSC env _ | waultSwapBSC env _ =>
    FarmLoop.searchAt env.context
  | mdexBSC env _ | mdexHECO env _ => FarmLoop.searchAt env.context
  | autoFarmBSC env _ => FarmLoop.searchByName env.context
  | bakerySwapBSC env _ => FarmLoop.searchAt env.context
  | sushiSwapMATIC env | apeSwapMATIC env _ _ => FarmLoop.searchByName env.context

/-- The pool of a pid, if the run gets to the pid and its info is readable. -/
def pool : FarmRun → ℕ → Option PoolView
  | pancakeSwapBSC env _ | biSwapBSC env _ | waultSwapBSC env _ =>
    readable env.networkPid env.getFarmInfos fun _ => templateView Staked.pools
  | apeSwapBSC env _ =>
    readable env.networkPid env.getFarmInfos fun _ => templateView ApeSwapBSCFarmService.pools
  | mdexBSC env _ | mdexHECO env _ =>
    readable env.networkPid env.getFarmInfos fun _ => templateView Mdex.pools
  | autoFarmBSC env _ => readable env.networkPid env.getFarmInfos (autoFarmView env)
  | bakerySwapBSC env _ => readable env.networkPid env.getFarmInfos fun _ => bakeryView
  | sushiSwapMATIC env | apeSwapMATIC env _ _ =>
    readable env.networkPid env.getFarmInfos fun _ => rewarderView

end FarmRun

def step (r : FarmRun) (db : Db Farms) : Db Farms := afterRun r.run db

/-- The run returns, and has put nothing on its record. -/
def FailureFree (r : FarmRun) (db : Db Farms) : Prop :=
  (r.run (startSession db)).1 = .ok () ∧ (r.run (startSession db)).2.log.failed = []

/-- What the row of each pid goes through. -/
structure RunMoves (r : FarmRun) (db : Db Farms) : Prop where
  pools : ∀ pid pool, r.pool pid = some pool →
    pool.change.Leads (statusAt (r.search pid) db.tables) (statusAt (r.search pid) (step r db).tables)
  others : ∀ pid, r.pool pid = none →
    statusAt (r.search pid) (step r db).tables = statusAt (r.search pid) db.tables

section
variable {I S : Type} {networkPid : Except Thrown ℕ}
  {getFarmInfos : List ℕ → Except Thrown (List (Option I))} {getFarmState : Except Thrown S}
  {turns : List (Option I) → S → ℕ → JobEff Farms Unit} {view : ℕ → I → PoolView}
  {r : FarmRun} {db : Db Farms}

/-- From the turns of a job to its runs. -/
theorem runMoves_of_turns (turns : List (Option I) → S → ℕ → JobEff Farms Unit)
    (hturns : ∀ farmInfos farmState pid s, Eff.wp (turns farmInfos farmState pid)
      (fun _ u => u.log.failed = [] → s.log.failed = [] ∧ TurnChanges r.search pid
        (changeAt view farmInfos pid) s.db.tables u.db.tables) (fun _ _ => True) s)
    (hrun : r.run = FarmLoop.run networkPid getFarmInfos getFarmState turns)
    (hpool : r.pool = readable networkPid getFarmInfos view) (h : FailureFree r db) :
    RunMoves r db := by
  obtain ⟨hok, hnone⟩ := h
  have hsettled : FarmLoop.run networkPid getFarmInfos getFarmState turns (startSession db) =
      (.ok (), (r.run (startSession db)).2) := by
    rw [← hrun]
    exact Prod.ext hok rfl
  obtain ⟨total, farmInfos, htotal, hinfos, hchanges⟩ := run_changes hturns hsettled hnone
  have hreadable : ∀ pid, r.pool pid =
      if pid < total then (farmInfos[pid]?.join).map (view pid) else none := by
    intro pid
    simp only [hpool, readable, htotal, hinfos]
  have hmem : ∀ pid, pid ∈ fillSequenceNumber total 0 ↔ pid < total := by
    intro pid
    rw [← Nat.sub_zero total, mem_fillSequenceNumber]
    omega
  refine ⟨fun pid pool hp => ?_, fun pid hp => ?_⟩
  · rw [hreadable] at hp
    split at hp
    · rename_i hlt
      have hdone := hchanges.done pid ((hmem pid).mpr hlt)
      unfold changeAt at hdone
      rcases hentry : farmInfos[pid]? with _ | _ | info
      · simp [hentry] at hp
      · simp [hentry] at hp
      · rw [hentry] at hp hdone
        cases hp
        exact hdone
    · cases hp
  · rw [hreadable] at hp
    by_cases hlt : pid < total
    · have hdone := hchanges.done pid ((hmem pid).mpr hlt)
      rw [if_pos hlt] at hp
      unfold changeAt at hdone
      rcases hentry : farmInfos[pid]? with _ | _ | info
      · rw [hentry] at hdone
        exact hdone
      · rw [hentry] at hdone
        exact hdone
      · rw [hentry] at hp
        cases hp
    · exact hchanges.others pid fun hin => hlt ((hmem pid).mp hin)

end

theorem runMoves {r : FarmRun} {db : Db Farms} (h : FailureFree r db) : RunMoves r db := by
  cases r with
  | pancakeSwapBSC env rewards | biSwapBSC env rewards | waultSwapBSC env rewards =>
    exact runMoves_of_turns (fun farmInfos farmState =>
      turn Staked.pools env farmState farmInfos) (fun farmInfos farmState pid s =>
        wp_turn _ (template_attempt Staked.pools env farmState pid farmInfos)) rfl rfl h
  | apeSwapBSC env rewards =>
    exact runMoves_of_turns (fun farmInfos farmState =>
      turn ApeSwapBSCFarmService.pools env farmState farmInfos) (fun farmInfos farmState pid s =>
        wp_turn _ (template_attempt ApeSwapBSCFarmService.pools env farmState pid farmInfos))
      rfl rfl h
  | mdexBSC env rewards | mdexHECO env rewards =>
    exact runMoves_of_turns (fun farmInfos farmState =>
      turn Mdex.pools env farmState farmInfos) (fun farmInfos farmState pid s =>
        wp_turn _ (template_attempt Mdex.pools env farmState pid farmInfos)) rfl rfl h
  | autoFarmBSC env rewards =>
    exact runMoves_of_turns _ (fun farmInfos farmState pid s =>
      wp_turn _ (autoFarm_attempt env farmState pid farmInfos)) rfl rfl h
  | bakerySwapBSC env rewards =>
    exact runMoves_of_turns _ (fun farmInfos farmState pid s =>
      wp_turn _ (bakery_attempt env farmState pid farmInfos)) rfl rfl h
  | sushiSwapMATIC env =>
    exact runMoves_of_turns _ (fun farmInfos state pid s =>
      wp_turn _ (rewarder_attempt _ env state pid farmInfos)) rfl rfl h
  | apeSwapMATIC env bananaPerSecond rewardToken =>
    exact runMoves_of_turns _ (fun farmInfos state pid s =>
      wp_turn _ (rewarder_attempt _ env state pid farmInfos)) rfl rfl h

/-! ## Histories -/

/-- Without an active row to refresh, no history of allocations brings a farm
back. -/
theorem disabled_stays {history : List FarmRun} {db : Db Farms} {w : FarmSearch}
    (hfree : ∀ p ∈ starts step history db, FailureFree p.1 p.2)
    (hsearch : ∀ r ∈ history, r.search w.pid = w)
    (h : statusAt w db.tables = some false) :
    statusAt w (runAll step history db).tables = some false := by
  refine runAll_invariant (fun d : Db Farms => statusAt w d.tables = some false) (fun r d hr hd => ?_) h
  have hmoves := runMoves (hfree (r, d) hr)
  have hw : r.search w.pid = w := hsearch r (env_mem_of_starts hr)
  cases hpool : r.pool w.pid with
  | none =>
    have hkept := hmoves.others w.pid hpool
    rw [hw] at hkept
    exact hkept.trans hd
  | some pool =>
    have hleads := hmoves.pools w.pid pool hpool
    rw [hw, hd] at hleads
    cases hchange : pool.change with
    | kept =>
      rw [hchange] at hleads
      exact hleads
    | disabled =>
      rw [hchange] at hleads
      exact hleads
    | refreshed =>
      rw [hchange] at hleads
      rcases hleads with hsame | ⟨hnone, _⟩
      · exact hsame
      · cases hnone

/-- The row of a refresh. -/
def IsRefreshOf (row row' : FarmRow) : Prop :=
  ∃ amount value apr data,
    row' = { (FarmSet.refreshed amount value apr).apply row with data := data }

/-- After the run, the row of each readable pool is active exactly if the pool has
an allocation, and one that was disabled before is refreshed then. -/
structure Tracks (r : FarmRun) (db : Db Farms) : Prop where
  status : ∀ pid pool, r.pool pid = some pool → ∀ status,
    statusAt (r.search pid) (step r db).tables = some status →
      (status = true ↔ pool.allocPoint ≠ 0)
  returned : ∀ pid pool, r.pool pid = some pool → ∀ farm,
    findFirst (r.search pid) db.tables = some farm → farm.row.status = false →
      pool.allocPoint ≠ 0 → ∃ farm', findFirst (r.search pid) (step r db).tables = some farm' ∧
        farm'.row.status = true ∧ IsRefreshOf farm.row farm'.row

/-- What the run starts with: no disabled row where the pool has an allocation, and
no active one where it has none and its turn is passed over. -/
structure PoolView.Starts (pool : PoolView) (before : Option Bool) : Prop where
  active : pool.allocPoint ≠ 0 → before ≠ some false
  passedOver : pool.isPassedOver = true → pool.allocPoint = 0 → before ≠ some true

def StartsActive (r : FarmRun) (db : Db Farms) : Prop :=
  ∀ pid pool, r.pool pid = some pool → pool.Starts (statusAt (r.search pid) db.tables)

/-- One pool, by what its turn does. -/
theorem status_iff_starts {pool : PoolView} {before after : Option Bool}
    (h : pool.change.Leads before after) :
    (∀ status, after = some status → (status = true ↔ pool.allocPoint ≠ 0)) ↔
      pool.Starts before := by
  obtain ⟨allocPoint, isPassedOver⟩ := pool
  cases isPassedOver with
  | true =>
    have hsame : after = before := h
    rw [hsame]
    constructor
    · intro hstatus
      refine ⟨fun halloc he => ?_, fun _ hzero he => ?_⟩
      · exact absurd ((hstatus false he).mpr halloc) Bool.false_ne_true
      · exact (hstatus true he).mp rfl hzero
    · intro hstarts status he
      cases status with
      | false =>
        refine ⟨fun hfalse => absurd hfalse Bool.false_ne_true, fun halloc => ?_⟩
        exact absurd he (hstarts.active halloc)
      | true =>
        refine ⟨fun _ hzero => ?_, fun _ => rfl⟩
        exact hstarts.passedOver rfl hzero he
  | false =>
    by_cases hzero : allocPoint = 0
    · rw [hzero, change_disabled] at h
      have hcleared : after = before.map fun _ => false := h
      have hstatus : ∀ status, after = some status → (status = true ↔ allocPoint ≠ 0) := by
        intro status he
        rw [hcleared] at he
        obtain ⟨_, _, hfalse⟩ := Option.map_eq_some_iff.mp he
        simp [← hfalse, hzero]
      exact ⟨fun _ => ⟨fun halloc => absurd hzero halloc, fun hnot => (by cases hnot)⟩,
        fun _ => hstatus⟩
    · rw [change_refreshed hzero] at h
      constructor
      · intro hstatus
        refine ⟨fun _ he => ?_, fun hnot => (by cases hnot)⟩
        rcases h with hsame | ⟨hnone, _⟩
        · exact absurd ((hstatus false (hsame.trans he)).mpr hzero) Bool.false_ne_true
        · rw [hnone] at he
          cases he
      · intro hstarts status he
        refine ⟨fun _ => hzero, fun _ => ?_⟩
        rcases h with hsame | ⟨_, hactive⟩
        · cases status with
          | false => exact absurd (hsame.symm.trans he) (hstarts.active hzero)
          | true => rfl
        · rw [hactive] at he
          exact (Option.some.inj he).symm

theorem tracks_iff {r : FarmRun} {db : Db Farms} (h : FailureFree r db) :
    Tracks r db ↔ StartsActive r db := by
  have hmoves := runMoves h
  constructor
  · intro htracks pid pool hpool
    exact (status_iff_starts (hmoves.pools pid pool hpool)).mp (htracks.status pid pool hpool)
  · intro hstarts
    refine ⟨fun pid pool hpool => ?_, fun pid pool hpool farm hfarm hidle halloc => ?_⟩
    · exact (status_iff_starts (hmoves.pools pid pool hpool)).mpr (hstarts pid pool hpool)
    · -- there is no such row
      have hnot := (hstarts pid pool hpool).active halloc
      rw [statusAt_of_found hfarm, hidle] at hnot
      exact absurd rfl hnot

/-- **Status.** The status of the farms follows the allocations in every run of a
history exactly if every run starts with active rows where it needs them. -/
theorem status_tracks_iff (history : List FarmRun) (db : Db Farms)
    (h : ∀ p ∈ starts step history db, FailureFree p.1 p.2) :
    (∀ p ∈ starts step history db, Tracks p.1 p.2) ↔
      ∀ p ∈ starts step history db, StartsActive p.1 p.2 := by
  constructor
  · intro htracks p hp
    exact (tracks_iff (h p hp)).mp (htracks p hp)
  · intro hstarts p hp
    exact (tracks_iff (h p hp)).mpr (hstarts p hp)

/-! ### A pool whose allocation returns -/

/-- One pool of PancakeSwap, with the given allocation. -/
def poolRun (allocPoint : ℕ) : FarmRun :=
  .pancakeSwapBSC
    { context := ⟨1, 56, 3, "PancakeSwap Farm", "0xfa", ⟨1, "CAKE", "0xca1e", 18, 20, true, 56, true⟩⟩
      tokens := [⟨2, "CAKE-BNB", "0x1b", 18, 100, true, 56, true⟩]
      networkPid := .ok 1
      getFarmInfos _ := .ok [some ⟨"0x1b", allocPoint⟩]
      getSafeERC20BalanceOf _ _ _ := .ok (5 * 10 ^ 18)
      faults _ := .none }
    ⟨.ok 40, .ok (.finite (10 ^ 18))⟩

def emptyDb : Db Farms := ⟨none, Table.empty⟩

theorem closed_pool_tracks :
    (∀ p ∈ starts step [poolRun 10, poolRun 0] emptyDb, Tracks p.1 p.2) ↔
      ∀ p ∈ starts step [poolRun 10, poolRun 0] emptyDb, StartsActive p.1 p.2 := by
  refine status_tracks_iff _ _ fun p hp => ?_
  simp only [starts, List.mem_cons, List.not_mem_nil, or_false] at hp
  rcases hp with rfl | rfl
  · exact ⟨rfl, rfl⟩
  · exact ⟨rfl, rfl⟩

/-- In the third run the pool has an allocation again, and its farm stays
disabled. -/
theorem returned_pool_not_tracked :
    ¬ ∀ history db, (∀ p ∈ starts step history db, FailureFree p.1 p.2) →
      ∀ p ∈ starts step history db, Tracks p.1 p.2 := by
  intro hall
  have hfree : ∀ p ∈ starts step [poolRun 10, poolRun 0, poolRun 10] emptyDb,
      FailureFree p.1 p.2 := by
    intro p hp
    simp only [starts, List.mem_cons, List.not_mem_nil, or_false] at hp
    rcases hp with rfl | rfl | rfl
    · exact ⟨rfl, rfl⟩
    · exact ⟨rfl, rfl⟩
    · exact ⟨rfl, rfl⟩
  have htracks := hall [poolRun 10, poolRun 0, poolRun 10] emptyDb hfree
    (poolRun 10, step (poolRun 0) (step (poolRun 10) emptyDb)) (by simp [starts])
  have hdisabled : statusAt ((poolRun 10).search 0)
      (step (poolRun 10) (step (poolRun 0) (step (poolRun 10) emptyDb))).tables = some false := by
    decide
  have hactive := (htracks.status 0 ⟨10, false⟩ rfl false hdisabled).mpr (by decide)
  cases hactive

end BlockchainTask.SchedulerJob.FarmHistory

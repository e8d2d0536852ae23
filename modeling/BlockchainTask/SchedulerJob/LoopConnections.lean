import BlockchainTask.Library.Connections
import BlockchainTask.SchedulerJob.AutoFarm
import BlockchainTask.SchedulerJob.BakeryFarm
import BlockchainTask.SchedulerJob.Farm2
import BlockchainTask.SchedulerJob.RewarderFarm
import BlockchainTask.SchedulerJob.VenusLending

/-! # The connections of the farm and lending jobs

Each turn of these jobs has a query runner of its own, declared before its try
block and released in its finally block. Whatever a turn throws, in the try
block or while it rolls back, it holds no connection when it ends. -/
namespace BlockchainTask.SchedulerJob.LoopConnections
open BlockchainTask.Common.Exception BlockchainTask.Helper BlockchainTask.Helper.Decimals
open BlockchainTask.Library.Effect BlockchainTask.Library.Frame BlockchainTask.Library.Transaction
open BlockchainTask.Library.Connections BlockchainTask.Library.Store
open BlockchainTask.Repository.Farm BlockchainTask.SchedulerJob.Base
open BlockchainTask.SchedulerJob.FarmTemplate

/-! ## Statements on farms -/

theorem keeps_findFarmWith (fault : Option Thrown) (w : FarmWhere) :
    Keeps shape (findFarmWith fault w) := keeps_managerRead fault _

theorem keeps_updateFarmWith (fault : Option Thrown) (id : ℕ) (set : FarmSet) :
    Keeps shape (updateFarmWith fault id set) := keeps_managerWrite fault _ _

theorem keeps_createFarmWith (fault : Option Thrown) (r : FarmRow) :
    Keeps shape (createFarmWith fault r) := keeps_managerWrite fault _ _

theorem keeps_updateFarm (fault : Option Thrown) (id : ℕ) (set : FarmSet) :
    Keeps shape (updateFarm fault id set) := keeps_connectionWrite fault _

theorem keeps_disableFound (fault : Option Thrown) (farm : Option (Stored FarmRow)) :
    Keeps shape (FarmLoop.disableFound fault farm) := by
  cases farm with
  | none => exact Keeps.pure ()
  | some farm => exact keeps_updateFarm fault farm.id .disabled

theorem keeps_registerAndRefresh {register : JobEff Farms Bool} {refresh : JobEff Farms Unit}
    (hregister : Keeps shape register) (hrefresh : Keeps shape refresh) (known : Bool) :
    Keeps shape (do
      let initialized ← (if known then register else pure true)
      .when initialized refresh : JobEff Farms Unit) :=
  Keeps.bind (Keeps.ite hregister (Keeps.pure true)) fun _ => Keeps.when hrefresh

/-- A farm that was asked for, if it is active, gives its first stake token to the
rest of the body. -/
theorem keeps_stakeToken {ask : JobEff Farms (Option (Stored FarmRow))} {tokens : List FarmToken}
    {body : Stored FarmRow → FarmToken → JobEff Farms Unit} (hask : Keeps shape ask)
    (hbody : ∀ farm token, Keeps shape (body farm token)) :
    Keeps shape (do
      match ← ask with
      | none => .throw typeError
      | some farm =>
        if !farm.row.status then pure ()
        else
          match (relation tokens farm.row.stake_tokens).head? with
          | none => .throw typeError
          | some token => body farm token : JobEff Farms Unit) := by
  refine Keeps.bind hask fun farm => ?_
  split
  · exact Keeps.throw _
  · refine Keeps.ite (Keeps.pure ()) ?_
    split
    · exact Keeps.throw _
    · exact hbody _ _

theorem balances_transaction {m : JobEff Farms Unit} (hm : Keeps shape m)
    (f₁ f₂ f₃ : Option Thrown) :
    Balances (do
      createQueryRunner
      connect f₁
      startTransaction f₂
      m
      commitTransaction f₃ : JobEff Farms Unit) :=
  Balances.opened (Keeps.bind (keeps_hold hm) fun _ => keeps_commitTransaction f₃) f₁ f₂

/-! ## The loop with the template's try block -/

section
variable {I : Type} (pools : Pools I) (env : FarmTemplate.Env I) (farmState : FarmState)

theorem keeps_registerFarm (pid : ℕ) (lpToken : String) :
    Keeps shape (FarmTemplate.registerFarm env pid lpToken) := by
  refine Keeps.bind (Keeps.mayFail _) fun _ => ?_
  split
  · exact Keeps.pure false
  · exact Keeps.bind (keeps_createFarmWith _ _) fun _ => Keeps.pure true

theorem keeps_refreshFarm (pid : ℕ) (info : I) :
    Keeps shape (FarmTemplate.refreshFarm pools env farmState pid info) :=
  keeps_stakeToken (keeps_findFarmWith _ _) fun _ _ =>
    Keeps.bind (Keeps.await _) fun _ => keeps_updateFarmWith _ _ _

theorem balances_attempt (farmInfos : List (Option I)) (pid : ℕ) :
    Balances (FarmTemplate.attempt pools env farmState farmInfos pid) := by
  refine Balances.bind (keeps_connectionRead _ _) fun farm => ?_
  split
  · exact balances_of_keeps (Keeps.throw _)
  · exact balances_of_keeps (Keeps.mayFail _)
  · refine Balances.ite ?_ ?_
    · refine balances_of_keeps ?_
      split
      · exact keeps_updateFarm _ _ _
      · exact Keeps.pure ()
    · refine balances_transaction ?_ _ _ _
      exact keeps_registerAndRefresh (keeps_registerFarm env pid _)
        (keeps_refreshFarm pools env farmState pid _) _

theorem held_turn (farmInfos : List (Option I)) (pid : ℕ) :
    Keeps Session.held (FarmTemplate.turn pools env farmState farmInfos pid) :=
  held_guarded (Balances.tryCatch (balances_attempt pools env farmState farmInfos pid) fun _ =>
    Keeps.bind (keeps_rollbackIfActive _) fun _ => keeps_hold (keeps_writeLog _))

theorem held_run (getFarmState : Except Thrown FarmState) :
    Keeps Session.held (FarmTemplate.run pools env getFarmState) := by
  refine Keeps.bind (keeps_held (keeps_writeLog _)) fun _ => Keeps.tryCatch ?_ fun _ => Keeps.throw _
  refine Keeps.bind (Keeps.await _) fun networkPid => ?_
  refine Keeps.bind (keeps_held (keeps_writeLog _)) fun _ => ?_
  refine Keeps.bind (Keeps.await _) fun farmInfos => Keeps.bind (Keeps.await _) fun farmState => ?_
  exact Keeps.forEach (held_turn pools env farmState farmInfos)

end

/-! ## The loop around other try blocks -/

theorem held_loopTurn {attempt : JobEff Farms Unit} (h : Balances attempt)
    (rollback : Option Thrown) (pid : ℕ) : Keeps Session.held (FarmLoop.turn rollback pid attempt) :=
  held_guarded (Balances.tryCatch h fun _ =>
    Keeps.bind (keeps_rollbackIfActive _) fun _ => keeps_hold (keeps_writeLog _))

theorem held_loopRun {I S : Type} (networkPid : Except Thrown ℕ)
    (getFarmInfos : List ℕ → Except Thrown (List (Option I))) (getFarmState : Except Thrown S)
    {turns : List (Option I) → S → ℕ → JobEff Farms Unit}
    (h : ∀ farmInfos farmState pid, Keeps Session.held (turns farmInfos farmState pid)) :
    Keeps Session.held (FarmLoop.run networkPid getFarmInfos getFarmState turns) := by
  refine Keeps.bind (keeps_held (keeps_writeLog _)) fun _ => Keeps.tryCatch ?_ fun _ => Keeps.throw _
  refine Keeps.bind (Keeps.await _) fun networkPid => ?_
  refine Keeps.bind (keeps_held (keeps_writeLog _)) fun _ => ?_
  refine Keeps.bind (Keeps.await _) fun farmInfos => Keeps.bind (Keeps.await _) fun farmState => ?_
  exact Keeps.forEach (h farmInfos farmState)

theorem keeps_loopRegisterFarm (faults : PoolFaults) (tokens : List FarmToken) (context : Context)
    (pid : ℕ) (lpToken data : String) :
    Keeps shape (FarmLoop.registerFarm faults tokens context pid lpToken data) := by
  refine Keeps.bind (Keeps.mayFail _) fun _ => ?_
  split
  · exact Keeps.pure false
  · exact Keeps.bind (keeps_createFarmWith _ _) fun _ => Keeps.pure true

/-! ### AutoFarm -/

section
open BlockchainTask.SchedulerJob.AutoFarm
variable (env : AutoEnv) (farmState : FarmState)

theorem keeps_autoRefreshFarm (pid : ℕ) (info : AutoPoolInfo) :
    Keeps shape (AutoFarm.refreshFarm env farmState pid info) := by
  refine Keeps.bind (keeps_managerRead _ _) fun farm => ?_
  split
  · exact Keeps.throw _
  · refine Keeps.ite (Keeps.pure ()) (Keeps.bind (Keeps.await _) fun shares => ?_)
    split
    · exact Keeps.throw _
    · exact keeps_updateFarmWith _ _ _

theorem balances_autoAttempt (farmInfos : List (Option AutoPoolInfo)) (pid : ℕ) :
    Balances (AutoFarm.attempt env farmState farmInfos pid) := by
  refine Balances.bind (keeps_connectionRead _ _) fun farm => ?_
  split
  · exact balances_of_keeps (Keeps.throw _)
  · exact balances_of_keeps (Keeps.pure ())
  · refine Balances.bind (Keeps.await _) fun isValidStrat => ?_
    refine Balances.ite (balances_of_keeps (Keeps.pure ())) (Balances.ite ?_ ?_)
    · exact balances_of_keeps (keeps_disableFound _ farm)
    · refine balances_transaction ?_ _ _ _
      exact keeps_registerAndRefresh (keeps_loopRegisterFarm _ _ _ pid _ _)
        (keeps_autoRefreshFarm env farmState pid _) _

theorem held_autoRun (rewards : Staked.Rewards) :
    Keeps Session.held (AutoFarmBSCFarmService.run env rewards) :=
  held_loopRun _ _ _ fun farmInfos farmState pid =>
    held_loopTurn (balances_autoAttempt env farmState farmInfos pid) _ pid

end

/-! ### BakerySwap -/

section
open BlockchainTask.SchedulerJob.BakeryFarm
variable (env : BakeryEnv) (farmState : FarmState)

theorem keeps_bakeryRefreshFarm (pid : ℕ) (info : BakeryPoolInfo) :
    Keeps shape (BakeryFarm.refreshFarm env farmState pid info) :=
  keeps_stakeToken (keeps_managerRead _ _) fun _ _ =>
    Keeps.bind (Keeps.await _) fun _ => keeps_updateFarmWith _ _ _

theorem balances_bakeryAttempt (farmInfos : List (Option BakeryPoolInfo)) (pid : ℕ) :
    Balances (BakeryFarm.attempt env farmState farmInfos pid) := by
  refine Balances.bind (keeps_connectionRead _ _) fun farm => ?_
  split
  · exact balances_of_keeps (Keeps.throw _)
  · exact balances_of_keeps (Keeps.pure ())
  · refine Balances.ite (balances_of_keeps (keeps_disableFound _ farm)) ?_
    refine balances_transaction ?_ _ _ _
    exact keeps_registerAndRefresh (keeps_loopRegisterFarm _ _ _ pid _ _)
      (keeps_bakeryRefreshFarm env farmState pid _) _

theorem held_bakeryRun (rewards : Staked.Rewards) :
    Keeps Session.held (BakerySwapBSCFarmService.run env rewards) :=
  held_loopRun _ _ _ fun farmInfos farmState pid =>
    held_loopTurn (balances_bakeryAttempt env farmState farmInfos pid) _ pid

end

/-! ### The two jobs with rewarders -/

section
open BlockchainTask.SchedulerJob.RewarderFarm
variable (service : RewardService) (env : RewarderEnv) (state : RewardState)

theorem keeps_rewarderRegisterFarm (pid : ℕ) (info : RewarderPoolInfo)
    (rewarderRewardToken : Option FarmToken) :
    Keeps shape (RewarderFarm.registerFarm env pid info rewarderRewardToken) := by
  refine Keeps.bind (Keeps.mayFail _) fun _ => ?_
  split
  · exact Keeps.bind (keeps_createFarmWith _ _) fun _ => Keeps.pure true
  · exact Keeps.pure false

theorem keeps_rewarderRefreshFarm (pid : ℕ) (info : RewarderPoolInfo)
    (rewarderRewardToken : Option FarmToken) :
    Keeps shape (RewarderFarm.refreshFarm env state pid info rewarderRewardToken) :=
  Keeps.bind (Keeps.await _) fun _ => keeps_stakeToken (keeps_managerRead _ _) fun _ _ =>
    Keeps.bind (Keeps.await _) fun _ => keeps_updateFarmWith _ _ _

theorem keeps_findRewarderRewardToken (pid : ℕ) (info : RewarderPoolInfo) :
    Keeps shape (findRewarderRewardToken service env pid info) :=
  Keeps.bind (Keeps.await _) fun _ => Keeps.ite
    (Keeps.bind (Keeps.await _) fun _ => Keeps.bind (Keeps.mayFail _) fun _ => Keeps.pure _)
    (Keeps.pure none)

theorem balances_rewarderAttempt (farmInfos : List (Option RewarderPoolInfo)) (pid : ℕ) :
    Balances (RewarderFarm.attempt service env state farmInfos pid) := by
  refine Balances.bind (keeps_connectionRead _ _) fun farm => ?_
  split
  · exact balances_of_keeps (Keeps.throw _)
  · exact balances_of_keeps (Keeps.pure ())
  · refine Balances.ite (balances_of_keeps (keeps_disableFound _ farm)) ?_
    refine Balances.bind (keeps_findRewarderRewardToken service env pid _) fun rewarderRewardToken => ?_
    refine balances_transaction ?_ _ _ _
    exact keeps_registerAndRefresh (keeps_rewarderRegisterFarm env pid _ rewarderRewardToken)
      (keeps_rewarderRefreshFarm env state pid _ rewarderRewardToken) _

theorem held_rewarderRun : Keeps Session.held (RewarderFarm.run service env) :=
  held_loopRun _ _ _ fun farmInfos state pid =>
    held_loopTurn (balances_rewarderAttempt service env state farmInfos pid) _ pid

end

/-! ## PancakeSwap farm2 -/

section
open BlockchainTask.SchedulerJob.Farm2
variable (env : Farm2.Env) (currentBlockNumber : ℕ)

theorem keeps_farm2RegisterFarm (pid : ℕ) (farmInfo : SmartChef) :
    Keeps shape (Farm2.registerFarm env pid farmInfo) := by
  refine Keeps.bind (Keeps.mayFail _) fun _ => Keeps.bind (Keeps.mayFail _) fun _ => ?_
  split
  · exact Keeps.bind (keeps_createFarmWith _ _) fun _ => Keeps.pure true
  · exact Keeps.pure false

theorem keeps_farm2RefreshFarm (pid : ℕ) (farmInfo : SmartChef) :
    Keeps shape (Farm2.refreshFarm env pid farmInfo) := by
  refine keeps_stakeToken (keeps_findFarmWith _ _) fun farm token => ?_
  refine Keeps.bind (Keeps.await _) fun amount => ?_
  split
  · exact Keeps.throw _
  · exact keeps_updateFarmWith _ _ _

theorem balances_smartChef (pid : ℕ) (farmInfo : SmartChef) :
    Balances (smartChef env currentBlockNumber pid farmInfo) := by
  refine Balances.bind (keeps_connectionRead _ _) fun farm => Balances.ite ?_ ?_
  · exact balances_of_keeps (keeps_disableFound _ farm)
  · exact Balances.opened (keeps_hold (keeps_registerAndRefresh (keeps_farm2RegisterFarm env pid _)
      (keeps_farm2RefreshFarm env pid _) _)) _ _

theorem balances_farm2Attempt (farmInfos : List (Option SmartChef)) (pid : ℕ) :
    Balances (Farm2.attempt env currentBlockNumber farmInfos pid) := by
  unfold Farm2.attempt
  split
  · exact balances_of_keeps (Keeps.pure false)
  · exact Balances.andThen (balances_smartChef env currentBlockNumber pid _) fun _ => Keeps.pure true

theorem held_farm2Run : Keeps Session.held (Farm2.run env) := by
  refine Keeps.bind (keeps_held (keeps_writeLog _)) fun _ => Keeps.tryCatch ?_ fun _ => Keeps.throw _
  refine Keeps.bind (Keeps.await _) fun currentBlockNumber => ?_
  refine Keeps.bind (Keeps.await _) fun networkPid => ?_
  refine Keeps.bind (keeps_held (keeps_writeLog _)) fun _ => ?_
  refine Keeps.bind (Keeps.await _) fun farmInfos => Keeps.whileEach fun pid => ?_
  refine held_guarded (Balances.tryCatch
    (balances_farm2Attempt env currentBlockNumber farmInfos pid) fun _ => ?_)
  exact Keeps.bind (keeps_rollbackIfActive _) fun _ =>
    Keeps.bind (keeps_hold (keeps_writeLog _)) fun _ => Keeps.pure true

end

/-! ## The lending job -/

section
open BlockchainTask.Repository.Lending BlockchainTask.SchedulerJob.VenusLending
variable (env : VenusLending.Env)

theorem keeps_registerLendingMarket (market : String) (token : Option LendingToken) :
    Keeps shape (registerLendingMarket env market token) := by
  unfold registerLendingMarket
  split
  · exact Keeps.pure false
  · exact Keeps.bind (keeps_managerWrite _ _ _) fun _ => Keeps.pure true

theorem keeps_refreshLendingMarket (market : String) (infos : MarketInfos) (status : MarketStatus)
    (token : LendingToken) :
    Keeps shape (refreshLendingMarket env market infos status token) :=
  Keeps.bind (Keeps.await _) fun _ => keeps_managerWrite _ _ _

theorem keeps_lendingRegisterAndRefresh (market : String) (infos : MarketInfos)
    (status : MarketStatus) (token : LendingToken) (lendingMarket : Option (Stored LendingRow)) :
    Keeps shape (VenusLending.registerAndRefresh env market infos status token lendingMarket) :=
  Keeps.bind (Keeps.ite (keeps_registerLendingMarket env market _) (Keeps.pure true)) fun _ =>
    Keeps.when (keeps_refreshLendingMarket env market infos status token)

theorem balances_lendingAttempt (market : String) :
    Balances (VenusLending.attempt env market) := by
  refine Balances.bind (Keeps.await _) fun infos => ?_
  split
  · exact balances_of_keeps (Keeps.throw _)
  · refine Balances.bind (Keeps.mayFail _) fun _ => ?_
    split
    · exact balances_of_keeps (Keeps.pure ())
    · refine Balances.bind (keeps_connectionRead _ _) fun lendingMarket => Balances.ite ?_ ?_
      · exact balances_of_keeps (keeps_connectionWrite _ _)
      · refine Balances.opened (Keeps.bind (keeps_hold ?_) fun _ => keeps_commitTransaction _) _ _
        exact keeps_lendingRegisterAndRefresh env market _ _ _ lendingMarket

theorem held_lendingRun : Keeps Session.held (VenusJobBSCLendingService.run env) := by
  refine Keeps.bind (keeps_held (keeps_writeLog _)) fun _ => Keeps.tryCatch ?_ fun _ => Keeps.throw _
  refine Keeps.bind (Keeps.await _) fun markets => ?_
  refine Keeps.bind (keeps_held (keeps_writeLog _)) fun _ => Keeps.forEach fun market => ?_
  exact held_guarded (Balances.tryCatch (balances_lendingAttempt env market) fun _ =>
    keeps_rollbackIfActive _)

end

end BlockchainTask.SchedulerJob.LoopConnections

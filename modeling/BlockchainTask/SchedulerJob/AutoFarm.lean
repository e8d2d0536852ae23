import BlockchainTask.SchedulerJob.FarmLoop

/-! # The AutoFarm job

A pool of AutoFarm is run by a contract of its own, its strat, which knows what
is staked. A pool whose strat is no contract is left alone. The farms of this
job are found without their address. -/
namespace BlockchainTask.SchedulerJob.AutoFarm
open BlockchainTask.Common.Exception BlockchainTask.Helper BlockchainTask.Helper.Decimals
open BlockchainTask.Library.Decimal BlockchainTask.Library.Effect BlockchainTask.Library.Transaction
open BlockchainTask.Library.Store
open BlockchainTask.Repository.Farm BlockchainTask.SchedulerJob.Base
open BlockchainTask.SchedulerJob.FarmTemplate BlockchainTask.SchedulerJob.FarmLoop

structure AutoPoolInfo where
  want : String
  allocPoint : ℕ
  strat : String

/-- The answers of one run, those on a strat for the turn of each pid. -/
structure AutoEnv where
  context : Context
  tokens : List FarmToken
  networkPid : Except Thrown ℕ
  getFarmInfos : List ℕ → Except Thrown (List (Option AutoPoolInfo))
  getSafeCheckCA : ℕ → String → Except Thrown Bool
  getFarmStratShareTotal : ℕ → String → Except Thrown ℕ
  faults : ℕ → PoolFaults

/-- `JSON.stringify({ strat })`. -/
def stratData (strat : String) : String := "\x7b\"strat\":\"" ++ strat ++ "\"\x7d"

section
variable (env : AutoEnv) (farmState : FarmState)

def registerFarm (pid : ℕ) (info : AutoPoolInfo) : JobEff Farms Bool :=
  FarmLoop.registerFarm (env.faults pid) env.tokens env.context pid info.want (stratData info.strat)

/-- The columns of a refresh. Only the rewards are tested before the division. -/
def refreshed (info : AutoPoolInfo) (targetStakeToken : FarmToken) (shares : ℕ) : FarmSet :=
  let liquidityAmount := divideDecimals (.finite shares) targetStakeToken.decimals
  let liquidityValue := mul liquidityAmount (.finite targetStakeToken.price_value)
  let sharePointOfFarm := div (.finite info.allocPoint) (.finite farmState.totalAllocPoint)
  let allocatedRewardValueInOneYear := mul farmState.rewardValueInOneYear sharePointOfFarm
  let farmApr :=
    if isZero allocatedRewardValueInOneYear then ZERO
    else mul (div allocatedRewardValueInOneYear liquidityValue) (.finite 100)
  (FarmSet.refreshed liquidityAmount liquidityValue farmApr).withData (stratData info.strat)

/-- The strat is asked before the staking token of the row is looked at. -/
def refreshFarm (pid : ℕ) (info : AutoPoolInfo) : JobEff Farms Unit := do
  match ← findFarmWith (env.faults pid).findFarmAgain (searchByName env.context pid) with
  | none => .throw typeError
  | some farm =>
    if !farm.row.status then pure ()
    else
      let shares ← .await (env.getFarmStratShareTotal pid info.strat)
      match (relation env.tokens farm.row.stake_tokens).head? with
      | none => .throw typeError
      | some targetStakeToken =>
        updateFarmWith (env.faults pid).refreshFarm farm.id
          (refreshed farmState info targetStakeToken shares)

def registerAndRefresh (pid : ℕ) (info : AutoPoolInfo) (farm : Option (Stored FarmRow)) :
    JobEff Farms Unit := do
  let initialized ← (if farm.isNone then registerFarm env pid info else pure true)
  .when initialized (refreshFarm env farmState pid info)

def attempt (farmInfos : List (Option AutoPoolInfo)) (pid : ℕ) : JobEff Farms Unit := do
  let farm ← findFarm (env.faults pid).findFarm (searchByName env.context pid)
  match farmInfos[pid]? with
  | none => .throw typeError
  | some none => pure ()
  | some (some info) =>
    let isValidStrat ← .await (env.getSafeCheckCA pid info.strat)
    if !isValidStrat then pure ()
    else if isZero (.finite info.allocPoint) then
      disableFound (env.faults pid).disableFarm farm
    else
      createQueryRunner
      connect (env.faults pid).connect
      startTransaction (env.faults pid).startTransaction
      registerAndRefresh env farmState pid info farm
      commitTransaction (env.faults pid).commitTransaction

end

def AutoFarmBSCFarmService.run (env : AutoEnv) (rewards : Staked.Rewards) : JobEff Farms Unit :=
  FarmLoop.run env.networkPid env.getFarmInfos (Staked.getFarmState env.context rewards)
    fun farmInfos farmState pid =>
      turn (env.faults pid).rollbackTransaction pid (attempt env farmState farmInfos pid)

end BlockchainTask.SchedulerJob.AutoFarm

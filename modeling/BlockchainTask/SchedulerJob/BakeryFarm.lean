import BlockchainTask.SchedulerJob.FarmLoop

/-! # The BakerySwap farm job

The pools of BakerySwap are kept by staking token, and the contract says of each
whether it exists. A refresh finds its farm by the staking token in `data` too. -/
namespace BlockchainTask.SchedulerJob.BakeryFarm
open BlockchainTask.Common.Exception BlockchainTask.Helper BlockchainTask.Helper.Decimals
open BlockchainTask.Library.Decimal BlockchainTask.Library.Effect BlockchainTask.Library.Transaction
open BlockchainTask.Library.Store
open BlockchainTask.Repository.Farm BlockchainTask.SchedulerJob.Base
open BlockchainTask.SchedulerJob.FarmTemplate BlockchainTask.SchedulerJob.FarmLoop

structure BakeryPoolInfo where
  lpToken : String
  allocPoint : ℕ
  exists_ : Bool

structure BakeryEnv where
  context : Context
  tokens : List FarmToken
  networkPid : Except Thrown ℕ
  getFarmInfos : List ℕ → Except Thrown (List (Option BakeryPoolInfo))
  getSafeERC20BalanceOf : ℕ → String → String → Except Thrown ℕ
  faults : ℕ → PoolFaults

/-- `JSON.stringify({ lpToken })`. -/
def lpTokenData (lpToken : String) : String := "\x7b\"lpToken\":\"" ++ lpToken ++ "\"\x7d"

def hasData (data : String) (r : FarmRow) : Bool :=
  match r.data with
  | some d => decide (sameText d data)
  | none => false

section
variable (env : BakeryEnv) (farmState : FarmState)

def registerFarm (pid : ℕ) (info : BakeryPoolInfo) : JobEff Farms Bool :=
  FarmLoop.registerFarm (env.faults pid) env.tokens env.context pid info.lpToken
    (lpTokenData info.lpToken)

/-- `findFarm` by the columns of the pid and by `data`. -/
def findFarmOf (pid : ℕ) (info : BakeryPoolInfo) : JobEff Farms (Option (Stored FarmRow)) :=
  managerRead (env.faults pid).findFarmAgain fun db =>
    db.tables.first fun r => (searchAt env.context pid).holds r && hasData (lpTokenData info.lpToken) r

def refreshFarm (pid : ℕ) (info : BakeryPoolInfo) : JobEff Farms Unit := do
  match ← findFarmOf env pid info with
  | none => .throw typeError
  | some farm =>
    if !farm.row.status then pure ()
    else
      match (relation env.tokens farm.row.stake_tokens).head? with
      | none => .throw typeError
      | some targetStakeToken =>
        let amount ← .await
          (env.getSafeERC20BalanceOf pid targetStakeToken.address env.context.farmAddress)
        updateFarmWith (env.faults pid).refreshFarm farm.id
          (refreshed farmState info.allocPoint targetStakeToken amount)

def registerAndRefresh (pid : ℕ) (info : BakeryPoolInfo) (farm : Option (Stored FarmRow)) :
    JobEff Farms Unit := do
  let initialized ← (if farm.isNone then registerFarm env pid info else pure true)
  .when initialized (refreshFarm env farmState pid info)

/-- A pool that does not exist is disabled as one without allocation is. -/
def attempt (farmInfos : List (Option BakeryPoolInfo)) (pid : ℕ) : JobEff Farms Unit := do
  let farm ← findFarm (env.faults pid).findFarm (searchAt env.context pid)
  match farmInfos[pid]? with
  | none => .throw typeError
  | some none => pure ()
  | some (some info) =>
    if isZero (.finite info.allocPoint) || !info.exists_ then
      disableFound (env.faults pid).disableFarm farm
    else
      createQueryRunner
      connect (env.faults pid).connect
      startTransaction (env.faults pid).startTransaction
      registerAndRefresh env farmState pid info farm
      commitTransaction (env.faults pid).commitTransaction

end

def BakerySwapBSCFarmService.run (env : BakeryEnv) (rewards : Staked.Rewards) :
    JobEff Farms Unit :=
  FarmLoop.run env.networkPid env.getFarmInfos (Staked.getFarmState env.context rewards)
    fun farmInfos farmState pid =>
      turn (env.faults pid).rollbackTransaction pid (attempt env farmState farmInfos pid)

end BlockchainTask.SchedulerJob.BakeryFarm

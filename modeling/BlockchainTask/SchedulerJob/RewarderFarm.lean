import BlockchainTask.SchedulerJob.FarmLoop

/-! # The farm jobs with rewarders

On Polygon, a pool of SushiSwap or ApeSwap may have a rewarder, a contract that
adds a reward of its own in another token. The reward of a pool is computed for
each refresh. The loop finds its farms without their address, a refresh with it. -/
namespace BlockchainTask.SchedulerJob.RewarderFarm
open BlockchainTask.Common.Exception BlockchainTask.Helper BlockchainTask.Helper.Decimals
open BlockchainTask.Library.Decimal BlockchainTask.Library.Effect BlockchainTask.Library.Transaction
open BlockchainTask.Library.Store
open BlockchainTask.Repository.Farm BlockchainTask.SchedulerJob.Base
open BlockchainTask.SchedulerJob.FarmTemplate BlockchainTask.SchedulerJob.FarmLoop

structure RewarderPoolInfo where
  allocPoint : ℕ
  lpToken : String
  rewarder : String

/-- What the protocol services of the two jobs answer differently. The reward is
a number as far as its text is one. -/
structure RewardService where
  getFarmRewardPerSecond : Except Thrown Number
  getFarmRewarderRewardToken : ℕ → String → Except Thrown String

structure RewarderEnv where
  context : Context
  tokens : List FarmToken
  networkPid : Except Thrown ℕ
  getFarmInfos : List ℕ → Except Thrown (List (Option RewarderPoolInfo))
  getFarmTotalAllocPoint : Except Thrown ℕ
  getSafeCheckCA : ℕ → String → Except Thrown Bool
  getFarmRewarderRewardPerSecond : ℕ → String → Except Thrown ℕ
  getSafeERC20BalanceOf : ℕ → String → String → Except Thrown ℕ
  findRewarderToken : ℕ → Option Thrown
  faults : ℕ → PoolFaults

/-- What all pools of a run share. -/
structure RewardState where
  totalAllocPoint : ℕ
  rewardPerSecond : Number

/-- `JSON.stringify({ rewarder })`. -/
def rewarderData (rewarder : String) : String := "\x7b\"rewarder\":\"" ++ rewarder ++ "\"\x7d"

section
variable (service : RewardService) (env : RewarderEnv) (state : RewardState)

/-- The reward of a year in the protocol's token, and in the rewarder's token
where there is one. -/
def getFarmState (pid : ℕ) (info : RewarderPoolInfo) (rewarderRewardToken : Option FarmToken) :
    Except Thrown FarmState := do
  let baseRewardAmountInOneSecond := divideDecimals state.rewardPerSecond env.context.token.decimals
  let baseRewardValueInOneSecond :=
    mul baseRewardAmountInOneSecond (.finite env.context.token.price_value)
  let baseRewardValueInOneYear := mul baseRewardValueInOneSecond (.finite ONE_YEAR_SECONDS)
  let rewarderRewardValueInOneYear ←
    (match rewarderRewardToken with
    | some token =>
      if info.rewarder ≠ ZERO_ADDRESS then do
        let rewarderRewardPerSecond ← env.getFarmRewarderRewardPerSecond pid info.rewarder
        let rewarderRewardAmountInOneSecond :=
          divideDecimals (.finite rewarderRewardPerSecond) token.decimals
        let rewarderRewardValueInOneSecond :=
          mul rewarderRewardAmountInOneSecond (.finite token.price_value)
        pure (mul rewarderRewardValueInOneSecond (.finite ONE_YEAR_SECONDS))
      else pure ZERO
    | none => pure ZERO)
  pure ⟨state.totalAllocPoint, add baseRewardValueInOneYear rewarderRewardValueInOneYear⟩

/-- A farm has both reward tokens, and is left out without the rewarder's. -/
def registerFarm (pid : ℕ) (info : RewarderPoolInfo) (rewarderRewardToken : Option FarmToken) :
    JobEff Farms Bool := do
  .mayFail (env.faults pid).findToken
  match findToken env.tokens env.context.chainId info.lpToken, rewarderRewardToken with
  | some stakeToken, some rewarderRewardToken =>
    let rewardTokens := [env.context.token, rewarderRewardToken]
    createFarmWith (env.faults pid).createFarm
      { FarmRow.new (env.context.farmWhere pid) (getFarmAssetName [stakeToken] rewardTokens)
          [stakeToken] rewardTokens with data := some (rewarderData info.rewarder) }
    pure true
  | _, _ => pure false

def refreshFarm (pid : ℕ) (info : RewarderPoolInfo) (rewarderRewardToken : Option FarmToken) :
    JobEff Farms Unit := do
  let farmState ← .await (getFarmState env state pid info rewarderRewardToken)
  match ← findFarmWith (env.faults pid).findFarmAgain (searchAt env.context pid) with
  | none => .throw typeError
  | some farm =>
    if !farm.row.status then pure ()
    else
      match (relation env.tokens farm.row.stake_tokens).head? with
      | none => .throw typeError
      | some targetStakeToken =>
        let amount ← .await
          (env.getSafeERC20BalanceOf pid targetStakeToken.address env.context.farmAddress)
        updateFarmWith (env.faults pid).refreshFarm farm.id
          ((refreshed farmState info.allocPoint targetStakeToken amount).withData
            (rewarderData info.rewarder))

def registerAndRefresh (pid : ℕ) (info : RewarderPoolInfo) (rewarderRewardToken : Option FarmToken)
    (farm : Option (Stored FarmRow)) : JobEff Farms Unit := do
  let initialized ←
    (if farm.isNone then registerFarm env pid info rewarderRewardToken else pure true)
  .when initialized (refreshFarm env state pid info rewarderRewardToken)

/-- The rewarder's token, if the rewarder is a contract and its token is
registered and active. -/
def findRewarderRewardToken (pid : ℕ) (info : RewarderPoolInfo) :
    JobEff Farms (Option FarmToken) := do
  let isValidRewarder ← .await (env.getSafeCheckCA pid info.rewarder)
  if isValidRewarder then
    let rewarderRewardTokenAddress ← .await (service.getFarmRewarderRewardToken pid info.rewarder)
    .mayFail (env.findRewarderToken pid)
    pure (findToken env.tokens env.context.chainId rewarderRewardTokenAddress)
  else pure none

def attempt (farmInfos : List (Option RewarderPoolInfo)) (pid : ℕ) : JobEff Farms Unit := do
  let farm ← findFarm (env.faults pid).findFarm (searchByName env.context pid)
  match farmInfos[pid]? with
  | none => .throw typeError
  | some none => pure ()
  | some (some info) =>
    if isZero (.finite info.allocPoint) then disableFound (env.faults pid).disableFarm farm
    else
      let rewarderRewardToken ← findRewarderRewardToken service env pid info
      createQueryRunner
      connect (env.faults pid).connect
      startTransaction (env.faults pid).startTransaction
      registerAndRefresh env state pid info rewarderRewardToken farm
      commitTransaction (env.faults pid).commitTransaction

def getRewardState : Except Thrown RewardState := do
  let totalAllocPoint ← env.getFarmTotalAllocPoint
  let rewardPerSecond ← service.getFarmRewardPerSecond
  pure ⟨totalAllocPoint, rewardPerSecond⟩

def run : JobEff Farms Unit :=
  FarmLoop.run env.networkPid env.getFarmInfos (getRewardState service env)
    fun farmInfos state pid =>
      turn (env.faults pid).rollbackTransaction pid (attempt service env state farmInfos pid)

end

/-- The reward for a second is the contract's function itself, which is not
called: its text is no number. The rewarders have one token. -/
def SushiSwapMATICService.rewardService : RewardService where
  getFarmRewardPerSecond := .ok .nan
  getFarmRewarderRewardToken _ _ := .ok "0x0d500B1d8E8eF31E21C99d1Db9A6444d3ADf1270"

def ApeSwapMATICService.rewardService (bananaPerSecond : Except Thrown ℕ)
    (rewardToken : ℕ → String → Except Thrown String) : RewardService where
  getFarmRewardPerSecond := bananaPerSecond.map fun n => .finite n
  getFarmRewarderRewardToken := rewardToken

def SushiSwapJobMATICFarmService.run (env : RewarderEnv) : JobEff Farms Unit :=
  RewarderFarm.run SushiSwapMATICService.rewardService env

def ApeSwapMATICFarmJobService.run (env : RewarderEnv) (bananaPerSecond : Except Thrown ℕ)
    (rewardToken : ℕ → String → Except Thrown String) : JobEff Farms Unit :=
  RewarderFarm.run (ApeSwapMATICService.rewardService bananaPerSecond rewardToken) env

end BlockchainTask.SchedulerJob.RewarderFarm

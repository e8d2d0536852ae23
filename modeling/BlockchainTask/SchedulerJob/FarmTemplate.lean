import BlockchainTask.Helper.Decimals
import BlockchainTask.Repository.Farm
import BlockchainTask.SchedulerJob.Base

/-! # The farm jobs

A run of a farm job goes through the pools of a contract one by one. A pool
without allocation disables its farm; for any other one the farm is registered
and refreshed in a transaction of its own, and what a pool throws is put on the
run's record before the next one. The jobs are one loop: they differ in where
the staked amount of a pool comes from and in how the rewards of a year are
computed. -/
namespace BlockchainTask.SchedulerJob.FarmTemplate
open BlockchainTask.Common.Exception BlockchainTask.Helper BlockchainTask.Helper.Decimals
open BlockchainTask.Library.Decimal BlockchainTask.Library.Effect BlockchainTask.Library.Transaction
open BlockchainTask.Library.Store
open BlockchainTask.Repository.Farm BlockchainTask.SchedulerJob.Base

def ONE_DAY_SECONDS : ℕ := 86400

def ONE_YEAR_DAYS : ℕ := 365

def ONE_YEAR_SECONDS : ℕ := 365 * 86400

def getFarmAssetName (stakeTokens rewardTokens : List FarmToken) : String :=
  let stakeSymbols := "&".intercalate (stakeTokens.map FarmToken.symbol)
  let rewardSymbols := "&".intercalate (rewardTokens.map FarmToken.symbol)
  stakeSymbols ++ "/" ++ rewardSymbols

/-- The protocol service of a job. -/
structure Context where
  protocol : ℕ
  chainId : ℕ
  blockTimeSecond : ℕ
  farmName : String
  farmAddress : String
  token : FarmToken

def Context.farmWhere (context : Context) (pid : ℕ) : FarmWhere :=
  ⟨context.protocol, context.farmName, context.farmAddress, pid⟩

structure FarmState where
  totalAllocPoint : ℕ
  rewardValueInOneYear : Number

structure PoolInfo where
  lpToken : String
  allocPoint : ℕ

/-- Where the database fails in the turn of one pool. -/
structure PoolFaults where
  findFarm : Option Thrown
  disableFarm : Option Thrown
  connect : Option Thrown
  startTransaction : Option Thrown
  findToken : Option Thrown
  createFarm : Option Thrown
  findFarmAgain : Option Thrown
  refreshFarm : Option Thrown
  commitTransaction : Option Thrown
  rollbackTransaction : Option Thrown

def PoolFaults.none : PoolFaults :=
  ⟨.none, .none, .none, .none, .none, .none, .none, .none, .none, .none⟩

/-- What a service answers for a pool whose info it cannot read. -/
inductive Unreadable where
  | null
  | emptyArray

/-- What the step makes of it: `isNull` passes over the first, and the array has no
allocation that `isZero` could look at. -/
def Unreadable.error : Unreadable → Option Thrown
  | .null => none
  | .emptyArray => some typeError

/-- What a job decides for itself: what it reads of a pool's info, what stands for
an info that is unreadable, and the staked amount of a pool, asked of the chain or
taken from the info. -/
structure Pools (I : Type) where
  pool : I → PoolInfo
  unreadable : Unreadable
  stakedAmount : (balanceOf : String → String → Except Thrown ℕ) → Context → I → FarmToken →
    Except Thrown ℕ

/-- The answers of one run: the chain's, the token table's and the failures of
the database, those and the balances for the turn of each pid. An info that is
unreadable is `none`, whatever the service has in its place. -/
structure Env (I : Type) where
  context : Context
  tokens : List FarmToken
  networkPid : Except Thrown ℕ
  getFarmInfos : List ℕ → Except Thrown (List (Option I))
  getSafeERC20BalanceOf : ℕ → String → String → Except Thrown ℕ
  faults : ℕ → PoolFaults

section
variable {I : Type} (pools : Pools I) (env : Env I) (farmState : FarmState)

/-- `findFarm` and `updateFarm` without a manager. -/
def findFarm (fault : Option Thrown) (w : FarmWhere) : JobEff Farms (Option (Stored FarmRow)) :=
  connectionRead fault fun db => findOne w db.tables

def updateFarm (fault : Option Thrown) (id : ℕ) (set : FarmSet) : JobEff Farms Unit :=
  connectionWrite fault (Db.setTables (updateOne id set))

/-- The same through the query runner's manager, and `createFarm`. -/
def findFarmWith (fault : Option Thrown) (w : FarmWhere) : JobEff Farms (Option (Stored FarmRow)) :=
  managerRead fault fun db => findOne w db.tables

def updateFarmWith (fault : Option Thrown) (id : ℕ) (set : FarmSet) : JobEff Farms Unit :=
  managerWrite fault (fun _ => none) (Db.setTables (updateOne id set))

def createFarmWith (fault : Option Thrown) (r : FarmRow) : JobEff Farms Unit :=
  managerWrite fault (fun db => insertRefused r db.tables) (Db.setTables fun t => t.insertIgnore r)

/-- The row that is registered for a pool. -/
def newFarm (pid : ℕ) (stakeToken : FarmToken) : FarmRow :=
  .new (env.context.farmWhere pid) (getFarmAssetName [stakeToken] [env.context.token]) [stakeToken]
    [env.context.token]

/-- A farm whose staking token is not registered, or not active, is left out. -/
def registerFarm (pid : ℕ) (lpToken : String) : JobEff Farms Bool := do
  .mayFail (env.faults pid).findToken
  match findToken env.tokens env.context.chainId lpToken with
  | none => pure false
  | some stakeToken =>
    createFarmWith (env.faults pid).createFarm (newFarm env pid stakeToken)
    pure true

/-- The columns of a refresh. The share of the pool in the rewards of a year is
set against the value of what is staked. -/
def refreshed (allocPoint : ℕ) (targetStakeToken : FarmToken) (amount : ℕ) : FarmSet :=
  let liquidityAmount := divideDecimals (.finite amount) targetStakeToken.decimals
  let liquidityValue := mul liquidityAmount (.finite targetStakeToken.price_value)
  let sharePointOfFarm := div (.finite allocPoint) (.finite farmState.totalAllocPoint)
  let allocatedRewardValueInOneYear := mul farmState.rewardValueInOneYear sharePointOfFarm
  let farmApr :=
    if isZero allocatedRewardValueInOneYear || isZero liquidityValue then ZERO
    else mul (div allocatedRewardValueInOneYear liquidityValue) (.finite 100)
  .refreshed liquidityAmount liquidityValue farmApr

/-- A row that is missing, or one without a staking token, is destructured. -/
def refreshFarm (pid : ℕ) (info : I) : JobEff Farms Unit := do
  match ← findFarmWith (env.faults pid).findFarmAgain (env.context.farmWhere pid) with
  | none => .throw typeError
  | some farm =>
    if !farm.row.status then pure ()
    else
      match (relation env.tokens farm.row.stake_tokens).head? with
      | none => .throw typeError
      | some targetStakeToken =>
        let amount ← .await
          (pools.stakedAmount (env.getSafeERC20BalanceOf pid) env.context info targetStakeToken)
        updateFarmWith (env.faults pid).refreshFarm farm.id
          (refreshed farmState (pools.pool info).allocPoint targetStakeToken amount)

/-- What a turn does between the start of its transaction and the commit. -/
def registerAndRefresh (pid : ℕ) (info : I) (farm : Option (Stored FarmRow)) :
    JobEff Farms Unit := do
  let initialized ←
    (if farm.isNone then registerFarm env pid (pools.pool info).lpToken else pure true)
  .when initialized (refreshFarm pools env farmState pid info)

/-- The try block of a pid's turn. The list of infos may be too short, and then
`undefined` is destructured. -/
def attempt (farmInfos : List (Option I)) (pid : ℕ) : JobEff Farms Unit := do
  let farm ← findFarm (env.faults pid).findFarm (env.context.farmWhere pid)
  match farmInfos[pid]? with
  | none => .throw typeError
  | some none => .mayFail pools.unreadable.error
  | some (some info) =>
    if isZero (.finite (pools.pool info).allocPoint) then
      match farm with
      | some farm => updateFarm (env.faults pid).disableFarm farm.id .disabled
      | none => pure ()
    else
      createQueryRunner
      connect (env.faults pid).connect
      startTransaction (env.faults pid).startTransaction
      registerAndRefresh pools env farmState pid info farm
      commitTransaction (env.faults pid).commitTransaction

/-- One turn of the loop. -/
def turn (farmInfos : List (Option I)) (pid : ℕ) : JobEff Farms Unit := do
  noQueryRunner
  .tryFinally
    (.tryCatch (attempt pools env farmState farmInfos pid) fun e => do
      rollbackIfActive (env.faults pid).rollbackTransaction
      writeLog fun l => { l with failed := l.failed ++ [(pid, e)] })
    releaseIfHeld

def run (getFarmState : Except Thrown FarmState) : JobEff Farms Unit := do
  writeLog fun _ => .empty
  .tryCatch
    (do
      let networkPid ← .await env.networkPid
      writeLog fun l => { l with total := some networkPid }
      let pids := fillSequenceNumber networkPid 0
      let farmInfos ← .await (env.getFarmInfos pids)
      let farmState ← .await getFarmState
      .forEach pids (turn pools env farmState farmInfos))
    fun e => .throw (errorHandler e)

end

/-! ## The jobs -/

/-! ### The contract holds what is staked, and every block has the same reward -/

namespace Staked

def pools : Pools PoolInfo where
  pool info := info
  unreadable := .null
  stakedAmount balanceOf context _ token := balanceOf token.address context.farmAddress

/-- What a service answers. Most rewards are read off the contract, one is a
quotient. -/
structure Rewards where
  getFarmTotalAllocPoint : Except Thrown ℕ
  getFarmRewardPerBlock : Except Thrown Number

def getFarmState (context : Context) (rewards : Rewards) : Except Thrown FarmState := do
  let totalAllocPoint ← rewards.getFarmTotalAllocPoint
  let rewardPerBlock ← rewards.getFarmRewardPerBlock
  let rewardAmountInOneBlock := divideDecimals rewardPerBlock context.token.decimals
  let blocksInOneDay := div (.finite ONE_DAY_SECONDS) (.finite context.blockTimeSecond)
  let rewardAmountInOneDay := mul rewardAmountInOneBlock blocksInOneDay
  let rewardValueInOneDay := mul rewardAmountInOneDay (.finite context.token.price_value)
  let rewardValueInOneYear := mul (.finite ONE_YEAR_DAYS) rewardValueInOneDay
  pure ⟨totalAllocPoint, rewardValueInOneYear⟩

def run (env : Env PoolInfo) (rewards : Rewards) : JobEff Farms Unit :=
  FarmTemplate.run pools env (getFarmState env.context rewards)

end Staked

def PancakeSwapBSCFarmService.run (env : Env PoolInfo) (rewards : Staked.Rewards) :
    JobEff Farms Unit := Staked.run env rewards

/-- The one service that has an empty array for a pool it cannot read. -/
def ApeSwapBSCFarmService.pools : Pools PoolInfo :=
  { Staked.pools with unreadable := .emptyArray }

def ApeSwapBSCFarmService.run (env : Env PoolInfo) (rewards : Staked.Rewards) :
    JobEff Farms Unit :=
  FarmTemplate.run ApeSwapBSCFarmService.pools env (Staked.getFarmState env.context rewards)

/-- The part of the block's reward that is for staking. -/
def BiSwapBSCService.getFarmRewardPerBlock (BSWPerBlock stakingPercent percentDec : ℕ) : Number :=
  div (mul (.finite BSWPerBlock) (.finite stakingPercent)) (.finite percentDec)

def BiSwapJobBSCFarmService.run (env : Env PoolInfo) (rewards : Staked.Rewards) :
    JobEff Farms Unit := Staked.run env rewards

def WaultSwapBSCFarmService.run (env : Env PoolInfo) (rewards : Staked.Rewards) :
    JobEff Farms Unit := Staked.run env rewards

/-! ### The pool's info says what is staked, and the reward depends on the block -/

namespace Mdex

structure MdexPoolInfo extends PoolInfo where
  totalAmount : ℕ

def pools : Pools MdexPoolInfo where
  pool info := info.toPoolInfo
  unreadable := .null
  stakedAmount _ _ info _ := .ok info.totalAmount

structure Rewards where
  getBlockNumber : Except Thrown ℕ
  getFarmTotalAllocPoint : Except Thrown ℕ
  getFarmHalvingPeriod : Except Thrown ℕ
  getFarmStartBlock : Except Thrown ℕ
  getFarmPhase : Number → Except Thrown ℕ
  getFarmReward : Number → Except Thrown ℕ

/-- The loop over the phases that end within the year: from phase `n` it takes a
turn for each one, and every turn adds the rest of the year. -/
def addPhases (rewards : Rewards) (halvingPeriod startBlock : ℕ)
    (afterOneYearBlockNumber : Number) : ℕ → ℕ → Number → Number → Except Thrown Number
  | 0, _, _, rewardAmountInOneYear => pure rewardAmountInOneYear
  | phases + 1, n, l, rewardAmountInOneYear => do
    let r := add (mul (.finite (n + 1)) (.finite halvingPeriod)) (.finite startBlock)
    let reward ← rewards.getFarmReward r
    let amount := add rewardAmountInOneYear (mul (sub r l) (.finite reward))
    let lastReward ← rewards.getFarmReward afterOneYearBlockNumber
    addPhases rewards halvingPeriod startBlock afterOneYearBlockNumber phases (n + 1) r
      (add amount (mul (sub afterOneYearBlockNumber r) (.finite lastReward)))

def getFarmState (context : Context) (rewards : Rewards) : Except Thrown FarmState := do
  let currentBlockNumber ← rewards.getBlockNumber
  let totalAllocPoint ← rewards.getFarmTotalAllocPoint
  let halvingPeriod ← rewards.getFarmHalvingPeriod
  let startBlock ← rewards.getFarmStartBlock
  let afterOneYearBlockNumber := add (.finite currentBlockNumber)
    (div (.finite ONE_YEAR_SECONDS) (.finite context.blockTimeSecond))
  let n ← rewards.getFarmPhase (.finite currentBlockNumber)
  let m ← rewards.getFarmPhase afterOneYearBlockNumber
  let rewardAmountInOneYear ← addPhases rewards halvingPeriod startBlock afterOneYearBlockNumber
    (m - n) n (.finite currentBlockNumber) ZERO
  let totalRewardAmountInOneYear := divideDecimals rewardAmountInOneYear context.token.decimals
  let rewardValueInOneYear := mul totalRewardAmountInOneYear (.finite context.token.price_value)
  pure ⟨totalAllocPoint, rewardValueInOneYear⟩

def run (env : Env MdexPoolInfo) (rewards : Rewards) : JobEff Farms Unit :=
  FarmTemplate.run pools env (getFarmState env.context rewards)

end Mdex

def MdexJobBSCFarmService.run (env : Env Mdex.MdexPoolInfo) (rewards : Mdex.Rewards) :
    JobEff Farms Unit := Mdex.run env rewards

def MdexJobHECOFarmService.run (env : Env Mdex.MdexPoolInfo) (rewards : Mdex.Rewards) :
    JobEff Farms Unit := Mdex.run env rewards

end BlockchainTask.SchedulerJob.FarmTemplate

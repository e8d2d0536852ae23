import BlockchainTask.SchedulerJob.FarmTemplate

/-! # The PancakeSwap farm2 job

The pools of this job are contracts of their own, the SmartChefs, listed by a
subgraph. A pool that has ended disables its farm; any other one registers and
refreshes it in a transaction that is opened for it. -/
namespace BlockchainTask.SchedulerJob.Farm2
open BlockchainTask.Common.Exception BlockchainTask.Helper BlockchainTask.Helper.Decimals
open BlockchainTask.Library.Decimal BlockchainTask.Library.Effect BlockchainTask.Library.Transaction
open BlockchainTask.Library.Store
open BlockchainTask.Repository.Farm BlockchainTask.SchedulerJob.Base
open BlockchainTask.SchedulerJob.FarmTemplate

structure Context where
  protocol : ℕ
  chainId : ℕ
  blockTimeSecond : ℕ
  farm2Name : String

/-- An entry of the subgraph's list: its address, the addresses of its tokens,
the reward for a block and the block it ends at. -/
structure SmartChef where
  id : String
  stakeToken : String
  earnToken : String
  reward : Number
  endBlock : ℕ

def Context.farmWhere (context : Context) (pid : ℕ) (farmInfo : SmartChef) : FarmWhere :=
  ⟨context.protocol, context.farm2Name, farmInfo.id, pid⟩

/-- Where the database fails in the turn of one pid. -/
structure Faults where
  findFarm : Option Thrown
  disableFarm : Option Thrown
  connect : Option Thrown
  startTransaction : Option Thrown
  findStakeToken : Option Thrown
  findRewardToken : Option Thrown
  createFarm : Option Thrown
  findFarmAgain : Option Thrown
  refreshFarm : Option Thrown
  rollbackTransaction : Option Thrown

def Faults.none : Faults := ⟨.none, .none, .none, .none, .none, .none, .none, .none, .none, .none⟩

/-- The answers of one run. -/
structure Env where
  context : Context
  tokens : List FarmToken
  getBlockNumber : Except Thrown ℕ
  networkPid : Except Thrown ℕ
  getFarm2Infos : ℕ → Except Thrown (List (Option SmartChef))
  getSafeERC20BalanceOf : ℕ → String → String → Except Thrown ℕ
  faults : ℕ → Faults

section
variable (env : Env) (currentBlockNumber : ℕ)

/-- The row that is registered for a SmartChef. -/
def newFarm (pid : ℕ) (farmInfo : SmartChef) (stakeToken rewardToken : FarmToken) : FarmRow :=
  .new (env.context.farmWhere pid farmInfo) (getFarmAssetName [stakeToken] [rewardToken])
    [stakeToken] [rewardToken]

/-- The tokens are not searched through the manager. -/
def registerFarm (pid : ℕ) (farmInfo : SmartChef) : JobEff Farms Bool := do
  .mayFail (env.faults pid).findStakeToken
  .mayFail (env.faults pid).findRewardToken
  match findToken env.tokens env.context.chainId farmInfo.stakeToken,
      findToken env.tokens env.context.chainId farmInfo.earnToken with
  | some stakeToken, some rewardToken =>
    createFarmWith (env.faults pid).createFarm (newFarm env pid farmInfo stakeToken rewardToken)
    pure true
  | _, _ => pure false

/-- The columns of a refresh. Only the rewards are tested before the division. -/
def refreshed (reward : Number) (targetStakeToken targetRewardToken : FarmToken) (amount : ℕ) :
    FarmSet :=
  let liquidityAmount := divideDecimals (.finite amount) targetStakeToken.decimals
  let liquidityValue := mul liquidityAmount (.finite targetStakeToken.price_value)
  let blocksInOneDay := div (.finite ONE_DAY_SECONDS) (.finite env.context.blockTimeSecond)
  let rewardAmountInOneDay := mul blocksInOneDay reward
  let rewardValueInOneDay := mul rewardAmountInOneDay (.finite targetRewardToken.price_value)
  let rewardValueInOneYear := mul (.finite ONE_YEAR_DAYS) rewardValueInOneDay
  let farmApr :=
    if isZero rewardValueInOneYear then ZERO
    else mul (div rewardValueInOneYear liquidityValue) (.finite 100)
  .refreshed liquidityAmount liquidityValue farmApr

def refreshFarm (pid : ℕ) (farmInfo : SmartChef) : JobEff Farms Unit := do
  match ← findFarmWith (env.faults pid).findFarmAgain (env.context.farmWhere pid farmInfo) with
  | none => .throw typeError
  | some farm =>
    if !farm.row.status then pure ()
    else
      match (relation env.tokens farm.row.stake_tokens).head? with
      | none => .throw typeError
      | some targetStakeToken =>
        let amount ← .await (env.getSafeERC20BalanceOf pid targetStakeToken.address farmInfo.id)
        match (relation env.tokens farm.row.reward_tokens).head? with
        | none => .throw typeError
        | some targetRewardToken =>
          updateFarmWith (env.faults pid).refreshFarm farm.id
            (refreshed env farmInfo.reward targetStakeToken targetRewardToken amount)

def registerAndRefresh (pid : ℕ) (farmInfo : SmartChef) (farm : Option (Stored FarmRow)) :
    JobEff Farms Unit := do
  let initialized ← (if farm.isNone then registerFarm env pid farmInfo else pure true)
  .when initialized (refreshFarm env pid farmInfo)

/-- The try block of a SmartChef that is there. The transaction is not committed. -/
def smartChef (pid : ℕ) (farmInfo : SmartChef) : JobEff Farms Unit := do
  let farm ← findFarm (env.faults pid).findFarm (env.context.farmWhere pid farmInfo)
  if currentBlockNumber ≥ farmInfo.endBlock then
    match farm with
    | some farm => updateFarm (env.faults pid).disableFarm farm.id .disabled
    | none => pure ()
  else
    createQueryRunner
    connect (env.faults pid).connect
    startTransaction (env.faults pid).startTransaction
    registerAndRefresh env pid farmInfo farm

/-- The entry of a pid, if there is one: the list may be too short, and an entry
may be null. -/
def entry (farmInfos : List (Option SmartChef)) (pid : ℕ) : Option SmartChef :=
  farmInfos[pid]?.join

/-- The try block of a pid's turn. A missing entry returns from `run`. -/
def attempt (farmInfos : List (Option SmartChef)) (pid : ℕ) : JobEff Farms Bool := do
  match entry farmInfos pid with
  | none => pure false
  | some farmInfo =>
    smartChef env currentBlockNumber pid farmInfo
    pure true

/-- One turn of the loop: whether it goes on. -/
def turn (farmInfos : List (Option SmartChef)) (pid : ℕ) : JobEff Farms Bool := do
  noQueryRunner
  .tryFinally
    (.tryCatch (attempt env currentBlockNumber farmInfos pid) fun e => do
      rollbackIfActive (env.faults pid).rollbackTransaction
      writeLog fun l => { l with failed := l.failed ++ [(pid, e)] }
      pure true)
    releaseIfHeld

def run : JobEff Farms Unit := do
  writeLog fun _ => .empty
  .tryCatch
    (do
      let currentBlockNumber ← .await env.getBlockNumber
      let networkPid ← .await env.networkPid
      writeLog fun l => { l with total := some networkPid }
      let pids := fillSequenceNumber networkPid 0
      let farmInfos ← .await (env.getFarm2Infos networkPid)
      .whileEach pids (turn env currentBlockNumber farmInfos))
    fun e => .throw (errorHandler e)

end

end BlockchainTask.SchedulerJob.Farm2

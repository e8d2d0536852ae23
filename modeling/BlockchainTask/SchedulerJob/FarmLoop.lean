import BlockchainTask.SchedulerJob.FarmTemplate

/-! # Farm jobs with a try block of their own

AutoFarm, BakerySwap and the two jobs with rewarders go through their pids as
the other farm jobs do, but look at more of a pool before they register or
refresh it, and keep a part of the chain's answer in the `data` of its farm. -/
namespace BlockchainTask.SchedulerJob.FarmLoop
open BlockchainTask.Common.Exception BlockchainTask.Helper BlockchainTask.Helper.Decimals
open BlockchainTask.Library.Decimal BlockchainTask.Library.Effect BlockchainTask.Library.Transaction
open BlockchainTask.Library.Store
open BlockchainTask.Repository.Farm BlockchainTask.SchedulerJob.Base
open BlockchainTask.SchedulerJob.FarmTemplate

/-- One turn of the loop, around the try block of its pid. -/
def turn (rollback : Option Thrown) (pid : ℕ) (attempt : JobEff Farms Unit) : JobEff Farms Unit := do
  noQueryRunner
  .tryFinally
    (.tryCatch attempt fun e => do
      rollbackIfActive rollback
      writeLog fun l => { l with failed := l.failed ++ [(pid, e)] })
    releaseIfHeld

/-- A run, from the number of pools, the infos of all pools and the state of the
farms on. -/
def run {I S : Type} (networkPid : Except Thrown ℕ)
    (getFarmInfos : List ℕ → Except Thrown (List (Option I))) (getFarmState : Except Thrown S)
    (turns : List (Option I) → S → ℕ → JobEff Farms Unit) : JobEff Farms Unit := do
  writeLog fun _ => .empty
  .tryCatch
    (do
      let networkPid ← .await networkPid
      writeLog fun l => { l with total := some networkPid }
      let pids := fillSequenceNumber networkPid 0
      let farmInfos ← .await (getFarmInfos pids)
      let farmState ← .await getFarmState
      .forEach pids (turns farmInfos farmState))
    fun e => .throw (errorHandler e)

/-- `findFarm` by some columns, without and with a manager. -/
def findFarm (fault : Option Thrown) (w : FarmSearch) : JobEff Farms (Option (Stored FarmRow)) :=
  connectionRead fault fun db => findFirst w db.tables

def findFarmWith (fault : Option Thrown) (w : FarmSearch) :
    JobEff Farms (Option (Stored FarmRow)) :=
  managerRead fault fun db => findFirst w db.tables

/-- The search of a pid among the farms of a job, by its address or without. -/
def searchAt (context : Context) (pid : ℕ) : FarmSearch := (context.farmWhere pid).search

def searchByName (context : Context) (pid : ℕ) : FarmSearch :=
  ⟨context.protocol, context.farmName, none, pid⟩

/-- The farm of a staking token, if that is registered and active, with `data`. -/
def registerFarm (faults : PoolFaults) (tokens : List FarmToken) (context : Context) (pid : ℕ)
    (lpToken data : String) : JobEff Farms Bool := do
  .mayFail faults.findToken
  match findToken tokens context.chainId lpToken with
  | none => pure false
  | some stakeToken =>
    createFarmWith faults.createFarm
      { FarmRow.new (context.farmWhere pid) (getFarmAssetName [stakeToken] [context.token])
          [stakeToken] [context.token] with data := some data }
    pure true

/-- `if (!isUndefined(farm)) updateFarm({ id: farm.id }, { status: false })`. -/
def disableFound (fault : Option Thrown) (farm : Option (Stored FarmRow)) : JobEff Farms Unit :=
  match farm with
  | some farm => updateFarm fault farm.id .disabled
  | none => pure ()

end BlockchainTask.SchedulerJob.FarmLoop

import BlockchainTask.Helper
import BlockchainTask.Repository.NFToken
import BlockchainTask.SchedulerJob.Base

/-! # The NF-token job

A run of `NFTTemplate` crawls the next NF tokens of a contract and stores them
in a transaction. The cursor is moved inside the same block, but not through
the transaction's manager: that statement is committed by itself. -/
namespace BlockchainTask.SchedulerJob.NFTTemplate
open BlockchainTask.Helper BlockchainTask.Common.Exception
open BlockchainTask.Library.Effect BlockchainTask.Library.Transaction BlockchainTask.Library.Store
open BlockchainTask.Repository.NFToken BlockchainTask.SchedulerJob.Base

/-- The answers of one run. The crawler of a job gives one entry for each pid,
in order; an entry may be missing. -/
structure Context where
  networkPid : Except Thrown Nat
  crawlNFTokens : List Nat → Except Thrown (List (Option NFTokenRow))
  one_each : ∀ pids crawled, crawlNFTokens pids = .ok crawled → crawled.length = pids.length

/-- Where the database fails. The second rollback is that of the finally block. -/
structure Faults where
  findScheduler : Option Thrown
  createQueryRunner : Option Thrown
  connect : Option Thrown
  startTransaction : Option Thrown
  createNFTokens : Option Thrown
  updateScheduler : Option Thrown
  commitTransaction : Option Thrown
  rollbackTransaction : Option Thrown
  rollbackAgain : Option Thrown

def Faults.none : Faults := ⟨.none, .none, .none, .none, .none, .none, .none, .none, .none⟩

/-- `toCheckSum`, before an insert: only an address that is missing is given to
`getAddress`, which rejects it. A missing entry becomes an entity without one. -/
def checkInsert : Option NFTokenRow → Option Thrown
  | none => some (rawError "invalid address")
  | some r => if r.address = "" then some (rawError "invalid address") else none

def createNFTokens (fault : Option Thrown) (params : List (Option NFTokenRow)) :
    JobEff NFTokens Unit :=
  managerWrite fault (fun _ => params.findSome? checkInsert)
    (Db.setTables fun t => t.insertAll (params.filterMap id))

def schedulerPid (fault : Option Thrown) : JobEff NFTokens Nat :=
  schedulerCursor fault Scheduler.pid

/-- Called without a manager. -/
def updateSchedulerPid (fault : Option Thrown) (endPid : Nat) : JobEff NFTokens Unit :=
  updateScheduler fault fun r => { r with pid := some endPid }

def chunkSize : Nat := 10

theorem chunkSize_pos : 0 < chunkSize := by decide

section
variable (context : Context) (faults : Faults)

/-- The try block. -/
def crawl : JobEff NFTokens Unit := do
  let networkPid ← .await context.networkPid
  let sPid ← schedulerPid faults.findScheduler
  writeLog fun l => { l with total := some networkPid }
  if sPid ≥ networkPid then pure ()
  else
    let ePid := chunkEnd chunkSize sPid networkPid
    let pids := fillSequenceNumber (ePid - sPid) sPid
    writeLog fun l => { l with worked := pids }
    let crawledNFTokens ← .await (context.crawlNFTokens pids)
    .mayFail faults.createQueryRunner
    createQueryRunner
    connect faults.connect
    startTransaction faults.startTransaction
    createNFTokens faults.createNFTokens crawledNFTokens
    updateSchedulerPid faults.updateScheduler ePid
    commitTransaction faults.commitTransaction

def run : JobEff NFTokens Unit := do
  writeLog fun _ => .empty
  noQueryRunner
  .tryFinally
    (.tryCatch (crawl context faults) fun e => do
      rollbackIfCreated faults.rollbackTransaction
      .throw (errorHandler e))
    (rollbackIfActive faults.rollbackAgain)

end

end BlockchainTask.SchedulerJob.NFTTemplate

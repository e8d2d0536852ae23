import BlockchainTask.Helper.GroupBy
import BlockchainTask.Repository.PricedToken
import BlockchainTask.SchedulerJob.Base
import BlockchainTask.SchedulerJob.TokenPrice

/-! # The price jobs

A run of `PriceTemplate` goes through its tokens chain by chain and chunk by
chunk. A chunk is crawled, and what the crawl gives is written in a transaction
of its own; a price or a supply that the columns cannot hold is written as zero. -/
namespace BlockchainTask.SchedulerJob.PriceTemplate
open BlockchainTask.Common.Exception BlockchainTask.Helper BlockchainTask.Helper.Decimals
open BlockchainTask.Helper.GroupBy
open BlockchainTask.Library.Decimal BlockchainTask.Library.Effect BlockchainTask.Library.Transaction
open BlockchainTask.Repository.PricedToken BlockchainTask.SchedulerJob.Base
open BlockchainTask.SchedulerJob.TokenPrice

/-- The record of a run is left open. -/
abbrev PriceEff (L α : Type) : Type := Eff (Session (Db PricedTokens) L) Thrown α

def chunkSize : ℕ := 100

/-- Where the database fails in one `bulkUpdate`, the updates by their id. -/
structure Faults where
  connect : Option Thrown
  startTransaction : Option Thrown
  updateToken : ℕ → Option Thrown
  commitTransaction : Option Thrown
  rollbackTransaction : Option Thrown

def Faults.none : Faults := ⟨.none, .none, fun _ => .none, .none, .none⟩

def bulkUpdate.max : ℚ := 100000000000000000000000000000000000

/-- `isFinite(Number(value))`: from half a step above the largest double on, the
nearest one is an infinity. -/
def isFiniteDouble : Number → Bool
  | .finite q => decide (|q| < 2 ^ 1024 - 2 ^ 970)
  | _ => false

/-- What is written of a value. -/
def written (value : Number) : Number :=
  if isGreaterThan value (.finite bulkUpdate.max) || !isFiniteDouble value then ZERO else value

section
variable {L : Type}

def updateTokenWith (fault : Option Thrown) (param : UpdateParam) : PriceEff L Unit :=
  managerWrite fault (fun _ => none)
    (Db.setTables (updateToken param.id (written param.price_value) (written param.total_supply)))

/-- The transaction is started before the try block. The updates are sent one
after another on one connection. -/
def bulkUpdate (faults : Faults) (bulkParams : List UpdateParam) : PriceEff L Unit := do
  createQueryRunner
  connect faults.connect
  startTransaction faults.startTransaction
  .tryFinally
    (.tryCatch
      (do
        .forEach bulkParams fun param => updateTokenWith (faults.updateToken param.id) param
        commitTransaction faults.commitTransaction)
      fun e => do
        rollbackIfActive faults.rollbackTransaction
        .throw (errorHandler e))
    releaseIfHeld

end

/-- A job's `crawlTokenSupplyAndPrice`, which writes nothing. -/
structure Crawl (L T : Type) where
  crawlTokenSupplyAndPrice : ℕ → List T → PriceEff L (List UpdateParam)
  writesNothing : ∀ chainId targetTokens s, Eff.wp (crawlTokenSupplyAndPrice chainId targetTokens)
    (fun _ t => t.db = s.db) (fun _ t => t.db = s.db) s

section
variable {L T : Type} (crawl : Crawl L T) (faults : L → ℕ → List T → Faults) (chain_id : T → ℕ)

/-- One chunk. The faults are those of the update that follows the crawl. -/
def refreshChunk (targetChainId : ℕ) (targetTokens : List T) : PriceEff L Unit := do
  let updateParams ← crawl.crawlTokenSupplyAndPrice targetChainId targetTokens
  let updateFaults ← .read fun s => faults s.log targetChainId targetTokens
  bulkUpdate updateFaults updateParams

def refresh (tokens : List T) : PriceEff L Unit :=
  let tokenGroupByChainId := groupBy tokens fun token => (chain_id token).repr
  .forEach (objectKeys tokenGroupByChainId) fun chainId =>
    let targetChainId := number chainId
    let totalChainTokens := tokenGroupByChainId.property targetChainId.repr
    let chunkChainTokens := toSplitWithChunkSize totalChainTokens chunkSize
    .forEach chunkChainTokens (refreshChunk crawl faults targetChainId)

end

def run {T : Type} (getTokens : JobEff PricedTokens (List T)) (crawl : Crawl LoggerData T)
    (faults : LoggerData → ℕ → List T → Faults) (chain_id : T → ℕ) : JobEff PricedTokens Unit := do
  writeLog fun _ => .empty
  .tryCatch
    (do
      let tokens ← getTokens
      writeLog fun l => { l with total := some tokens.length }
      refresh crawl faults chain_id tokens)
    fun e => .throw (errorHandler e)

end BlockchainTask.SchedulerJob.PriceTemplate

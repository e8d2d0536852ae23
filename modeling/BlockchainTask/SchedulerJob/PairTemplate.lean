import BlockchainTask.Repository.Token
import BlockchainTask.SchedulerJob.Base

/-! # The pair job

A run of `PairTemplate` takes the next pairs of a factory, finds out what they
are made of, and registers in one transaction the tokens that are not known
yet: first those that are no pairs themselves, then the pairs, and last the
pairs made of pairs of the same chunk. -/
namespace BlockchainTask.SchedulerJob.PairTemplate
open BlockchainTask.Helper BlockchainTask.Common.Exception
open BlockchainTask.Library.Effect BlockchainTask.Library.Transaction BlockchainTask.Library.Store
open BlockchainTask.Repository.Token BlockchainTask.SchedulerJob.Base

/-! ## What the node and the database answer -/

structure TokenInfo where
  name : String
  symbol : String
  decimals : Nat
  deriving DecidableEq

/-- An entry of an answer. Reading one whose name or symbol is no UTF-8 throws. -/
abbrev InfoEntry : Type := Except Thrown TokenInfo

/-- What is reported of a pair. A job that overrides `getPairsInfo` may report
null constituents. -/
structure PairInfo where
  pair : String
  token0 : Option String
  token1 : Option String
  weird : Bool
  deriving DecidableEq

/-- A call that may already throw before it gives a promise. -/
inductive Call (α : Type) where
  | throws (e : Thrown)
  | rejects (e : Thrown)
  | answers (a : α)

/-- The context of the job: the network, `getAddress` of the ethers library,
and the answers of one run. -/
structure Context where
  network : Nat
  getAddress : String → Option String
  getAMMFactoryTotalLength : Except Thrown Nat
  /-- An entry whose call failed is no address. -/
  getAMMFactoryInfos : List Nat → Except Thrown (List (Option String))
  /-- `getBatchPairInfos`, or what a job overrides it by. -/
  getPairsInfo : List String → Except Thrown (List PairInfo)
  getBatchPairInfos : List String → Except Thrown (List PairInfo)
  getSafePairInfos : String → Call PairInfo
  getBatchCheckCA : List String → Except Thrown (List Bool)
  getBatchERC20TokenInfos : List String → Except Thrown (List InfoEntry)
  getSafeERC20TokenInfo : String → Except Thrown InfoEntry

/-- Where the database fails. A `findToken` is told by its pass and its number
in the pass, an insert by its number. -/
structure Faults where
  findScheduler : Option Thrown
  createQueryRunner : Option Thrown
  connect : Option Thrown
  startTransaction : Option Thrown
  findTokens : Option Thrown
  findToken : Nat → Nat → Option Thrown
  createTokensIfNotExist : Nat → Option Thrown
  updateScheduler : Option Thrown
  commitTransaction : Option Thrown
  rollbackTransaction : Option Thrown

def Faults.none : Faults :=
  ⟨.none, .none, .none, .none, .none, fun _ _ => .none, fun _ => .none, .none, .none, .none⟩

section
variable (context : Context) (faults : Faults)

/-- `toCheckSumAddress`. -/
def toCheckSumAddress (address : Option String) : JobEff Tokens String :=
  match address.bind context.getAddress with
  | some a => pure a
  | none => .throw (rawError "invalid address")

def isZeroAddress (address : Option String) : Bool := address == some ZERO_ADDRESS

def getPairTokenSymbol (token0 token1 : TokenRow) : String := token0.symbol ++ "-" ++ token1.symbol

/-- `checkInsert`, before an insert: only an address that is missing is given to
`getAddress`, which rejects it. -/
def checkInsert (r : TokenRow) : Option Thrown :=
  if r.address = "" then some (rawError "invalid address") else none

def createTokensIfNotExist (fault : Option Thrown) (params : List TokenRow) : JobEff Tokens Unit :=
  managerWrite fault (fun _ => params.findSome? checkInsert)
    (Db.setTables fun t => t.insertAll (params.map TokenRow.kept))

def findToken (fault : Option Thrown) (address : Option String) :
    JobEff Tokens (Option (Stored TokenRow)) :=
  managerRead fault fun db => findOne context.network address db.tables

/-! ## The steps of a task -/

def grouping (pairInfos : List PairInfo) : List String × List (Option String) :=
  ((pairInfos.map PairInfo.pair).eraseDups,
    (pairInfos.flatMap fun info => [info.token0, info.token1]).eraseDups)

/-- The reads are not part of the transaction. -/
def removeRegisteredTokens (multiTokenAddresses : List String)
    (singleTokenAddresses : List (Option String)) :
    JobEff Tokens (List (Option String) × List (Option String)) := do
  let registeredMultiTokens ← connectionRead faults.findTokens fun db =>
    findIn context.network (multiTokenAddresses.map some) db.tables
  let registeredSingleTokens ← connectionRead faults.findTokens fun db =>
    findIn context.network singleTokenAddresses db.tables
  pure (removeStringValues (multiTokenAddresses.map some)
      (registeredMultiTokens.map fun s => some s.row.address),
    removeStringValues singleTokenAddresses
      (registeredSingleTokens.map fun s => some s.row.address))

/-- The valid and the invalid single tokens. -/
def removeInvalidTokens (multiTokenAddresses singleTokenAddresses : List (Option String)) :
    JobEff Tokens (List String × List String) := do
  let singleTokenAddresses := removeStringValues singleTokenAddresses multiTokenAddresses
  let singleTokenAddresses ← .mapEach singleTokenAddresses (toCheckSumAddress context)
  let singleTokenCheckCA ← .await (context.getBatchCheckCA singleTokenAddresses)
  let checked := singleTokenAddresses.zipIdx.map fun p => (p.1, singleTokenCheckCA.getD p.2 false)
  pure ((checked.filter Prod.snd).map Prod.fst, (checked.filter fun p => !p.2).map Prod.fst)

/-- The fallback for one address. A rejection is not caught here, since the
promise is returned without being awaited. -/
def safePairInfos (address : String) : JobEff Tokens PairInfo :=
  match context.getSafePairInfos address with
  | .throws _ => pure ⟨address, some ZERO_ADDRESS, some ZERO_ADDRESS, true⟩
  | .rejects e => .throw e
  | .answers infos => pure infos

def isPureSingle (infos : PairInfo) : Bool :=
  !infos.weird && isZeroAddress infos.token0 && isZeroAddress infos.token1

/-- The pure single tokens, and the invalid ones with those that are pairs. -/
def checkMultiTokenInSinglePosition (singleTokenAddresses invalidSingleTokenAddresses : List String) :
    JobEff Tokens (List String × List String) := do
  let checkMultiInfos ← .tryCatch (.await (context.getBatchPairInfos singleTokenAddresses))
    fun _ => .mapEach singleTokenAddresses (safePairInfos context)
  pure ((checkMultiInfos.filter isPureSingle).map PairInfo.pair,
    invalidSingleTokenAddresses ++
      (checkMultiInfos.filter fun infos => !isPureSingle infos).map PairInfo.pair)

/-- What the fallback makes of the settled call of an address. A value is read. -/
def settledInfo (address : String) : JobEff Tokens InfoEntry :=
  match context.getSafeERC20TokenInfo address with
  | .ok value => do
    let info ← .await value
    pure (.ok info)
  | .error _ => pure (.ok ⟨UNKNOWN_STRING, UNKNOWN_STRING, UNKNOWN_UINT256⟩)

/-- `getTokenInfos`, for the multi tokens and for the single ones. The entries of
a batch are handed on unread. -/
def getTokenInfos (addresses : List String) : JobEff Tokens (List InfoEntry) :=
  .tryCatch (.await (context.getBatchERC20TokenInfos addresses)) fun _ =>
    .mapEach addresses (settledInfo context)

/-- A read past the end of the infos fails. -/
def infoAt (infos : List InfoEntry) (index : Nat) : JobEff Tokens TokenInfo :=
  match infos[index]? with
  | some entry => .await entry
  | none => .throw typeError

def knownStatus (info : TokenInfo) : Bool :=
  info.name != UNKNOWN_STRING && info.symbol != UNKNOWN_STRING

def createSingleTokens (singleTokenAddresses : List String) (singleTokenInfos : List InfoEntry) :
    JobEff Tokens Unit := do
  let singleTokenBulkParams ← .mapEach singleTokenAddresses.zipIdx fun p => do
    let info ← infoAt singleTokenInfos p.2
    pure
      { network := context.network, type := .SINGLE, address := p.1, name := info.name,
        symbol := info.symbol, decimals := info.decimals, pair0 := none, pair1 := none,
        status := knownStatus info }
  createTokensIfNotExist (faults.createTokensIfNotExist 0) singleTokenBulkParams

/-! ## The pairs -/

/-- A pair of the chunk with its infos and what it is made of. -/
structure Deferred where
  address : String
  info : TokenInfo
  token0 : Option String
  token1 : Option String
  deriving DecidableEq

def multiRow (pair : Deferred) (token0 token1 : Stored TokenRow) : TokenRow :=
  { network := context.network, type := .MULTI, address := pair.address, name := pair.info.name,
    symbol := getPairTokenSymbol token0.row token1.row, decimals := pair.info.decimals,
    pair0 := some token0.id, pair1 := some token1.id, status := knownStatus pair.info }

/-- What the first pass makes of a pair. -/
inductive Decision where
  | skip
  | defer (pair : Deferred)
  | push (row : TokenRow)
  deriving DecidableEq

/-- The reported composition of an address, in any letter case. -/
def composedOf (multiTokenComposed : List PairInfo) (address : String) : Option PairInfo :=
  multiTokenComposed.find? fun info => toLowerCase info.pair == toLowerCase address

def decide₁ (pair : Deferred) (registeredToken0 registeredToken1 : Option (Stored TokenRow)) :
    Decision :=
  match registeredToken0, registeredToken1 with
  | some token0, some token1 =>
    if token0.row.status && token1.row.status then .push (multiRow context pair token0 token1)
    else .skip
  | _, _ => .defer pair

def firstPass (multiTokenInfos : List InfoEntry) (multiTokenComposed : List PairInfo)
    (invalidSingleTokenAddresses : List String) (p : String × Nat) : JobEff Tokens Decision := do
  let info ← infoAt multiTokenInfos p.2
  match composedOf multiTokenComposed p.1 with
  | none => .throw typeError
  | some composed =>
    let hasInvalidComposed := invalidSingleTokenAddresses.any fun address =>
      some address == composed.token0 || some address == composed.token1
    if hasInvalidComposed then pure .skip
    else
      let registeredToken0 ← findToken context (faults.findToken 0 (2 * p.2)) composed.token0
      let registeredToken1 ← findToken context (faults.findToken 0 (2 * p.2 + 1)) composed.token1
      pure (decide₁ context ⟨p.1, info, composed.token0, composed.token1⟩ registeredToken0
        registeredToken1)

/-- Here the tokens are taken to be registered: a missing one makes the read of
its status fail. The second status is read only when the first one is set. -/
def secondPass (p : Deferred × Nat) : JobEff Tokens (Option TokenRow) := do
  let registeredToken0 ← findToken context (faults.findToken 1 (2 * p.2)) p.1.token0
  let registeredToken1 ← findToken context (faults.findToken 1 (2 * p.2 + 1)) p.1.token1
  match registeredToken0, registeredToken1 with
  | none, _ => .throw typeError
  | some token0, registeredToken1 =>
    if !token0.row.status then pure none
    else
      match registeredToken1 with
      | none => .throw typeError
      | some token1 =>
        pure (if token1.row.status then some (multiRow context p.1 token0 token1) else none)

def pushed (decisions : List Decision) : List TokenRow :=
  decisions.filterMap fun
    | .push row => some row
    | _ => none

def deferred (decisions : List Decision) : List Deferred :=
  decisions.filterMap fun
    | .defer pair => some pair
    | _ => none

def createMultiTokens (multiTokenAddresses : List String) (multiTokenInfos : List InfoEntry)
    (multiTokenComposed : List PairInfo) (invalidSingleTokenAddresses : List String) :
    JobEff Tokens Unit := do
  let decisions ← .mapEach multiTokenAddresses.zipIdx
    (firstPass context faults multiTokenInfos multiTokenComposed invalidSingleTokenAddresses)
  createTokensIfNotExist (faults.createTokensIfNotExist 1) (pushed decisions)
  let multiTokenInSameChunk := deferred decisions
  .when (multiTokenInSameChunk.length > 0) do
    let rows ← .mapEach multiTokenInSameChunk.zipIdx (secondPass context faults)
    createTokensIfNotExist (faults.createTokensIfNotExist 2) (rows.filterMap id)

/-! ## The task and the run -/

/-- An entry that is no address cannot be encoded into the call. -/
def getPairsInfo (multiTokens : List (Option String)) : JobEff Tokens (List PairInfo) :=
  match multiTokens.mapM id with
  | none => .throw (rawError "invalid address")
  | some addresses => .await (context.getPairsInfo addresses)

def doTask (multiTokens : List (Option String)) : JobEff Tokens Unit := do
  let multiTokenComposed ← getPairsInfo context multiTokens
  let (uniqueMultiTokenAddresses, uniqueSingleTokenAddresses) := grouping multiTokenComposed
  let (newMultiTokenAddresses, newSingleTokenAddresses) ←
    removeRegisteredTokens context faults uniqueMultiTokenAddresses uniqueSingleTokenAddresses
  let (validSingleTokenAddresses, invalidSingleTokenAddresses) ←
    removeInvalidTokens context newMultiTokenAddresses newSingleTokenAddresses
  let (pureSingleTokenAddresses, pureInvalidSingleTokenAddresses) ←
    checkMultiTokenInSinglePosition context validSingleTokenAddresses invalidSingleTokenAddresses
  let pureMultiTokenAddresses := newMultiTokenAddresses.filterMap id
  let multiTokenInfos ← getTokenInfos context pureMultiTokenAddresses
  let singleTokenInfos ← getTokenInfos context pureSingleTokenAddresses
  .when (pureSingleTokenAddresses.length > 0)
    (createSingleTokens context faults pureSingleTokenAddresses singleTokenInfos)
  .when (pureMultiTokenAddresses.length > 0)
    (createMultiTokens context faults pureMultiTokenAddresses multiTokenInfos multiTokenComposed
      pureInvalidSingleTokenAddresses)

def chunkSize : Nat := 10

theorem chunkSize_pos : 0 < chunkSize := by decide

def networkPid : JobEff Tokens Nat := .await context.getAMMFactoryTotalLength

def schedulerPid : JobEff Tokens Nat := schedulerCursor faults.findScheduler Scheduler.pid

/-- The statements between the start of the transaction and its commit. -/
def register (multiTokens : List (Option String)) (ePid : Nat) : JobEff Tokens Unit := do
  doTask context faults multiTokens
  updateSchedulerWith faults.updateScheduler fun r => { r with pid := some ePid }

/-- The try block. -/
def crawl : JobEff Tokens Unit := do
  let networkPid ← networkPid context
  let sPid ← schedulerPid faults
  writeLog fun l => { l with total := some networkPid, current := some sPid }
  if sPid ≥ networkPid then pure ()
  else
    let ePid := chunkEnd chunkSize sPid networkPid
    writeLog fun l => { l with start := some sPid, end_ := some ePid }
    let pids := fillSequenceNumber (ePid - sPid) sPid
    let multiTokens ← .await (context.getAMMFactoryInfos pids)
    .mayFail faults.createQueryRunner
    createQueryRunner
    connect faults.connect
    startTransaction faults.startTransaction
    let _ ← register context faults multiTokens ePid
    commitTransaction faults.commitTransaction

def run : JobEff Tokens Unit := do
  writeLog fun _ => .empty
  noQueryRunner
  .tryFinally
    (.tryCatch (crawl context faults) fun e => do
      rollbackIfCreated faults.rollbackTransaction
      .throw (errorHandler e))
    releaseIfHeld

end

/-- A context in which every call answers, on a factory with these pairs. What
is no pair of the factory is a token of its own. -/
def Context.steady (pairs : List PairInfo) : Context where
  network := 1
  getAddress := some
  getAMMFactoryTotalLength := .ok pairs.length
  getAMMFactoryInfos pids := .ok (pids.map fun pid => pairs[pid]?.map PairInfo.pair)
  getPairsInfo addresses := .ok (addresses.filterMap (composedOf pairs))
  getBatchPairInfos addresses := .ok (addresses.map fun address =>
    (composedOf pairs address).getD ⟨address, some ZERO_ADDRESS, some ZERO_ADDRESS, false⟩)
  getSafePairInfos address := .answers ⟨address, some ZERO_ADDRESS, some ZERO_ADDRESS, false⟩
  getBatchCheckCA addresses := .ok (addresses.map fun _ => true)
  getBatchERC20TokenInfos addresses :=
    .ok (addresses.map fun address => .ok ⟨address, address, 18⟩)
  getSafeERC20TokenInfo address := .ok (.ok ⟨address, address, 18⟩)

end BlockchainTask.SchedulerJob.PairTemplate

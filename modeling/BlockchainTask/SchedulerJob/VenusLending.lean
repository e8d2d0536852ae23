import BlockchainTask.Helper.Decimals
import BlockchainTask.Repository.Lending
import BlockchainTask.SchedulerJob.Base

/-! # The Venus lending job

A run goes through the markets of the comptroller. A market whose underlying
token is registered gets a lending, which every run brings up to date in a
transaction of its own; one that is no longer listed has its lending disabled.
What a market throws is dropped, and the next one has its turn. -/
namespace BlockchainTask.SchedulerJob.VenusLending
open BlockchainTask.Common.Exception BlockchainTask.Helper BlockchainTask.Helper.Decimals
open BlockchainTask.Library.Decimal BlockchainTask.Library.Effect BlockchainTask.Library.Transaction
open BlockchainTask.Library.Store
open BlockchainTask.Repository.Lending BlockchainTask.SchedulerJob.Base

def ONE_DAY_SECONDS : ℕ := 86400

def ONE_YEAR_DAYS : ℕ := 365

def isZeroAddress (address : String) : Bool := decide (address = ZERO_ADDRESS)

/-- The protocol service of the job. -/
structure Context where
  protocol : ℕ
  network : ℕ
  blockTimeSecond : ℕ

/-- What the comptroller says of a market. -/
structure MarketStatus where
  isListed : Bool
  collateralFactorMantissa : ℕ

/-- The answers on a market. One that failed is zero, and `market` is null. -/
structure MarketInfos where
  underlying : String
  supplyRatePerBlock : ℕ
  borrowRatePerBlock : ℕ
  totalBorrows : ℕ
  totalReserves : ℕ
  reserveFactorMantissa : ℕ
  market : Option MarketStatus

/-- Where the database fails in the turn of one market. -/
structure MarketFaults where
  findToken : Option Thrown
  findLending : Option Thrown
  disableLending : Option Thrown
  connect : Option Thrown
  startTransaction : Option Thrown
  createLending : Option Thrown
  refreshLending : Option Thrown
  commitTransaction : Option Thrown
  rollbackTransaction : Option Thrown

def MarketFaults.none : MarketFaults :=
  ⟨.none, .none, .none, .none, .none, .none, .none, .none, .none⟩

/-- The answers of one run. Addresses come from the node in checksum case, so two
that are the same are the same text. -/
structure Env where
  context : Context
  tokens : List LendingToken
  getLendingAllMarkets : Except Thrown (List String)
  getLendingMarketInfos : String → Except Thrown MarketInfos
  getBalance : String → Except Thrown ℕ
  getSafeERC20BalanceOf : String → String → Except Thrown ℕ
  faults : String → MarketFaults
  checksummed : ∀ markets, getLendingAllMarkets = .ok markets →
    ∀ m ∈ markets, ∀ m' ∈ markets, sameText m m' → m = m'

section
variable (env : Env)

def findLending (fault : Option Thrown) (w : LendingWhere) :
    JobEff Lendings (Option (Stored LendingRow)) :=
  connectionRead fault fun db => findOne w db.tables

def updateLending (fault : Option Thrown) (w : LendingWhere) (set : LendingSet) :
    JobEff Lendings Unit :=
  connectionWrite fault (Db.setTables (updateOne w set))

/-- The same through the query runner's manager, and `createLending`. -/
def updateLendingWith (fault : Option Thrown) (w : LendingWhere) (set : LendingSet) :
    JobEff Lendings Unit :=
  managerWrite fault (fun db => updateRefused w set db.tables) (Db.setTables (updateOne w set))

def createLendingWith (fault : Option Thrown) (r : LendingRow) : JobEff Lendings Unit :=
  managerWrite fault (fun db => insertRefused r db.tables) (Db.setTables fun t => t.insertIgnore r)

def lendingWhere (market : String) (token : LendingToken) : LendingWhere :=
  ⟨env.context.protocol, token.id, market⟩

def registerLendingMarket (market : String) (token : Option LendingToken) :
    JobEff Lendings Bool :=
  match token with
  | none => pure false
  | some token => do
    createLendingWith (env.faults market).createLending (.new (lendingWhere env market token))
    pure true

/-- A `decimal` column of scale 22. Its range is looked at by the update. -/
def decimalColumn (value : Number) : Number := value.rounded 22

/-- The columns of a refresh. -/
def refreshed (infos : MarketInfos) (collateralFactorMantissa : ℕ) (token : LendingToken)
    (marketLiquidity : ℕ) : LendingSet where
  apply r :=
    let price : Number := .finite token.price_value
    let liquidityAmount := divideDecimals (.finite marketLiquidity) token.decimals
    let liquidityValue := mul liquidityAmount price
    let borrowAmount := divideDecimals (.finite infos.totalBorrows) 18
    let borrowValue := mul borrowAmount price
    let reserveAmount := divideDecimals (.finite infos.totalReserves) 18
    let reserveValue := mul reserveAmount price
    let supplyAmount := sub (add liquidityAmount borrowAmount) reserveAmount
    let supplyValue := mul supplyAmount price
    let blocksInOneYear :=
      mul (div (.finite ONE_DAY_SECONDS) (.finite env.context.blockTimeSecond))
        (.finite ONE_YEAR_DAYS)
    let supplyRate := divideDecimals (.finite infos.supplyRatePerBlock) 18
    let borrowRate := divideDecimals (.finite infos.borrowRatePerBlock) 18
    let supplyApr := mul (mul supplyRate blocksInOneYear) (.finite 100)
    let borrowApr := mul (mul borrowRate blocksInOneYear) (.finite 100)
    let collateralFactor :=
      mul (toFixed (divideDecimals (.finite collateralFactorMantissa) 18)) (.finite 100)
    let reserveFactor :=
      mul (toFixed (divideDecimals (.finite infos.reserveFactorMantissa) 18)) (.finite 100)
    { r with
      liquidity_amount := decimalColumn liquidityAmount
      liquidity_value := decimalColumn liquidityValue
      supply_amount := decimalColumn supplyAmount
      supply_value := decimalColumn supplyValue
      supply_apr := some supplyApr
      borrow_amount := decimalColumn borrowAmount
      borrow_value := decimalColumn borrowValue
      borrow_apr := some borrowApr
      reserve_amount := decimalColumn reserveAmount
      reserve_value := decimalColumn reserveValue
      collateral_factor := some collateralFactor
      reserve_factor := some reserveFactor
      status := true }
  protocol _ := rfl
  token _ := rfl
  address _ := rfl
  pid _ := rfl

def marketLiquidity (market : String) (token : LendingToken) : Except Thrown ℕ :=
  if isZeroAddress token.address then env.getBalance market
  else env.getSafeERC20BalanceOf token.address market

def refreshLendingMarket (market : String) (infos : MarketInfos) (status : MarketStatus)
    (token : LendingToken) : JobEff Lendings Unit := do
  let liquidity ← .await (marketLiquidity env market token)
  updateLendingWith (env.faults market).refreshLending (lendingWhere env market token)
    (refreshed env infos status.collateralFactorMantissa token liquidity)

/-- What a turn does between the start of its transaction and the commit. -/
def registerAndRefresh (market : String) (infos : MarketInfos) (status : MarketStatus)
    (token : LendingToken) (lendingMarket : Option (Stored LendingRow)) :
    JobEff Lendings Unit := do
  let initialized ←
    (if lendingMarket.isNone then registerLendingMarket env market (some token) else pure true)
  .when initialized (refreshLendingMarket env market infos status token)

/-- The try block of a market's turn. A market without a status is destructured;
one that is not listed is passed over only if its lending is known. -/
def attempt (market : String) : JobEff Lendings Unit := do
  let infos ← .await (env.getLendingMarketInfos market)
  match infos.market with
  | none => .throw typeError
  | some status =>
    .mayFail (env.faults market).findToken
    match findToken env.tokens env.context.network infos.underlying with
    | none => pure ()
    | some token =>
      let lendingMarket ← findLending (env.faults market).findLending (lendingWhere env market token)
      if !status.isListed && lendingMarket.isSome then
        updateLending (env.faults market).disableLending (lendingWhere env market token) .disabled
      else
        createQueryRunner
        connect (env.faults market).connect
        startTransaction (env.faults market).startTransaction
        registerAndRefresh env market infos status token lendingMarket
        commitTransaction (env.faults market).commitTransaction

/-- One turn of the loop. -/
def turn (market : String) : JobEff Lendings Unit := do
  noQueryRunner
  .tryFinally
    (.tryCatch (attempt env market) fun _ =>
      rollbackIfActive (env.faults market).rollbackTransaction)
    releaseIfHeld

end

def VenusJobBSCLendingService.run (env : Env) : JobEff Lendings Unit := do
  writeLog fun _ => .empty
  .tryCatch
    (do
      let markets ← .await env.getLendingAllMarkets
      writeLog fun l => { l with total := some markets.length }
      .forEach markets (turn env))
    fun e => .throw (errorHandler e)

end BlockchainTask.SchedulerJob.VenusLending

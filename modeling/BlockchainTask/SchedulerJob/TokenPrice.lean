import BlockchainTask.Helper.BatchContract
import BlockchainTask.Repository.Token

/-! # The crawls of the price jobs

The AMM jobs price a chunk of tokens from one batch of calls. The multi job
prices a pair by the value of one of its constituents, the single job a token by
the other constituent of its most liquid pair. The ChainLink job prices a token
by the answer of its feed. -/
namespace BlockchainTask.SchedulerJob.TokenPrice
open BlockchainTask.Common.Exception BlockchainTask.Repository.Token
open BlockchainTask.Library.Decimal
open BlockchainTask.Helper BlockchainTask.Helper.Decimals BlockchainTask.Helper.BatchContract

/-- The columns of a token that the jobs read. The price is not nullable. -/
structure TokenEntity where
  id : ℕ
  type : TokenType
  address : String
  decimals : ℕ
  total_supply : ℚ
  price_address : Option String
  price_value : ℚ
  status : Bool
  network_status : Bool
  deriving DecidableEq

/-- A token with the rows that its relations point to. -/
structure PairEntity extends TokenEntity where
  pair0 : Option TokenEntity
  pair1 : Option TokenEntity
  deriving DecidableEq

structure UpdateParam where
  id : ℕ
  price_value : Number
  total_supply : Number
  deriving DecidableEq

/-- A crawl of a chunk: what each token is priced by is found, the calls of all
tokens are sent as one batch, and each token is updated by the results of its
own calls. A token that nothing was found for has no update. -/
def crawl {T O : Type} (chunkSize : ℕ) (find : T → Except Thrown (Option O))
    (infoEncode : T → Option O → List Call)
    (updateParam : T → Option O → List Result → Except Thrown (Option UpdateParam)) (node : Node)
    (targetTokens : List T) : Except Thrown (List UpdateParam) := do
  let found ← targetTokens.mapM find
  let targets := targetTokens.zip found
  let infoBatchCall ← getBatchStaticAggregator node
    (targets.map fun target => infoEncode target.1 target.2).flatten
  let infoBatchCallMap := toSplitWithChunkSize infoBatchCall chunkSize
  let updateParams ← targets.zipIdx.mapM fun p =>
    updateParam p.1.1 p.1.2 (infoBatchCallMap.getD p.2 [])
  pure (updateParams.filterMap id)

/-! ## The multi job -/

namespace MultiAMM

/-- The first constituent that has a price address, if any. A constituent that is
null fails the read of its price. -/
def findKeyPair (pair0 pair1 : Option TokenEntity) : Except Thrown (Option TokenEntity) :=
  match pair0, pair1 with
  | some pair0, some pair1 =>
    if pair0.price_address.isSome then .ok (some pair0)
    else if pair1.price_address.isSome then .ok (some pair1)
    else .ok none
  | _, _ => .error typeError

def infoEncode (token : PairEntity) (keyPair : Option TokenEntity) : List Call :=
  match keyPair with
  | none => [⟨ZERO_ADDRESS, .text ZERO_ADDRESS⟩, ⟨ZERO_ADDRESS, .text ZERO_ADDRESS⟩]
  | some keyPair =>
    [⟨token.address, .totalSupply⟩, ⟨keyPair.address, .balanceOf token.address⟩]

/-- Both amounts are divided by the decimals of the pair. -/
def updateParam (token : PairEntity) (keyPair : Option TokenEntity) (results : List Result) :
    Except Thrown (Option UpdateParam) :=
  match keyPair with
  | none => .ok none
  | some keyPair =>
    match results with
    | [totalSupplyResult, balanceResult] => do
      let multiTokenTotalSupply ← decodedAmount totalSupplyResult token.decimals
      let keyPairTokenBalance ← decodedAmount balanceResult token.decimals
      let keyPairTotalValue := mul keyPairTokenBalance (.finite keyPair.price_value)
      let multiTokenTotalValue := mul keyPairTotalValue (.finite 2)
      let multiTokenValue :=
        if isZero multiTokenTotalSupply then ZERO
        else div multiTokenTotalValue multiTokenTotalSupply
      pure (some ⟨token.id, toFixed multiTokenValue, multiTokenTotalSupply⟩)
    | _ => .error typeError

def crawlTokenSupplyAndPrice (node : Node) (targetTokens : List PairEntity) :
    Except Thrown (List UpdateParam) :=
  crawl 2 (fun token => findKeyPair token.pair0 token.pair1) infoEncode updateParam node targetTokens

end MultiAMM

/-! ## The single job -/

namespace SingleAMM

/-- The pairs of a token that have a supply and a price. -/
def findConfiguredPairs (tokens : List PairEntity) (token : TokenEntity) : List PairEntity :=
  tokens.filter fun pair =>
    (pair.pair0.any (fun t => t.id == token.id) || pair.pair1.any (fun t => t.id == token.id)) &&
      pair.type == .MULTI && pair.total_supply != 0 && pair.price_value != 0 && pair.status &&
      pair.network_status

def findHighestLiquidityPair (configuredPairs : List PairEntity) : Option PairEntity :=
  (configuredPairs.foldl (fun (best : Option PairEntity × Number) pair =>
      let liquidity := mul (.finite pair.total_supply) (.finite pair.price_value)
      if isGreaterThan liquidity best.2 then (some pair, liquidity) else best)
    (none, ZERO)).1

/-- The constituent of the pair that is not the token. A null one fails the read
of its id or of its address. -/
def otherToken (targetPair : PairEntity) (id : ℕ) : Except Thrown TokenEntity :=
  match targetPair.pair0 with
  | none => .error typeError
  | some pair0 =>
    if pair0.id = id then
      match targetPair.pair1 with
      | none => .error typeError
      | some pair1 => .ok pair1
    else .ok pair0

/-- The pair a token is priced in, and its counterpart there. -/
def findOther (tokens : List PairEntity) (token : TokenEntity) :
    Except Thrown (Option (PairEntity × TokenEntity)) :=
  match findHighestLiquidityPair (findConfiguredPairs tokens token) with
  | none => .ok none
  | some targetPair => (otherToken targetPair token.id).map fun other => some (targetPair, other)

def infoEncode (token : TokenEntity) (other : Option (PairEntity × TokenEntity)) : List Call :=
  match other with
  | none =>
    [⟨token.address, .totalSupply⟩, ⟨ZERO_ADDRESS, .text NULL_BYTE⟩,
      ⟨ZERO_ADDRESS, .text NULL_BYTE⟩]
  | some (targetPair, other) =>
    [⟨token.address, .totalSupply⟩, ⟨token.address, .balanceOf targetPair.address⟩,
      ⟨other.address, .balanceOf targetPair.address⟩]

def updateParam (token : TokenEntity) (other : Option (PairEntity × TokenEntity))
    (results : List Result) : Except Thrown (Option UpdateParam) :=
  match other with
  | none => .ok none
  | some (_, other) =>
    match results with
    | [totalSupplyResult, targetResult, otherResult] => do
      let targetTokenTotalSupply ← decodedAmount totalSupplyResult token.decimals
      let targetTokenBalance ← decodedAmount targetResult token.decimals
      let otherTokenBalance ← decodedAmount otherResult other.decimals
      let otherTokenValueInPair := mul otherTokenBalance (.finite other.price_value)
      let targetTokenValue := div otherTokenValueInPair targetTokenBalance
      pure (some ⟨token.id, toFixed targetTokenValue, targetTokenTotalSupply⟩)
    | _ => .error typeError

def crawlTokenSupplyAndPrice (node : Node) (tokens : List PairEntity)
    (targetTokens : List TokenEntity) : Except Thrown (List UpdateParam) :=
  crawl 3 (findOther tokens) infoEncode updateParam node targetTokens

end SingleAMM

/-! ## The ChainLink job -/

namespace ChainLink

/-- An entry of `getBatchChainLinkData`. -/
structure Feed where
  answer : ℕ
  decimals : ℕ

def MAX_SAFE_INTEGER : ℕ := 2 ^ 53 - 1

/-- Without an answer, or without decimals, there is no update. A number is
shifted by no more than a safe integer. -/
def updateParam (token : TokenEntity) (feed : Option Feed) (pureTotalSupply : Option ℕ) :
    Except Thrown (Option UpdateParam) :=
  match feed with
  | none => .error typeError
  | some feed =>
    if isZero (.finite feed.answer) || isZero (.finite feed.decimals) then .ok none
    else if MAX_SAFE_INTEGER < feed.decimals then
      .error (rawError "[BigNumber Error] Argument out of range")
    else
      match pureTotalSupply with
      | none => .error typeError
      | some pureTotalSupply =>
        let priceValue := divideDecimals (.finite feed.answer) feed.decimals
        let totalSupply := divideDecimals (.finite pureTotalSupply) token.decimals
        .ok (some ⟨token.id, toFixed priceValue, totalSupply⟩)

def crawlTokenSupplyAndPrice (getBatchERC20TotalSupply : List String → Except Thrown (List ℕ))
    (getBatchChainLinkData : List (Option String) → Except Thrown (List Feed))
    (targetTokens : List TokenEntity) : Except Thrown (List UpdateParam) := do
  let totalSupplies ← getBatchERC20TotalSupply (targetTokens.map TokenEntity.address)
  let chainLinkData ← getBatchChainLinkData (targetTokens.map TokenEntity.price_address)
  let updateParams ← targetTokens.zipIdx.mapM fun p =>
    updateParam p.1 chainLinkData[p.2]? totalSupplies[p.2]?
  pure (updateParams.filterMap id)

end ChainLink

end BlockchainTask.SchedulerJob.TokenPrice

import BlockchainTask.Common.Exception
import BlockchainTask.Helper.NumericText
import BlockchainTask.Helper
import BlockchainTask.Library.Distinct

/-! # The swap search

`SwapService.search` looks for the best trade of one token for another on every
AMM protocol of a chain. It builds the pairs a trade could go through from the
two tokens and the base tokens of the token table, computes the address of each
pair for each protocol's factory, reads the reserves in one batch, and hands the
pairs that exist to the router of the SDK. The services of the protocols are
found when the program starts. -/
namespace BlockchainTask.Swap.SwapService
open BlockchainTask.Common.Exception BlockchainTask.Helper BlockchainTask.Library.Decimal
open BlockchainTask.Helper.Decimals BlockchainTask.Helper.NumericText
open BlockchainTask.Library.Distinct

/-! ## Rows

The columns that a search reads. A row holds the rows its relations load. -/

structure Network where
  id : Nat
  chain_id : Nat
  multi_call_address : String
  status : Bool
  deriving DecidableEq

structure TokenColumns where
  id : Nat
  network : Network
  address : String
  name : String
  symbol : String
  decimals : Nat
  status : Bool
  swap_base : Bool
  deriving DecidableEq

structure Token extends TokenColumns where
  wrapped : Option TokenColumns
  deriving DecidableEq

structure Protocol where
  id : Nat
  name : String
  network : Network
  status : Bool
  use_amm : Bool
  deriving DecidableEq

/-- The tables, with their primary keys and the relations to the networks. -/
structure Db where
  networks : List Network
  tokens : List Token
  protocols : List Protocol
  network_id : (networks.map Network.id).Nodup
  protocol_id : (protocols.map Protocol.id).Nodup
  token_network : ∀ token ∈ tokens, token.network ∈ networks
  protocol_network : ∀ protocol ∈ protocols, protocol.network ∈ networks

/-! ## The SDK -/

structure TokenInstance where
  chainId : Nat
  address : String
  decimals : Nat
  symbol : String
  name : String
  deriving DecidableEq

namespace TokenInstance

def equals (a b : TokenInstance) : Bool := a.chainId == b.chainId && a.address == b.address

def sortsBefore (a b : TokenInstance) : Bool :=
  decide (toLowerCase a.address < toLowerCase b.address)

end TokenInstance

structure Pair where
  token0 : TokenInstance
  token1 : TokenInstance
  reserve0 : Nat
  reserve1 : Nat
  deriving DecidableEq

structure CurrencyAmount where
  currency : TokenInstance
  quotient : Int

structure Trade where
  executionPrice : ℚ
  /-- `outputAmount.toFixed()`. -/
  outputAmount : String

def MaxUint256 : Nat := 2 ^ 256 - 1

/-- `BigNumber.config({ EXPONENTIAL_AT: 100 })`: a number of more digits is
written with an exponent. -/
def EXPONENTIAL_AT : Nat := 100

/-- `CurrencyAmount.fromRawAmount`. The amount is read from the text of a
number, which is an integer literal unless it has a point or an exponent. -/
def fromRawAmount (currency : TokenInstance) (rawAmount : Number) : Except Thrown CurrencyAmount :=
  match rawAmount with
  | .finite q =>
    if q.den = 1 ∧ |q| < 10 ^ EXPONENTIAL_AT then
      if q.num ≤ MaxUint256 then .ok ⟨currency, q.num⟩
      else .error (rawError "Invariant failed: AMOUNT")
    else .error (rawError "Cannot convert to a BigInt")
  | _ => .error (rawError "Cannot convert to a BigInt")

/-! ## The surroundings -/

/-- The data that a call for reserves returned. -/
inductive ReturnData where
  | null
  | reserves (reserve0 reserve1 : Nat)
  | malformed
  deriving DecidableEq

structure Result where
  success : Bool
  returnData : ReturnData
  deriving DecidableEq

/-- A node: its answer to the call of `getReserves` at an address, and whether
the request for a batch fails. -/
structure Node where
  answer : String → Result
  fault : Option Thrown

/-- A service of `src/defi`, as far as a search reads it. -/
structure Service where
  name : String
  chainId : Nat
  ammFactoryAddress : Option String
  ammFactoryInitCodeHash : Option String

/-- The libraries that addresses are computed with, and the services. -/
structure Environment where
  getAddress : String → Option String
  isBytesLike : String → Bool
  getCreate2Address : String → String × String → String → String
  services : List Service

abbrev Router : Type :=
  List Pair → CurrencyAmount → TokenInstance → Nat → Except Thrown (List Trade)

section
variable (env : Environment)

/-- `new TokenInstance`. -/
def tokenInstance (chainId : Nat) (token : TokenColumns) : Except Thrown TokenInstance :=
  if token.decimals < 255 then
    match env.getAddress token.address with
    | some address => .ok ⟨chainId, address, token.decimals, token.symbol, token.name⟩
    | none => .error (rawError "is not a valid address")
  else .error (rawError "Invariant failed: DECIMALS")

def isAddress (address : Option String) : Bool := (address.bind env.getAddress).isSome

def isBytes32 (value : Option String) : Bool := value.any env.isBytesLike

/-! ## The start of the program -/

/-- `onModuleInit` of a service: its network and its protocol have to be there. -/
def onModuleInit (db : Db) (service : Service) : Except Thrown (Nat × Service) :=
  match db.networks.find? fun network => network.chain_id == service.chainId with
  | none => .error typeError
  | some network =>
    match db.protocols.find? fun protocol =>
        toLowerCase protocol.name == toLowerCase service.name &&
          protocol.network.id == network.id with
    | none => .error typeError
    | some protocol => .ok (protocol.id, service)

/-- Of the services set for an id the last one. -/
def getService (services : List (Nat × Service)) (id : Nat) : Option Service :=
  (services.reverse.find? fun entry => entry.1 == id).map Prod.snd

/-- `protocolService.search({ useAMM: true })`. -/
def ammProtocols (db : Db) : List Protocol :=
  db.protocols.filter fun protocol => protocol.status && protocol.network.status && protocol.use_amm

/-- A protocol with the factory of its service. -/
structure ProtocolService where
  protocol : Protocol
  chainId : Nat
  ammFactoryAddress : String
  ammFactoryInitCodeHash : String
  deriving DecidableEq

/-- What the bootstrap sets for a protocol. -/
def withFactory (services : List (Nat × Service)) (protocol : Protocol) :
    Except Thrown (Option ProtocolService) :=
  match getService services protocol.id with
  | none => .error typeError
  | some service =>
    match service.ammFactoryAddress, service.ammFactoryInitCodeHash with
    | some factory, some hash =>
      .ok (if isAddress env (some factory) && isBytes32 env (some hash) then
        some ⟨protocol, service.chainId, factory, hash⟩ else none)
    | _, _ => .ok none

/-- The entries of `protocolWithService`, in the order they are set. -/
def onApplicationBootstrap (db : Db) : Except Thrown (List ProtocolService) := do
  let services ← env.services.mapM (onModuleInit db)
  let entries ← (ammProtocols db).mapM (withFactory env services)
  pure (entries.filterMap id)

/-- `protocolWithService.get(chainId)`. -/
def getProtocolWithService (entries : List ProtocolService) (chainId : Nat) :
    Option (List ProtocolService) :=
  match entries.filter fun entry => entry.chainId == chainId with
  | [] => none
  | entry :: rest => some (entry :: rest)

/-! ## The pairs to look for -/

def isZeroAddress (address : String) : Bool := address == ZERO_ADDRESS

/-- The token that is traded: a native one is traded as its wrapped token, which
may not be there. -/
def traded (token : Token) : Except Thrown TokenColumns :=
  if isZeroAddress token.address then
    match token.wrapped with
    | some wrapped => .ok wrapped
    | none => .error typeError
  else .ok token.toTokenColumns

def getInOutPutTokenInstances (chainId : Nat) (inputToken outputToken : Token) :
    Except Thrown (TokenInstance × TokenInstance) := do
  let input ← traded inputToken
  let inputInstance ← tokenInstance env chainId input
  let output ← traded outputToken
  let outputInstance ← tokenInstance env chainId output
  pure (inputInstance, outputInstance)

/-- `findTokens({ status: true, swap_base: true })`. -/
def baseSwapTokens (db : Db) : List Token :=
  db.tokens.filter fun token => token.status && token.swap_base

def getCommonPathTokenInstances (db : Db) (chainId : Nat) : Except Thrown (List TokenInstance) :=
  (baseSwapTokens db).mapM fun token => tokenInstance env chainId token.toTokenColumns

def samePair (p q : TokenInstance × TokenInstance) : Bool :=
  p.1.equals q.1 && p.2.equals q.2 || p.1.equals q.2 && p.2.equals q.1

def sorted (p : TokenInstance × TokenInstance) : TokenInstance × TokenInstance :=
  if p.1.sortsBefore p.2 then p else (p.2, p.1)

def getAllCurrencyCombinations (tokenA tokenB : TokenInstance) (commonPath : List TokenInstance) :
    List (TokenInstance × TokenInstance) :=
  let basePairs := (commonPath.flatMap fun base =>
      commonPath.map fun otherBase => (base, otherBase))
    |>.filter fun p => !p.1.equals p.2
  let pairs := ([(tokenA, tokenB)] ++ commonPath.map (fun base => (tokenA, base)) ++
    commonPath.map (fun base => (tokenB, base)) ++ basePairs).filter fun p => !p.1.equals p.2
  (filterFirstIndex samePair pairs).map sorted

def computePairAddress (factoryAddress factoryInitHash token0Address token1Address : String) :
    String :=
  let tokens := if toLowerCase token0Address < toLowerCase token1Address
    then (token0Address, token1Address) else (token1Address, token0Address)
  env.getCreate2Address factoryAddress tokens factoryInitHash

/-! ## Their reserves -/

/-- The network of a chain as it was read at the start: the last row of its id. -/
def networkByChainId (db : Db) (chainId : Nat) : Option Network :=
  (db.networks.filter fun network => network.chain_id == chainId).getLast?

def getBatchStaticAggregator (node : Node) (addresses : List String) :
    Except Thrown (List Result) :=
  match node.fault with
  | some e => .error e
  | none => .ok (addresses.map node.answer)

/-- The reserves of a pair that exists, with the pair's tokens. -/
def pairOf (tokens : TokenInstance × TokenInstance) (result : Result) :
    Except Thrown (Option Pair) :=
  if result.success && result.returnData != .null then
    match result.returnData with
    | .reserves reserve0 reserve1 => .ok (some ⟨tokens.1, tokens.2, reserve0, reserve1⟩)
    | _ => .error (rawError "data out-of-bounds")
  else .ok none

/-- The pairs of a protocol. Without a part of the batch there is nothing to
read from. -/
def pairList (tokens : List (TokenInstance × TokenInstance)) (results : Option (List Result)) :
    Except Thrown (List Pair) :=
  match results with
  | none => .error typeError
  | some results => do
    let pairs ← (tokens.zip results).mapM fun p => pairOf p.1 p.2
    pure (pairs.filterMap id)

def getProtocolPairs (node : Network → Node) (db : Db) (entries : List ProtocolService)
    (chainId : Nat) (tokens : List (TokenInstance × TokenInstance)) :
    Except Thrown (List (Protocol × List Pair)) := do
  let protocolWithFactories ← (getProtocolWithService entries chainId).elim (.error typeError) .ok
  let pairAddresses := (protocolWithFactories.map fun factory => tokens.map fun p =>
    computePairAddress env factory.ammFactoryAddress factory.ammFactoryInitCodeHash
      p.1.address p.2.address).flatten
  let network ← (networkByChainId db chainId).elim (.error typeError) .ok
  let reserveInfoBatchCall ← getBatchStaticAggregator (node network) pairAddresses
  let reserveInfoBatchCallMap := toSplitWithChunkSize reserveInfoBatchCall tokens.length
  protocolWithFactories.zipIdx.mapM fun p => do
    let pairs ← pairList tokens reserveInfoBatchCallMap[p.2]?
    pure (p.1.protocol, pairs)

/-! ## The best trade -/

/-- `isTradeBetter`, for a least gain of half a percent. -/
def isTradeBetter (tradeA tradeB : Option Trade) : Bool :=
  match tradeA, tradeB with
  | some _, none => false
  | none, some _ => true
  | none, none => false
  | some a, some b => decide (a.executionPrice * (50 / 10000 + 1) < b.executionPrice)

/-- One number of hops after the other. -/
def bestOf (currentTrades : List (Except Thrown (List Trade))) (bestTrade : Option Trade) :
    Except Thrown (Option Trade) :=
  match currentTrades with
  | [] => .ok bestTrade
  | current :: rest => do
    let trades ← current
    bestOf rest (if isTradeBetter bestTrade trades.head? then trades.head? else bestTrade)

def maxHops : Nat := 3

def getBestTrade (router : Router) (inputToken outputToken : TokenInstance) (pairs : List Pair)
    (inputAmount : Number) : Except Thrown (Option Trade) := do
  let amountSpecified ← fromRawAmount inputToken inputAmount
  bestOf ((List.range' 1 maxHops).map fun hops => router pairs amountSpecified outputToken hops)
    none

/-! ## The search -/

structure Item where
  protocol : Protocol
  inputToken : Token
  outputToken : Token
  input_amount : String
  output_amount : String
  deriving DecidableEq

/-- What is listed for a protocol. -/
def protocolItem (router : Router) (inputInstance outputInstance : TokenInstance)
    (inputToken outputToken : Token) (inputAmount : NumberString)
    (allowed : Protocol × List Pair) : Except Thrown (Option Item) := do
  let amount := multiplyDecimals (.finite inputAmount.value) inputToken.decimals
  let bestTrade ← getBestTrade router inputInstance outputInstance allowed.2 amount
  pure (bestTrade.map fun trade =>
    ⟨allowed.1, inputToken, outputToken, inputAmount.text, trade.outputAmount⟩)

def search (router : Router) (node : Network → Node) (db : Db) (entries : List ProtocolService)
    (chainId : Nat) (inputToken outputToken : Token) (inputAmount : NumberString) :
    Except Thrown (List Item) := do
  let (inputTokenInstance, outputTokenInstance) ←
    getInOutPutTokenInstances env chainId inputToken outputToken
  let commonPath ← getCommonPathTokenInstances env db chainId
  let allCurrencyCombinations :=
    getAllCurrencyCombinations inputTokenInstance outputTokenInstance commonPath
  let allowedProtocolWithPairs ←
    getProtocolPairs env node db entries chainId allCurrencyCombinations
  let items ← allowedProtocolWithPairs.mapM
    (protocolItem router inputTokenInstance outputTokenInstance inputToken outputToken inputAmount)
  pure (items.filterMap id)

/-! ## The request -/

/-- `tokenService.search({ id })`, of which the first row is read. -/
def searchById (db : Db) (id : Nat) : Option Token :=
  db.tokens.find? fun token => token.network.status && token.status && token.id == id

/-- The token that is searched for: one with a wrapped token is replaced by it,
and of that row the relations are not loaded. -/
def unwrapped (token : Token) : Token :=
  match token.wrapped with
  | none => token
  | some wrapped => ⟨wrapped, none⟩

/-- The response: `itemCount` and `item`. What the search throws is only logged,
and then there is no list to count. -/
def getTokenSwapList (router : Router) (node : Network → Node) (db : Db)
    (entries : List ProtocolService) (inputTokenId outputTokenId : Nat)
    (inputTokenAmount : NumberString) : Except Thrown (Nat × List Item) :=
  match searchById db inputTokenId, searchById db outputTokenId with
  | none, _ => .error (.exception ExceptionCode.ERR900 .Fatal none)
  | some _, none => .error (.exception ExceptionCode.ERR901 .Fatal none)
  | some inputToken, some outputToken =>
    let chainId := inputToken.network.chain_id
    if chainId ≠ outputToken.network.chain_id then
      .error (.exception ExceptionCode.ERR902 .Fatal none)
    else if (getProtocolWithService entries chainId).isNone then
      .error (.exception ExceptionCode.ERR200 .Fatal none)
    else
      match search env router node db entries chainId (unwrapped inputToken)
          (unwrapped outputToken) inputTokenAmount with
      | .ok items => .ok (items.length, items)
      | .error _ => .error typeError

end

end BlockchainTask.Swap.SwapService

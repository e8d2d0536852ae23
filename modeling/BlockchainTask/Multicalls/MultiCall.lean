import BlockchainTask.Library.Abi
import BlockchainTask.Library.IndexedLoop

/-! # The batch contract

`MultiCall.sol`: for each address of a list it calls functions of the contract
there, and puts what it is answered into an array. The functions named `safe`
have a default for a call that failed or returned no bytes; any other bytes are
decoded, and bytes that do not decode revert the whole batch. Every function is
a view, so what it sees of the chain is fixed; a called contract may still answer
differently from one item of a batch to the next. -/
namespace BlockchainTask.Multicalls.MultiCall
open BlockchainTask.Library.Abi BlockchainTask.Library.IndexedLoop

abbrev Address : Type := ℕ

/-- Why an execution ends without a result. -/
inductive Revert where
  /-- `abi.decode`, which gives no reason. -/
  | decoding
  /-- An index outside of an array. -/
  | outOfBounds

/-- `abi.encodeWithSelector`. -/
structure Calldata where
  selector : ℕ
  arguments : List ℕ
  deriving DecidableEq

/-- What a `staticcall` gives back. -/
structure Returned where
  success : Bool
  data : Bytes

/-- What the contract sees of the chain. -/
structure Chain where
  staticcall : Address → Calldata → Returned
  balance : Address → ℕ

/-! ## Helper, Constant -/

def isEmptyBytes (bytes : Bytes) : Bool := bytes.length == 0

/-- The bytes of `"UNKNOWN"`. -/
def UNKNOWN_STRING : Bytes := [85, 78, 75, 78, 79, 87, 78]

def UNKNOWN_UINT : ℕ := 0

def UNKNOWN_ADDRESS : Address := 0

section
variable {α : Type}

/-- `abi.decode`, which reverts. -/
def abiDecode (decoder : Bytes → Option α) (data : Bytes) : Except Revert α :=
  (decoder data).elim (.error .decoding) .ok

/-- `success && !isEmptyBytes(checked) ? abi.decode(data) : unknown`. -/
def decodeIf (decoder : Bytes → Option α) (success : Bool) (checked data : Bytes) (unknown : α) :
    Except Revert α :=
  if success && !isEmptyBytes checked then abiDecode decoder data else .ok unknown

/-- The same, where the bytes that are checked are those that are decoded. -/
def safeDecode (decoder : Bytes → Option α) (unknown : α) (returned : Returned) :
    Except Revert α :=
  decodeIf decoder returned.success returned.data returned.data unknown

/-- `result = new …[](xs.length)`, filled by index. -/
def batchOf {ξ : Type} (item : ℕ → ξ → Except Revert α) (blank : α) (xs : List ξ) :
    Except Revert (List α) :=
  forIndex (assign .outOfBounds item id) 0 xs (List.replicate xs.length blank)

end

/-! ## Pair -/

structure PairInfo where
  pair : Address
  token0 : Address
  token1 : Address
  deriving DecidableEq

def token0 : Calldata := ⟨0x0dfe1681, []⟩

def token1 : Calldata := ⟨0xd21220a7, []⟩

def isPair (chain : Chain) (pair : Address) : Bool :=
  let token0Returned := chain.staticcall pair token0
  let token1Returned := chain.staticcall pair token1
  token0Returned.success && token1Returned.success && !isEmptyBytes token0Returned.data &&
    !isEmptyBytes token1Returned.data

/-- For either token it is the bytes of the first one that are checked. -/
def safePairInfo (chain : Chain) (pair : Address) : Except Revert PairInfo := do
  let token0Returned := chain.staticcall pair token0
  let token1Returned := chain.staticcall pair token1
  let token0Address ← decodeIf (decodeUint 160) token0Returned.success token0Returned.data
    token0Returned.data UNKNOWN_ADDRESS
  let token1Address ← decodeIf (decodeUint 160) token1Returned.success token0Returned.data
    token1Returned.data UNKNOWN_ADDRESS
  pure ⟨pair, token0Address, token1Address⟩

def getBatchIsPairs (chain : ℕ → Chain) (pairs : List Address) : Except Revert (List Bool) :=
  batchOf (fun i pair => .ok (isPair (chain i) pair)) false pairs

def getBatchPairInfos (chain : ℕ → Chain) (pairs : List Address) :
    Except Revert (List PairInfo) :=
  batchOf (fun i pair => safePairInfo (chain i) pair) ⟨0, 0, 0⟩ pairs

/-! ## ERC20 -/

structure ERC20Info where
  name : Bytes
  symbol : Bytes
  decimals : ℕ
  deriving DecidableEq

def safeERC20Name (chain : Chain) (token : Address) : Except Revert Bytes :=
  safeDecode decodeString UNKNOWN_STRING (chain.staticcall token ⟨0x06fdde03, []⟩)

def safeERC20Symbol (chain : Chain) (token : Address) : Except Revert Bytes :=
  safeDecode decodeString UNKNOWN_STRING (chain.staticcall token ⟨0x95d89b41, []⟩)

def safeERC20Decimals (chain : Chain) (token : Address) : Except Revert ℕ :=
  safeDecode (decodeUint 256) UNKNOWN_UINT (chain.staticcall token ⟨0x313ce567, []⟩)

def safeERC20TotalSupply (chain : Chain) (token : Address) : Except Revert ℕ :=
  safeDecode (decodeUint 256) UNKNOWN_UINT (chain.staticcall token ⟨0x18160ddd, []⟩)

def safeERC20BalanceOf (chain : Chain) (token holder : Address) : Except Revert ℕ :=
  safeDecode (decodeUint 256) UNKNOWN_UINT (chain.staticcall token ⟨0x70a08231, [holder]⟩)

def getBatchERC20TotalSupply (chain : ℕ → Chain) (tokens : List Address) :
    Except Revert (List ℕ) :=
  batchOf (fun i token => safeERC20TotalSupply (chain i) token) 0 tokens

def getERC20TokenInfos (chain : Chain) (token : Address) : Except Revert ERC20Info := do
  let name ← safeERC20Name chain token
  let symbol ← safeERC20Symbol chain token
  let decimals ← safeERC20Decimals chain token
  pure ⟨name, symbol, decimals⟩

def getBatchERC20Infos (chain : ℕ → Chain) (tokens : List Address) :
    Except Revert (List ERC20Info) :=
  batchOf (fun i token => getERC20TokenInfos (chain i) token) ⟨[], [], 0⟩ tokens

/-- What is written for a user and a token; the zero address stands for the
native coin. -/
def balanceOfUser (chain : Chain) (user token : Address) : Except Revert ℕ :=
  if token ≠ 0 then safeERC20BalanceOf chain token user else .ok (chain.balance user)

def getBatchERC20Balances (chain : ℕ → ℕ → Chain) (users tokens : List Address) :
    Except Revert (List ℕ) :=
  forIndex (fun i user => forIndex
      (assign .outOfBounds (fun j token => balanceOfUser (chain i j) user token)
        fun j => j + tokens.length * i) 0 tokens)
    0 users (List.replicate (tokens.length * users.length) 0)

/-! ## ChainLink -/

structure ChainLinkData where
  answer : ℕ
  decimals : ℕ
  deriving DecidableEq

/-- `latestRoundData`: of the five values the second one is the answer. -/
def decodeRoundData (data : Bytes) : Option ℕ :=
  (decodeUints [80, 256, 256, 256, 80] data).bind fun values => values[1]?

def safeChainLinkData (chain : Chain) (feed : Address) : Except Revert ChainLinkData := do
  let answer ← safeDecode decodeRoundData UNKNOWN_UINT (chain.staticcall feed ⟨0xfeaf968c, []⟩)
  let decimals ← safeDecode (decodeUint 256) 0 (chain.staticcall feed ⟨0x313ce567, []⟩)
  pure ⟨answer, decimals⟩

def getBatchChainLinkData (chain : ℕ → Chain) (targetFeeds : List Address) :
    Except Revert (List ChainLinkData) :=
  batchOf (fun i targetFeed => safeChainLinkData (chain i) targetFeed) ⟨0, 0⟩ targetFeeds

end BlockchainTask.Multicalls.MultiCall

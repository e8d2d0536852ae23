import BlockchainTask.Helper.AnyArray
import BlockchainTask.Interaction.InteractionService
import BlockchainTask.Repository.NFToken

/-! # The NF tokens of a wallet

A service with NF tokens finds the wallet's interactions with its contracts and
runs the function of the contract for each. The functions read one contract each
and are otherwise the same; what differs between the services is how an address
that was found is told apart. -/
namespace BlockchainTask.Defi.WalletNFTokens
open BlockchainTask.Common.Exception BlockchainTask.Helper BlockchainTask.Helper.AnyArray
open BlockchainTask.Interaction.InteractionService BlockchainTask.Repository.NFToken
open BlockchainTask.SchedulerJob.InteractionTemplate (Interactions)

/-! ## The tokens of one contract -/

/-- What a call of `tokenOfOwnerByIndex` came back with. -/
inductive IndexResult where
  | index (index : Nat)
  /-- It failed, or there are no bytes. -/
  | invalid
  | malformed
  deriving DecidableEq

/-- The node, for a contract and a wallet, and the NF-token table, for a query, a
protocol, a contract and the indexes. -/
structure Surroundings (Query : Type) where
  getSafeERC721BalanceOf : String → String → Except Thrown Nat
  getBatchStaticAggregator : String → String → List Nat → Except Thrown (List IndexResult)
  search : Query → Nat → String → List String → Except Thrown (List NFTokenRow)

def decodeIndex (result : IndexResult) : Except Thrown (Option Nat) :=
  match result with
  | .index index => .ok (some index)
  | .invalid => .ok none
  | .malformed => .error (rawError "data out-of-bounds")

section
variable {Query : Type} (surroundings : Surroundings Query) (protocol : Nat)
variable (nfTokenAddress walletAddress : String) (params : Query)

/-- The functions `getNFTokenWalletInfo`, `getNFToken2WalletInfo` and so on, each
for the contract it is named after. -/
def getNFTokenWalletInfo : Except Thrown (List NFTokenRow) := do
  let balanceOfWallet ← surroundings.getSafeERC721BalanceOf nfTokenAddress walletAddress
  if balanceOfWallet = 0 then pure []
  else
    let sequenceIndex := fillSequenceNumber balanceOfWallet 0
    let batchCall ←
      surroundings.getBatchStaticAggregator nfTokenAddress walletAddress sequenceIndex
    let decoded ← batchCall.mapM decodeIndex
    let tokenOfOwnerByIndex := decoded.filterMap id
    surroundings.search params protocol nfTokenAddress (tokenOfOwnerByIndex.map Nat.repr)

end

/-! ## The services -/

/-- What a case of the switch runs: the function of a contract, or nothing when no
case applies. -/
abbrev Case : Type := Option String

/-- A service: its contracts, and its switch on an address. -/
structure NFTService where
  contracts : List String
  switchAddress : String → Case

namespace AirNftBSCService

def nfTokenAddress : String := "0xF5db804101d8600c26598A1Ba465166c33CdAA4b"

def switchAddress (address : String) : Case :=
  if address = nfTokenAddress then some nfTokenAddress else none

def service : NFTService := ⟨[nfTokenAddress], switchAddress⟩

end AirNftBSCService

namespace ApeSwapBSCService

def nfTokenAddress : String := "0x6eca7754007d22d3F557740d06FeD4A031BeFE1e"

def switchAddress (address : String) : Case :=
  if address = nfTokenAddress then some nfTokenAddress else none

def service : NFTService := ⟨[nfTokenAddress], switchAddress⟩

end ApeSwapBSCService

namespace PancakeSwapBSCService

def nfTokenAddress : String := "0xDf7952B35f24aCF7fC0487D01c8d5690a60DBa07"
def nfToken2Address : String := "0x0a8901b0E25DEb55A87524f0cC164E9644020EBA"
def nfToken3Address : String := "0x44d85770aEa263F9463418708125Cd95e308299B"
def nfToken4Address : String := "0x3da8410e6EF658c06E277a2769816688c37496CF"
def nfToken5Address : String := "0x11304895f41C5A9b7fBFb0C4B011A92f1020EF96"

def switchAddress (address : String) : Case :=
  if toLowerCase address = toLowerCase nfTokenAddress then some nfTokenAddress
  else if toLowerCase address = toLowerCase nfToken2Address then some nfToken2Address
  else if toLowerCase address = toLowerCase nfToken3Address then some nfToken3Address
  else if toLowerCase address = toLowerCase nfToken4Address then some nfToken4Address
  else if toLowerCase address = toLowerCase nfToken5Address then some nfToken5Address
  else none

def service : NFTService :=
  ⟨[nfTokenAddress, nfToken2Address, nfToken3Address, nfToken4Address, nfToken5Address],
    switchAddress⟩

end PancakeSwapBSCService

/-! ## The request -/

section
variable {Query : Type} (surroundings : Surroundings Query) (protocol : Nat)
variable (service : NFTService) (interactions : Interactions) (network : Nat)
variable (walletAddress : String) (params : Query)

/-- The addresses of the contracts of a service that a wallet interacted with, as
they are stored. -/
def contractAddresses : List String :=
  findInteractionAddresses interactions (some network) walletAddress service.contracts

/-- The result of a case. -/
def runCase (called : Case) : Except Thrown (Element NFTokenRow) :=
  match called with
  | some contract =>
    (getNFTokenWalletInfo surroundings protocol contract walletAddress params).map .array
  | none => .ok .undefined

def getWalletNFTokens : Except Thrown (List (Element NFTokenRow)) :=
  let addresses := contractAddresses service interactions network walletAddress
  if addresses.length = 0 then .ok []
  else do
    let result ← addresses.mapM fun address =>
      runCase surroundings protocol walletAddress params (service.switchAddress address)
    pure (flat result)

/-- The contracts whose functions a request runs, once for each time. -/
def runs : List String :=
  (contractAddresses service interactions network walletAddress).filterMap service.switchAddress

end

end BlockchainTask.Defi.WalletNFTokens

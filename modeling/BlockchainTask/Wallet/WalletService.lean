import BlockchainTask.Helper.AnyArray
import BlockchainTask.Helper.GroupBy
import BlockchainTask.Interaction.InteractionService

/-! # The farms of a wallet

`WalletService.getWalletFarmInfos` finds the farms that a wallet interacted with,
groups them by their protocols, asks the services of all protocols at once, and
puts what they answer into one array as the answers come. -/
namespace BlockchainTask.Wallet.WalletService
open BlockchainTask.Common.Exception BlockchainTask.Helper.AnyArray BlockchainTask.Helper.GroupBy
open BlockchainTask.Interaction.InteractionService
open BlockchainTask.SchedulerJob.InteractionTemplate (Interactions)

/-- A row of the farm table, as far as a service reads it; `protocol` is
`protocol.id`. -/
structure Farm where
  id : Nat
  protocol : Nat
  name : String
  address : Option String
  pid : Option Nat
  deriving DecidableEq

/-- A farm with what the wallet has in it. -/
structure FarmInfoItem extends Farm where
  stake_amount : List String
  reward_amount : List String
  deriving DecidableEq

/-- The tables that are read: the interactions, and what the farm table answers
to a query. -/
structure Tables (Query : Type) where
  /-- The addresses of the farms that a query finds, each once. -/
  searchDistinct : Query → List String
  /-- The farms that a query finds at some addresses. -/
  search : Query → List String → List Farm
  interactions : Interactions

/-- The services of the protocols: what `getWalletFarms` answers for farms and a
wallet. -/
abbrev Services : Type := Nat → Option (List Farm → String → Except Thrown (List FarmInfoItem))

/-- The order in which calls that are made at once are answered. -/
structure Completion where
  settle : List String → List String
  settle_perm : ∀ ids, (settle ids).Perm ids

/-- The answers come in the order of the calls. -/
def Completion.inOrder : Completion := ⟨id, fun _ => .rfl⟩

section
variable {Query : Type} (tables : Tables Query) (services : Services) (completion : Completion)

/-- What the service of a protocol answers for its group of farms. -/
def walletFarmInfo (groups : Groups Farm) (walletAddress : String) (id : String) :
    Except Thrown (List FarmInfoItem) :=
  match services (number id) with
  | none => .error typeError
  | some getWalletFarms => getWalletFarms (groups.property id) walletAddress

/-- `if (walletFarmInfo.length > 0) output.push(walletFarmInfo)`. -/
def collect (answer : String → Except Thrown (List FarmInfoItem))
    (output : List (Element FarmInfoItem)) (id : String) :
    Except Thrown (List (Element FarmInfoItem)) := do
  let info ← answer id
  pure (if info.length > 0 then output ++ [.array info] else output)

/-- The farms of a request: those that the query finds at an address that the
wallet interacted with. -/
def walletFarms (walletAddress : String) (params : Query) : List Farm :=
  let distinctFarmAddress := tables.searchDistinct params
  let interactions :=
    findInteractionAddresses tables.interactions none walletAddress distinctFarmAddress
  if interactions.length = 0 then [] else tables.search params interactions

/-- `groupBy(farms, 'protocol.id')`. -/
def groupFarmByProtocolId (farms : List Farm) : Groups Farm :=
  groupBy farms fun farm => farm.protocol.repr

def getWalletFarmInfos (walletAddress : String) (params : Query) :
    Except Thrown (List (Element FarmInfoItem)) :=
  let farms := walletFarms tables walletAddress params
  if farms.length = 0 then .ok []
  else
    let groups := groupFarmByProtocolId farms
    (completion.settle (objectKeys groups)).foldlM
      (collect (walletFarmInfo services groups walletAddress)) []

structure Response where
  itemCount : Nat
  items : List (Element FarmInfoItem)
  deriving DecidableEq

/-- `WalletController.getWalletFarmInfos`. -/
def getWalletFarmInfosResponse (walletAddress : String) (params : Query) :
    Except Thrown Response := do
  let result ← getWalletFarmInfos tables services completion walletAddress params
  pure ⟨result.length, result⟩

end

end BlockchainTask.Wallet.WalletService

import BlockchainTask.SchedulerJob.InteractionTemplate

/-! # Reading interactions

The addresses that a wallet interacted with, out of given ones. The table is
asked with its collation, so letter case does not matter, and the addresses are
returned as they are stored. -/
namespace BlockchainTask.Interaction.InteractionService
open BlockchainTask.Helper BlockchainTask.Library.Store
open BlockchainTask.SchedulerJob.InteractionTemplate

/-- Whether a row is found for a wallet and an address, of a network if one is
given. -/
def found (network : Option Nat) (from_address to_address : String) (row : Interaction) : Bool :=
  network.all (· == row.network) && decide (sameText row.from_address from_address) &&
    row.to_address.any fun address => decide (sameText address to_address)

/-- `findInteractionAddresses({ network, from_address, to_address: In(to_addresses) })`. -/
def findInteractionAddresses (interactions : Interactions) (network : Option Nat)
    (from_address : String) (to_addresses : List String) : List String :=
  (interactions.contents.filter fun row =>
    to_addresses.any fun to_address => found network from_address to_address row).filterMap
      Interaction.to_address

end BlockchainTask.Interaction.InteractionService

import BlockchainTask.Repository.Farm
import BlockchainTask.Repository.Token

/-! # The prices of the token table

A row as the price jobs see it: the columns they write, and next to them the
ones they leave alone. -/
namespace BlockchainTask.Repository.PricedToken
open BlockchainTask.Library.Decimal BlockchainTask.Library.Store
open BlockchainTask.Repository.Farm BlockchainTask.Repository.Token

structure PricedRow where
  token : TokenRow
  price_address : Option String
  price_value : Number
  total_supply : Number

def PricedRow.key (r : PricedRow) : Option (Nat × String) := r.token.key

abbrev PricedTokens : Type := Table PricedRow (Nat × String) PricedRow.key

def PricedRow.priced (price_value total_supply : Number) (r : PricedRow) : PricedRow :=
  { r with price_value := decimalColumn price_value, total_supply := decimalColumn total_supply }

/-- `updateToken` by id. -/
def updateToken (id : ℕ) (price_value total_supply : Number) (t : PricedTokens) : PricedTokens :=
  t.updateId id (PricedRow.priced price_value total_supply) fun _ => rfl

end BlockchainTask.Repository.PricedToken

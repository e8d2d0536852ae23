import BlockchainTask.Library.Store

/-! # The NF-token table -/
namespace BlockchainTask.Repository.NFToken
open BlockchainTask.Library.Store

structure NFTokenRow where
  protocol : String
  address : String
  index : Nat
  token_uri : Option String
  image_or_animation_uri : Option String
  deriving DecidableEq

/-- The index `['protocol', 'address', 'index']` is not unique, so no insert is
ever refused for a row that is there already. -/
abbrev NFTokens : Type := Table NFTokenRow Unit fun _ => none

/-- The rows, oldest first. -/
def stored (t : NFTokens) : List NFTokenRow := t.rows.map Stored.row

theorem stored_insertAll (t : NFTokens) (rows : List NFTokenRow) :
    stored (t.insertAll rows) = stored t ++ rows :=
  Table.rows_insertAll_of_null t fun _ _ => rfl

end BlockchainTask.Repository.NFToken

import BlockchainTask.Helper
import BlockchainTask.Library.Store

/-! # The token table

A row holds what the pair jobs read and write of a token. Its prices, its icon
and its other relations belong to other jobs. -/
namespace BlockchainTask.Repository.Token
open BlockchainTask.Helper BlockchainTask.Library.Store

inductive TokenType where
  | NATIVE
  | SINGLE
  | MULTI
  deriving DecidableEq, Repr

structure TokenRow where
  network : Nat
  type : TokenType
  name : String
  symbol : String
  address : String
  decimals : Nat
  /-- Ids of the rows a pair is made of. -/
  pair0 : Option Nat
  pair1 : Option Nat
  status : Bool
  deriving DecidableEq

/-- What a `varchar(255)` column keeps of a text. The characters are those of `utf8mb4`, which
the note of the database's configuration gives the columns of names and symbols. -/
def varchar (text : String) : String := String.ofList (text.toList.take 255)

/-- The largest value of an `int` column. -/
def MAX_INT : Nat := 2147483647

/-- What the table keeps of a row that `INSERT IGNORE` gives it: a text that is too long is
cut, and a number that is too large becomes the largest one. An address has 42 characters. -/
def TokenRow.kept (r : TokenRow) : TokenRow :=
  { r with name := varchar r.name, symbol := varchar r.symbol, decimals := min r.decimals MAX_INT }

/-- The unique index `['network', 'address']`. -/
def TokenRow.key (r : TokenRow) : Option (Nat × String) := some (r.network, toLowerCase r.address)

abbrev Tokens : Type := Table TokenRow (Nat × String) TokenRow.key

@[simp] theorem TokenRow.kept_status (r : TokenRow) : r.kept.status = r.status := rfl

/-- `findOne` by network and address. No row has a null address. -/
def findOne (network : Nat) (address : Option String) (t : Tokens) : Option (Stored TokenRow) :=
  address.bind fun a => t.lookup (network, toLowerCase a)

/-- `find` by network and a list of addresses. -/
def findIn (network : Nat) (addresses : List (Option String)) (t : Tokens) :
    List (Stored TokenRow) :=
  t.rows.filter fun s => s.row.network == network &&
    addresses.any fun a => a.map toLowerCase == some (toLowerCase s.row.address)

theorem findOne_some {network : Nat} {address : Option String} {t : Tokens} {s : Stored TokenRow}
    (h : findOne network address t = some s) :
    s ∈ t.rows ∧ s.row.network = network ∧ ∃ a, address = some a ∧ sameText s.row.address a := by
  obtain ⟨a, rfl, hl⟩ := Option.bind_eq_some_iff.mp h
  obtain ⟨hmem, hkey⟩ := Table.lookup_some hl
  simp only [TokenRow.key, Option.some.injEq, Prod.mk.injEq] at hkey
  exact ⟨hmem, hkey.1, a, rfl, hkey.2⟩

/-- No two rows of a network share an address. -/
theorem row_unique {t : Tokens} {s s' : Stored TokenRow} (hs : s ∈ t.rows) (hs' : s' ∈ t.rows)
    (hn : s.row.network = s'.row.network) (ha : sameText s.row.address s'.row.address) : s = s' := by
  have hk : TokenRow.key s'.row = TokenRow.key s.row := by
    have ha : toLowerCase s.row.address = toLowerCase s'.row.address := ha
    simp [TokenRow.key, hn, ha]
  exact Table.key_inj hs hs' rfl hk

end BlockchainTask.Repository.Token

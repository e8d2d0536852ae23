import BlockchainTask.Library.Distinct
import BlockchainTask.Library.Effect
import BlockchainTask.Repository.FarmSearch
import BlockchainTask.Repository.Lending

/-! # Searching lendings

`LendingRepository._search` joins a lending with its token, its protocol and the
network of that. It looks for active rows of active protocols; the network need not be
active, and the addresses that a query names are not looked at. -/
namespace BlockchainTask.Repository.LendingSearch
open BlockchainTask.Common.Exception BlockchainTask.Helper
open BlockchainTask.Library.Distinct BlockchainTask.Library.Effect BlockchainTask.Library.Store
open BlockchainTask.Repository.FarmSearch (RequestWithPagination given pageOf pageOf_sublist)
open BlockchainTask.Repository.Lending

structure Protocol where
  id : ℕ
  status : Bool
  network_status : Bool
  use_lending : Bool
  deriving DecidableEq

/-- What is searched for. -/
structure LendingSearchQuery where
  id : Option ℕ := none
  ids : Option (List ℕ) := none
  protocolId : Option ℕ := none
  address : Option String := none
  addresses : Option (List String) := none
  deriving DecidableEq

/-- A row of the query. -/
structure Row where
  lending : Stored LendingRow
  token : LendingToken

/-- The database: the lendings, of which each has its token, the protocols, and the
orders in which the rows of a query and the ids of one are returned. The statement asks
for none: that the rows come in the same one for all pages of a query is assumed. -/
structure Database where
  lendings : Lendings
  tokens : List LendingToken
  tokens_distinct : (tokens.map LendingToken.id).Nodup
  joined : ∀ s ∈ lendings.rows, ∃ token ∈ tokens, token.id = s.row.token
  protocols : List Protocol
  ids_distinct : (protocols.map Protocol.id).Nodup
  arrange : LendingSearchQuery → List Row → List Row
  arrange_perm : ∀ query rows, (arrange query rows).Perm rows
  arrangeIds : List ℕ → List ℕ
  arrangeIds_perm : ∀ ids, (arrangeIds ids).Perm ids

variable (db : Database)

def protocolOf (row : LendingRow) : Option Protocol :=
  db.protocols.find? fun protocol => protocol.id == row.protocol

def tokenOf (row : LendingRow) : Option LendingToken :=
  db.tokens.find? fun token => token.id == row.token

def lendingWhere (query : LendingSearchQuery) (s : Stored LendingRow) : Bool :=
  (protocolOf db s.row).any (fun protocol => protocol.status &&
    query.protocolId.all (· == protocol.id)) && s.row.status &&
    query.id.all (· == s.id) && query.ids.all (fun ids => ids.contains s.id) &&
    (given query.address).all fun text =>
      s.row.address.any fun address => decide (sameText address text)

/-- `_searchQueryBuilder`: the rows that the query finds. -/
def searchQueryBuilder (query : LendingSearchQuery) : List Row :=
  db.arrange query ((db.lendings.rows.filter (lendingWhere db query)).filterMap fun s =>
    (tokenOf db s.row).map (Row.mk s))

/-- The statement is one that the database runs: an empty list is none. -/
def checkSyntax (query : LendingSearchQuery) : Except Thrown Unit :=
  if query.ids = some [] then
    .error (rawError "ER_PARSE_ERROR: You have an error in your SQL syntax")
  else .ok ()

/-- `_search`. -/
def search (query : LendingSearchQuery) (params : RequestWithPagination) :
    Except Thrown (List Row) := do
  checkSyntax query
  pageOf params (searchQueryBuilder db query)

/-- `_searchDistinct(params, 'protocol_id')`. -/
def searchDistinct (query : LendingSearchQuery) : Except Thrown (List ℕ) := do
  checkSyntax query
  pure (db.arrangeIds (distinctOn id ((searchQueryBuilder db query).map fun row =>
    row.lending.row.protocol)))

/-- `_searchDistinct({ useLending: true }, 'protocol.id')` of the protocols. -/
def searchProtocols : List ℕ :=
  db.arrangeIds ((db.protocols.filter fun protocol =>
    protocol.status && protocol.network_status && protocol.use_lending).map Protocol.id)

/-! ## What is found -/

variable {db} {query : LendingSearchQuery}

theorem tokenOf_isSome {s : Stored LendingRow} (h : s ∈ db.lendings.rows) :
    ∃ token, tokenOf db s.row = some token := by
  obtain ⟨token, htoken, hid⟩ := db.joined s h
  refine Option.isSome_iff_exists.mp (List.find?_isSome.mpr ⟨token, htoken, ?_⟩)
  exact beq_iff_eq.mpr hid

/-- A row of the query is an active lending, with its own token. -/
theorem mem_searchQueryBuilder {row : Row} : row ∈ searchQueryBuilder db query ↔
    row.lending ∈ db.lendings.rows ∧ lendingWhere db query row.lending = true ∧
      tokenOf db row.lending.row = some row.token := by
  rw [searchQueryBuilder, (db.arrange_perm _ _).mem_iff, List.mem_filterMap]
  constructor
  · rintro ⟨s, hs, hrow⟩
    obtain ⟨token, htoken, rfl⟩ := Option.map_eq_some_iff.mp hrow
    obtain ⟨hmem, hwhere⟩ := List.mem_filter.mp hs
    exact ⟨hmem, hwhere, htoken⟩
  · rintro ⟨hmem, hwhere, htoken⟩
    refine ⟨row.lending, List.mem_filter.mpr ⟨hmem, hwhere⟩, ?_⟩
    rw [htoken]
    rfl

theorem protocolOf_eq_some_iff {row : LendingRow} {protocol : Protocol} :
    protocolOf db row = some protocol ↔
      protocol ∈ db.protocols ∧ protocol.id = row.protocol :=
  find?_eq_some_iff db.ids_distinct

/-- A page is a part of the rows. -/
theorem search_sublist {params : RequestWithPagination} {rows : List Row}
    (h : search db query params = .ok rows) : List.Sublist rows (searchQueryBuilder db query) := by
  obtain ⟨_, _, hpage⟩ := Eff.except_bind_eq_ok.mp h
  exact pageOf_sublist hpage

/-- A search for a protocol finds rows of it. -/
theorem protocol_of_where {s : Stored LendingRow} {id : ℕ}
    (h : lendingWhere db { query with protocolId := some id } s = true) : s.row.protocol = id := by
  simp only [lendingWhere, Option.all_some, Bool.and_eq_true] at h
  obtain ⟨protocol, hjoined, hprotocol⟩ := (Option.any_eq_true _ _).mp h.1.1.1.1
  have hid : id = protocol.id := by simpa using (Bool.and_eq_true_iff.mp hprotocol).2
  rw [hid]
  exact (protocolOf_eq_some_iff.mp hjoined).2.symm

end BlockchainTask.Repository.LendingSearch

import BlockchainTask.Library.Effect
import BlockchainTask.Repository.FarmSearch
import BlockchainTask.Repository.NFToken

/-! # Searching NF tokens

`NFTokenRepository._search` joins an NF token with its protocol and the network of
that. A row has one of each, so a row of the query is a token, and the pages of a
search are pages of tokens. -/
namespace BlockchainTask.Repository.NFTokenSearch
open BlockchainTask.Common.Exception BlockchainTask.Helper
open BlockchainTask.Library.Distinct BlockchainTask.Library.Effect BlockchainTask.Library.Store
open BlockchainTask.Repository.FarmSearch (RequestWithPagination given pageOf pageOf_sublist)
open BlockchainTask.Repository.NFToken

/-- A protocol, with what an NF token refers to it by and the status of its network. -/
structure Protocol where
  id : ℕ
  name : String
  status : Bool
  network_status : Bool
  use_nft : Bool
  deriving DecidableEq

/-- What is searched for. The indexes are written as numerals. -/
structure NFTokenSearchQuery where
  id : Option ℕ := none
  protocolId : Option ℕ := none
  address : Option String := none
  index : Option ℕ := none
  indexes : Option (List String) := none
  deriving DecidableEq

/-- The database: the NF tokens, which of them are switched on, the protocols, and the
orders in which the rows of a query and the ids of one are returned. The statement asks
for none: that the rows come in the same one for all pages of a query is assumed. -/
structure Database where
  nfTokens : NFTokens
  status : Stored NFTokenRow → Bool
  protocols : List Protocol
  ids_distinct : (protocols.map Protocol.id).Nodup
  names_distinct : (protocols.map Protocol.name).Nodup
  arrange : NFTokenSearchQuery → List (Stored NFTokenRow) → List (Stored NFTokenRow)
  arrange_perm : ∀ query rows, (arrange query rows).Perm rows
  arrangeIds : List ℕ → List ℕ
  arrangeIds_perm : ∀ ids, (arrangeIds ids).Perm ids

variable (db : Database)

/-- The protocol that a row is joined with. -/
def protocolOf (row : NFTokenRow) : Option Protocol :=
  db.protocols.find? fun protocol => protocol.name == row.protocol

def nfTokenWhere (query : NFTokenSearchQuery) (s : Stored NFTokenRow) : Bool :=
  (protocolOf db s.row).any (fun protocol => protocol.network_status && protocol.status &&
    query.protocolId.all (· == protocol.id)) && db.status s &&
    query.id.all (· == s.id) &&
    (given query.address).all (fun text => decide (sameText s.row.address text)) &&
    query.index.all (· == s.row.index) &&
    query.indexes.all fun texts => texts.any (· == s.row.index.repr)

/-- `_searchQueryBuilder`: the rows that the query finds. -/
def searchQueryBuilder (query : NFTokenSearchQuery) : List (Stored NFTokenRow) :=
  db.arrange query (db.nfTokens.rows.filter (nfTokenWhere db query))

/-- The statement is one that the database runs: an empty list is none. -/
def checkSyntax (query : NFTokenSearchQuery) : Except Thrown Unit :=
  if query.indexes = some [] then
    .error (rawError "ER_PARSE_ERROR: You have an error in your SQL syntax")
  else .ok ()

/-- `_search`. -/
def search (query : NFTokenSearchQuery) (params : RequestWithPagination) :
    Except Thrown (List NFTokenRow) := do
  checkSyntax query
  pageOf params ((searchQueryBuilder db query).map Stored.row)

/-- `_searchDistinct(params, 'protocol_id')`. -/
def searchDistinct (query : NFTokenSearchQuery) : Except Thrown (List ℕ) := do
  checkSyntax query
  pure (db.arrangeIds (distinctOn id ((searchQueryBuilder db query).filterMap fun s =>
    (protocolOf db s.row).map Protocol.id)))

/-- `_searchDistinct({ useNFT: true }, 'protocol.id')` of the protocols. -/
def searchProtocols : List ℕ :=
  db.arrangeIds ((db.protocols.filter fun protocol =>
    protocol.status && protocol.network_status && protocol.use_nft).map Protocol.id)

/-! ## What is found -/

variable {db} {query : NFTokenSearchQuery}

theorem protocolOf_eq_some_iff {row : NFTokenRow} {protocol : Protocol} :
    protocolOf db row = some protocol ↔
      protocol ∈ db.protocols ∧ protocol.name = row.protocol :=
  find?_eq_some_iff db.names_distinct

/-- Without a page all rows are returned that are found. -/
theorem search_unpaged (h : query.indexes ≠ some []) :
    search db query ⟨none, none, none⟩ =
      .ok ((searchQueryBuilder db query).map Stored.row) := by
  unfold search checkSyntax
  rw [if_neg h]
  rfl

/-- With a page or without one the rows are some of them, in the same order. -/
theorem search_sublist {params : RequestWithPagination} {rows : List NFTokenRow}
    (h : search db query params = .ok rows) :
    List.Sublist rows ((searchQueryBuilder db query).map Stored.row) := by
  obtain ⟨_, _, hpage⟩ := Eff.except_bind_eq_ok.mp h
  exact pageOf_sublist hpage

theorem nodup_searchDistinct {ids : List ℕ} (h : searchDistinct db query = .ok ids) :
    ids.Nodup := by
  unfold searchDistinct at h
  obtain ⟨_, _, hids⟩ := Eff.except_bind_eq_ok.mp h
  cases hids
  refine (db.arrangeIds_perm _).nodup_iff.mpr ?_
  have hnodup : ((distinctOn id ((searchQueryBuilder db query).filterMap fun s =>
      (protocolOf db s.row).map Protocol.id)).map id).Nodup := nodup_map_distinctOn _
  rwa [List.map_id] at hnodup

theorem nodup_searchProtocols (db : Database) : (searchProtocols db).Nodup :=
  (db.arrangeIds_perm _).nodup_iff.mpr (db.ids_distinct.sublist (List.filter_sublist.map _))

end BlockchainTask.Repository.NFTokenSearch

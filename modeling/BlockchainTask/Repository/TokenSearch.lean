import BlockchainTask.Repository.FarmPages
import BlockchainTask.Repository.Token

/-! # Searching tokens

`TokenRepository._search` joins a token with its network and, for a pair, with the
tokens that it is made of. There is at most one of each, so a row of the query is a
token, and the pages of a search are pages of tokens. -/
namespace BlockchainTask.Repository.TokenSearch
open BlockchainTask.Common.Exception BlockchainTask.Helper BlockchainTask.Library.Store
open BlockchainTask.Library.Distinct BlockchainTask.Library.Effect
open BlockchainTask.Repository.FarmPages (pageOf_limited pageOf_unlimited pageSize skipped)
open BlockchainTask.Repository.FarmSearch (RequestWithPagination given pageOf transform)
open BlockchainTask.Repository.Token

structure Network where
  id : ℕ
  chain_id : ℕ
  status : Bool
  deriving DecidableEq

/-- What is searched for. An address that is null is that of no token. -/
structure TokenSearchQuery where
  id : Option ℕ := none
  address : Option String := none
  addresses : Option (List (Option String)) := none
  symbol : Option String := none
  chainId : Option ℕ := none
  deriving DecidableEq

/-- A row of the query. -/
structure Row where
  token : Stored TokenRow
  network : Network
  deriving DecidableEq

/-- The database: the tokens, the networks, when a symbol is the same as a text, and the
order in which the rows of a query are returned. The statement asks for none, so each page
may be cut from another one. -/
structure Database where
  tokens : Tokens
  networks : List Network
  ids_distinct : (networks.map Network.id).Nodup
  sameSymbol : String → String → Bool
  arrange : TokenSearchQuery → RequestWithPagination → List Row → List Row
  arrange_perm : ∀ query params rows, (arrange query params rows).Perm rows

/-- The rows of a query come in one order, whatever page of them is asked for. -/
def OneOrder (db : Database) : Prop :=
  ∀ query params params' rows, db.arrange query params rows = db.arrange query params' rows

variable (db : Database)

/-- The network that a row is joined with. -/
def networkOf (row : TokenRow) : Option Network :=
  db.networks.find? fun network => network.id == row.network

def tokenWhere (query : TokenSearchQuery) (row : Row) : Bool :=
  row.network.status && row.token.row.status &&
    query.id.all (· == row.token.id) &&
    (given query.address).all (fun text => decide (sameText row.token.row.address text)) &&
    query.addresses.all (fun texts => texts.any fun text =>
      text.any fun text => decide (sameText row.token.row.address text)) &&
    (given query.symbol).all (fun text => db.sameSymbol row.token.row.symbol text) &&
    query.chainId.all (· == row.network.chain_id)

def joinedRows : List Row :=
  db.tokens.rows.filterMap fun s => (networkOf db s.row).map (Row.mk s)

/-- `_searchQueryBuilder`: the rows that the query finds. -/
def searchQueryBuilder (query : TokenSearchQuery) (params : RequestWithPagination) : List Row :=
  db.arrange query params ((joinedRows db).filter (tokenWhere db query))

/-- The statement is one that the database runs: an empty list is none. -/
def checkSyntax (query : TokenSearchQuery) : Except Thrown Unit :=
  if query.addresses = some [] then
    .error (rawError "ER_PARSE_ERROR: You have an error in your SQL syntax")
  else .ok ()

/-- `_search`. -/
def search (query : TokenSearchQuery) (params : RequestWithPagination) :
    Except Thrown (List Row) := do
  checkSyntax query
  pageOf params (searchQueryBuilder db query params)

/-! ## What is found -/

variable {db} {query : TokenSearchQuery} {params : RequestWithPagination}

theorem networkOf_eq_some_iff {row : TokenRow} {network : Network} :
    networkOf db row = some network ↔
      network ∈ db.networks ∧ network.id = row.network :=
  find?_eq_some_iff db.ids_distinct

theorem mem_joinedRows {row : Row} : row ∈ joinedRows db ↔
    row.token ∈ db.tokens.rows ∧ row.network ∈ db.networks ∧
      row.network.id = row.token.row.network := by
  rw [joinedRows, List.mem_filterMap]
  constructor
  · rintro ⟨s, hs, hrow⟩
    obtain ⟨network, hnetwork, rfl⟩ := Option.map_eq_some_iff.mp hrow
    exact ⟨hs, networkOf_eq_some_iff.mp hnetwork⟩
  · rintro ⟨hmem, hnetwork⟩
    refine ⟨row.token, hmem, ?_⟩
    rw [networkOf_eq_some_iff.mpr hnetwork]
    rfl

/-- A row of the query is a token with its network, which it matches. -/
theorem mem_searchQueryBuilder {row : Row} : row ∈ searchQueryBuilder db query params ↔
    row ∈ joinedRows db ∧ tokenWhere db query row = true := by
  rw [searchQueryBuilder, (db.arrange_perm _ _ _).mem_iff, List.mem_filter]

/-- Two pages are cut from the same rows. -/
theorem searchQueryBuilder_perm (db : Database) (query : TokenSearchQuery)
    (params params' : RequestWithPagination) :
    (searchQueryBuilder db query params).Perm (searchQueryBuilder db query params') :=
  (db.arrange_perm _ _ _).trans (db.arrange_perm _ _ _).symm

theorem nodup_joinedRows (db : Database) : (joinedRows db).Nodup := by
  have hrows : db.tokens.rows.Nodup := by
    refine List.Nodup.of_map Stored.id ?_
    exact db.tokens.idsIncrease.imp fun h => Nat.ne_of_lt h
  refine hrows.filterMap fun s s' row hrow hrow' => ?_
  obtain ⟨_, _, rfl⟩ := Option.map_eq_some_iff.mp hrow
  obtain ⟨_, _, hsame⟩ := Option.map_eq_some_iff.mp hrow'
  exact (congrArg Row.token hsame).symm

/-- No token has two rows. -/
theorem nodup_searchQueryBuilder (db : Database) (query : TokenSearchQuery)
    (params : RequestWithPagination) : (searchQueryBuilder db query params).Nodup :=
  (db.arrange_perm _ _ _).nodup_iff.mpr ((nodup_joinedRows db).filter _)

theorem search_unlimited (h : query.addresses ≠ some []) (page : Option ℤ) :
    search db query (transform ⟨page, none⟩) =
      .ok (searchQueryBuilder db query (transform ⟨page, none⟩)) := by
  unfold search checkSyntax
  rw [if_neg h]
  exact pageOf_unlimited page _

theorem search_limited (h : query.addresses ≠ some []) (page : Option ℤ) (limit : ℤ) :
    search db query (transform ⟨page, some limit⟩) = .ok (Library.FoldedRows.page
      ((page.map fun page => skipped page limit).getD 0) (pageSize limit)
        (searchQueryBuilder db query (transform ⟨page, some limit⟩))) := by
  unfold search checkSyntax
  rw [if_neg h]
  exact pageOf_limited page limit _

end BlockchainTask.Repository.TokenSearch

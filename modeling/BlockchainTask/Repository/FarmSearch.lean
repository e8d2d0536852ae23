import BlockchainTask.Common.Exception
import BlockchainTask.Library.FoldedRows
import BlockchainTask.Repository.Token

/-! # Searching farms

`FarmRepository._search` joins a farm with its stake tokens and its reward tokens.
The query has a row for each pair of them, and the rows of a farm are folded into
one farm with the tokens that they tell of. The offset and the limit of a page apply
to the rows: a farm with several tokens takes several places of a page, and may be
cut in two by its end. -/
namespace BlockchainTask.Repository.FarmSearch
open BlockchainTask.Common.Exception BlockchainTask.Helper
open BlockchainTask.Library.Distinct BlockchainTask.Library.FoldedRows
open BlockchainTask.Repository.Token (TokenType)

/-! ## The tables -/

structure Token where
  id : ℕ
  type : TokenType
  name : String
  symbol : String
  address : String
  decimals : ℕ
  status : Bool
  deriving DecidableEq

/-- A protocol, with the status of its network. -/
structure Protocol where
  id : ℕ
  name : String
  status : Bool
  network_status : Bool
  deriving DecidableEq

/-- A row of the farm table with its relations: in either one a token occurs once. -/
structure Farm where
  id : ℕ
  protocol : Protocol
  name : String
  address : Option String
  pid : Option ℕ
  assets : String
  status : Bool
  stake_tokens : List Token
  reward_tokens : List Token
  stake_distinct : (stake_tokens.map Token.id).Nodup
  reward_distinct : (reward_tokens.map Token.id).Nodup

/-- What is searched for. A text that is empty is not searched for. -/
structure FarmSearchQuery where
  id : Option ℕ := none
  protocolId : Option ℕ := none
  address : Option String := none
  addresses : Option (List String) := none
  stakeTokenType : Option TokenType := none
  rewardTokenType : Option TokenType := none
  stakeTokenSymbol : Option String := none
  rewardTokenSymbol : Option String := none

/-- A row of the query. -/
structure Row where
  farm : Farm
  stake_tokens : Option Token
  reward_tokens : Option Token

/-- The database: its farms, how it compares a text with a pattern, and the order in
which it returns the rows of a query. The statement asks for none: that it is the same
for all pages of a query is assumed. -/
structure Database where
  farms : List Farm
  distinct : (farms.map Farm.id).Nodup
  like : String → String → Bool
  arrange : FarmSearchQuery → List Row → List Row
  arrange_perm : ∀ query rows, (arrange query rows).Perm rows

/-! ## The rows of a query -/

def leftJoin {α : Type} (joined : List α) : List (Option α) :=
  if joined.isEmpty then [none] else joined.map some

def joinedRows (farm : Farm) : List Row :=
  (leftJoin farm.stake_tokens).flatMap fun stake =>
    (leftJoin farm.reward_tokens).map fun reward => ⟨farm, stake, reward⟩

/-- A text that is given. -/
def given (text : Option String) : Option String := text.filter (· ≠ "")

/-- The conditions on a joined token, which rule out that there is none. -/
def tokenWhere (db : Database) (type : Option TokenType) (symbol : Option String)
    (token : Option Token) : Bool :=
  token.any fun t => t.status && type.all (· == t.type) &&
    (given symbol).all fun text => db.like t.symbol ("%" ++ text ++ "%")

def farmWhere (query : FarmSearchQuery) (farm : Farm) : Bool :=
  farm.status && farm.protocol.status && farm.protocol.network_status &&
    query.id.all (· == farm.id) && query.protocolId.all (· == farm.protocol.id) &&
    (given query.address).all (fun text =>
      farm.address.any fun address => decide (sameText address text)) &&
    query.addresses.all fun texts =>
      farm.address.any fun address => texts.any fun text => decide (sameText address text)

def stakeWhere (db : Database) (query : FarmSearchQuery) : Option Token → Bool :=
  tokenWhere db query.stakeTokenType query.stakeTokenSymbol

def rewardWhere (db : Database) (query : FarmSearchQuery) : Option Token → Bool :=
  tokenWhere db query.rewardTokenType query.rewardTokenSymbol

/-- `_searchQueryBuilder`: the rows that the query finds. -/
def searchQueryBuilder (db : Database) (query : FarmSearchQuery) : List Row :=
  db.arrange query ((db.farms.flatMap joinedRows).filter fun row =>
    farmWhere query row.farm && stakeWhere db query row.stake_tokens &&
      rewardWhere db query row.reward_tokens)

/-- The statement is one that the database runs: an empty list is none. -/
def checkSyntax (query : FarmSearchQuery) : Except Thrown Unit :=
  if query.addresses = some [] then
    .error (rawError "ER_PARSE_ERROR: You have an error in your SQL syntax")
  else .ok ()

/-- A farm that is found, with the tokens that its rows tell of. -/
structure FarmItem where
  id : ℕ
  name : String
  address : Option String
  pid : Option ℕ
  assets : String
  protocol : Protocol
  stake_tokens : List Token
  reward_tokens : List Token
  deriving DecidableEq

def farmId (row : Row) : ℕ := row.farm.id

def itemOf (first : Row) (group : List Row) : FarmItem where
  id := first.farm.id
  name := first.farm.name
  address := first.farm.address
  pid := first.farm.pid
  assets := first.farm.assets
  protocol := first.farm.protocol
  stake_tokens := distinctOn Token.id (group.filterMap Row.stake_tokens)
  reward_tokens := distinctOn Token.id (group.filterMap Row.reward_tokens)

/-- The rows of one farm id are folded together. -/
def getMany (rows : List Row) : List FarmItem := fold farmId itemOf rows

/-! ## Pages -/

structure PaginationRequest where
  page : Option ℤ
  limit : Option ℤ

structure RequestWithPagination where
  page : Option ℤ
  limit : Option ℤ
  skipItems : Option ℤ
  deriving DecidableEq

def minPage (page : ℤ) : ℤ := if page < 1 then 1 else page

def betweenLimits (limit : ℤ) : ℤ :=
  if limit < 1 then 1 else if limit > 1000 then 1000 else limit

/-- `PaginationPipe.transform`. -/
def transform (value : PaginationRequest) : RequestWithPagination :=
  let page := value.page.map minPage
  let limit := value.limit.map betweenLimits
  ⟨page, limit, page.bind fun page => limit.map fun limit => (page - 1) * limit⟩

/-- A number that is neither undefined nor zero. -/
def truthy (number : Option ℤ) : Option ℕ := (number.filter (· ≠ 0)).map Int.toNat

/-- `_search`. The database knows no offset without a limit. -/
def search (db : Database) (query : FarmSearchQuery) (params : RequestWithPagination) :
    Except Thrown (List FarmItem) := do
  let rows := searchQueryBuilder db query
  checkSyntax query
  match truthy params.skipItems, truthy params.limit with
  | some _, none =>
    .error (rawError "RDBMS does not support OFFSET without LIMIT in SELECT statements.")
  | none, none => .ok (getMany rows)
  | offset, some limit => .ok (getMany ((rows.drop (offset.getD 0)).take limit))

/-- The same offset and limit, in a search whose rows are not folded. -/
def pageOf {α : Type} (params : RequestWithPagination) (rows : List α) :
    Except Thrown (List α) :=
  match truthy params.skipItems, truthy params.limit with
  | some _, none =>
    .error (rawError "RDBMS does not support OFFSET without LIMIT in SELECT statements.")
  | none, none => .ok rows
  | offset, some limit => .ok ((rows.drop (offset.getD 0)).take limit)

theorem pageOf_sublist {α : Type} {params : RequestWithPagination} {rows page : List α}
    (h : pageOf params rows = .ok page) : List.Sublist page rows := by
  unfold pageOf at h
  split at h
  · cases h
  · cases h
    exact List.Sublist.refl _
  · cases h
    exact (List.take_sublist _ _).trans (List.drop_sublist _ _)

end BlockchainTask.Repository.FarmSearch

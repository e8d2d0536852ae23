import BlockchainTask.Interaction.Requests
import BlockchainTask.Repository.TokenSearch
import BlockchainTask.SchedulerJob.TokenTable
import BlockchainTask.Wallet.TokenBalances

/-! # The tokens that a wallet holds

The balance request of a wallet on the tables themselves. The addresses that the query
names are replaced by those that the wallet has interacted with, on whatever network; the
other conditions of the query stay. A page is cut out of the tokens before their balances
are known, so a page can be short. The statement asks for no order of the tokens: as long
as the pages come in one, they show together every balance once. -/
namespace BlockchainTask.Wallet.HeldTokens
open BlockchainTask.Common.Exception BlockchainTask.Helper BlockchainTask.Helper.GroupBy
open BlockchainTask.Interaction.Requests
open BlockchainTask.Library.Effect BlockchainTask.Library.FoldedRows BlockchainTask.Library.Runs
open BlockchainTask.Library.Store
open BlockchainTask.Multicalls.MultiCall (Address)
open BlockchainTask.Repository.FarmPages (pageSize skipped skipped_succ)
open BlockchainTask.Repository.FarmSearch (PaginationRequest transform)
open BlockchainTask.Repository.TokenSearch
open BlockchainTask.SchedulerJob.InteractionCoverage (cursor)
open BlockchainTask.SchedulerJob.InteractionTemplate
open BlockchainTask.SchedulerJob.TokenTable (World tokens_extended tokensOf)
open BlockchainTask.Wallet.TokenBalances (Answers Sources Token TokenBalanceItem
  answers_of_chainBalances expected findInteractionAddresses getWalletTokenBalances
  listsBalances_iff ownBalance walletTokens)

/-! ## The query -/

structure Params where
  query : TokenSearchQuery
  pagination : PaginationRequest

/-- `{ ...params, addresses }`. -/
def withAddresses (query : TokenSearchQuery) (addresses : List (Option String)) :
    TokenSearchQuery :=
  { query with addresses := some addresses }

/-- What the service reads of a token that the search finds. -/
def walletToken (row : Row) : Token :=
  ⟨row.network.chain_id, row.token.row.type, row.token.row.name, row.token.row.symbol,
    row.token.row.address, row.token.row.decimals⟩

def found (db : Database) (params : Params) (addresses : List (Option String)) : List Row :=
  (search db (withAddresses params.query addresses) (transform params.pagination)).toOption.getD []

/-- The tables, the nodes and how a text is encoded as an address. -/
structure Backend where
  db : Database
  interactions : Interactions
  networks : ℕ → Option TokenBalances.Network
  encodeAddress : String → Except Thrown Address

def Backend.sources (b : Backend) : Sources Params where
  interactions := b.interactions
  search params addresses := (found b.db params addresses).map walletToken
  networks := b.networks
  encodeAddress := b.encodeAddress

variable {b : Backend} {walletAddress : String} {query : TokenSearchQuery}

/-! ## The tokens of a request -/

/-- The conditions of a query but for the one on several addresses. -/
def anyAddress (query : TokenSearchQuery) : TokenSearchQuery := { query with addresses := none }

/-- The row is of an active token of an active network that matches the query, and the
wallet has an interaction with its address. -/
def Wanted (b : Backend) (walletAddress : String) (query : TokenSearchQuery) (row : Row) : Prop :=
  row ∈ joinedRows b.db ∧ tokenWhere b.db (anyAddress query) row = true ∧
    Interacted b.interactions walletAddress row.token.row.address

/-- The tokens of a request, in the order that its page is cut from. -/
def Backend.arranged (b : Backend) (walletAddress : String) (params : Params) : List Row :=
  let interactedWithAddresses := findInteractionAddresses b.interactions walletAddress
  if interactedWithAddresses.length = 0 then []
  else searchQueryBuilder b.db (withAddresses params.query interactedWithAddresses)
    (transform params.pagination)

/-- The rows of a request. -/
def Backend.rows (b : Backend) (walletAddress : String) (params : Params) : List Row :=
  let interactedWithAddresses := findInteractionAddresses b.interactions walletAddress
  if interactedWithAddresses.length = 0 then [] else found b.db params interactedWithAddresses

theorem walletTokens_eq (b : Backend) (walletAddress : String) (params : Params) :
    walletTokens b.sources walletAddress params =
      (b.rows walletAddress params).map walletToken := by
  unfold walletTokens Backend.rows
  rw [apply_ite (List.map walletToken)]
  rfl

/-- A page of the rows. With only a limit it is the first one. -/
def cut (pagination : PaginationRequest) (rows : List Row) : List Row :=
  match pagination.limit with
  | none => rows
  | some limit => page ((pagination.page.map fun page => skipped page limit).getD 0)
      (pageSize limit) rows

theorem found_eq (db : Database) {addresses : List (Option String)} (hne : addresses ≠ [])
    (query : TokenSearchQuery) (pagination : PaginationRequest) :
    found db ⟨query, pagination⟩ addresses = cut pagination
      (searchQueryBuilder db (withAddresses query addresses) (transform pagination)) := by
  have hsyntax : (withAddresses query addresses).addresses ≠ some [] := by
    intro h
    exact hne (Option.some.inj h)
  obtain ⟨page, limit⟩ := pagination
  unfold found
  cases limit with
  | none =>
    rw [search_unlimited hsyntax]
    rfl
  | some limit =>
    rw [search_limited hsyntax]
    rfl

/-- Without interactions there are no tokens. -/
theorem arranged_cases (b : Backend) (walletAddress : String) :
    (findInteractionAddresses b.interactions walletAddress = [] ∧
        ∀ params, b.arranged walletAddress params = []) ∨
      ∀ params, b.arranged walletAddress params = searchQueryBuilder b.db
        (withAddresses params.query (findInteractionAddresses b.interactions walletAddress))
        (transform params.pagination) := by
  by_cases hnone : findInteractionAddresses b.interactions walletAddress = []
  · exact Or.inl ⟨hnone, fun _ => if_pos (by rw [hnone]; rfl)⟩
  · exact Or.inr fun params =>
      if_neg fun hlength => hnone (List.eq_nil_of_length_eq_zero hlength)

theorem rows_eq_cut (b : Backend) (walletAddress : String) (query : TokenSearchQuery)
    (pagination : PaginationRequest) : b.rows walletAddress ⟨query, pagination⟩ =
      cut pagination (b.arranged walletAddress ⟨query, pagination⟩) := by
  unfold Backend.rows Backend.arranged
  by_cases hnone : findInteractionAddresses b.interactions walletAddress = []
  · simp only [hnone, List.length_nil, if_true]
    unfold cut
    split
    · rfl
    · rw [page_of_length_le (Nat.zero_le _)]
  · have hlength : (findInteractionAddresses b.interactions walletAddress).length ≠ 0 :=
      fun hlength => hnone (List.eq_nil_of_length_eq_zero hlength)
    simp only [if_neg hlength]
    exact found_eq b.db hnone query pagination

theorem rows_unpaged (b : Backend) (walletAddress : String) (query : TokenSearchQuery) :
    b.rows walletAddress ⟨query, ⟨none, none⟩⟩ =
      b.arranged walletAddress ⟨query, ⟨none, none⟩⟩ := rows_eq_cut _ _ _ _

/-- Two pages of a request are cut from the same tokens. -/
theorem arranged_perm (b : Backend) (walletAddress : String) (query : TokenSearchQuery)
    (pagination pagination' : PaginationRequest) :
    (b.arranged walletAddress ⟨query, pagination⟩).Perm
      (b.arranged walletAddress ⟨query, pagination'⟩) := by
  rcases arranged_cases b walletAddress with ⟨_, hrows⟩ | hrows
  · rw [hrows, hrows]
  · rw [hrows, hrows]
    exact searchQueryBuilder_perm _ _ _ _

theorem arranged_eq (horder : OneOrder b.db) (walletAddress : String) (query : TokenSearchQuery)
    (pagination pagination' : PaginationRequest) :
    b.arranged walletAddress ⟨query, pagination⟩ =
      b.arranged walletAddress ⟨query, pagination'⟩ := by
  rcases arranged_cases b walletAddress with ⟨_, hrows⟩ | hrows
  · rw [hrows, hrows]
  · rw [hrows, hrows]
    exact horder _ _ _ _

theorem mem_findInteractionAddresses_iff {interactions : Interactions} {text : Option String} :
    text ∈ findInteractionAddresses interactions walletAddress ↔
      ∃ interaction ∈ interactions.contents,
        sameText interaction.from_address walletAddress ∧ interaction.to_address = text := by
  rw [findInteractionAddresses, List.mem_map]
  refine exists_congr fun interaction => ?_
  rw [List.mem_filter, decide_eq_true_eq, and_assoc]

theorem interacted_iff {interactions : Interactions} {address : String} :
    Interacted interactions walletAddress address ↔
      ∃ text ∈ findInteractionAddresses interactions walletAddress,
        ∃ own, text = some own ∧ sameText address own := by
  constructor
  · rintro ⟨interaction, hmem, hfrom, own, hto, hsame⟩
    exact ⟨some own, mem_findInteractionAddresses_iff.mpr ⟨interaction, hmem, hfrom, hto⟩, own,
      rfl, hsame⟩
  · rintro ⟨text, htext, own, rfl, hsame⟩
    obtain ⟨interaction, hmem, hfrom, hto⟩ := mem_findInteractionAddresses_iff.mp htext
    exact ⟨interaction, hmem, hfrom, own, hto, hsame⟩

theorem tokenWhere_withAddresses {db : Database} {addresses : List (Option String)} {row : Row} :
    tokenWhere db (withAddresses query addresses) row = true ↔
      tokenWhere db (anyAddress query) row = true ∧
        ∃ text ∈ addresses, ∃ own, text = some own ∧ sameText row.token.row.address own := by
  have haddresses : (addresses.any fun text =>
      text.any fun text => decide (sameText row.token.row.address text)) = true ↔
      ∃ text ∈ addresses, ∃ own, text = some own ∧ sameText row.token.row.address own := by
    simp only [List.any_eq_true, Option.any_eq_true, decide_eq_true_eq]
  rw [← haddresses]
  simp only [tokenWhere, withAddresses, anyAddress, Bool.and_eq_true, Option.all_some,
    Option.all_none]
  tauto

/-- Without pages the rows of a request are all that are wanted. -/
theorem mem_rows_iff {row : Row} :
    row ∈ b.rows walletAddress ⟨query, ⟨none, none⟩⟩ ↔ Wanted b walletAddress query row := by
  unfold Wanted
  rw [interacted_iff, rows_unpaged]
  rcases arranged_cases b walletAddress with ⟨hnone, hrows⟩ | hrows
  · rw [hrows, hnone]
    constructor
    · intro h
      cases h
    · rintro ⟨_, _, text, htext, _⟩
      cases htext
  · rw [hrows, mem_searchQueryBuilder, tokenWhere_withAddresses]

theorem nodup_rows (b : Backend) (walletAddress : String) (query : TokenSearchQuery) :
    (b.rows walletAddress ⟨query, ⟨none, none⟩⟩).Nodup := by
  rw [rows_unpaged]
  rcases arranged_cases b walletAddress with ⟨_, hrows⟩ | hrows
  · rw [hrows]
    exact List.nodup_nil
  · rw [hrows]
    exact nodup_searchQueryBuilder b.db _ _

/-! ## The balances of a request -/

/-- What is shown of some rows: those with a balance, each with its own. -/
def shown (b : Backend) (walletAddress : String) (rows : List Row) : List TokenBalanceItem :=
  (rows.filter fun row => ownBalance b.sources walletAddress (walletToken row) ≠ 0).map fun row =>
    expected b.sources walletAddress (walletToken row)

/-- A request that returns, of tokens that all answered. -/
theorem answers_of_returns {params : Params} {output : List TokenBalanceItem}
    (h : getWalletTokenBalances b.sources walletAddress params = .ok output) :
    ∀ token ∈ walletTokens b.sources walletAddress params,
      Answers b.sources walletAddress token := by
  unfold getWalletTokenBalances at h
  generalize walletTokens b.sources walletAddress params = items at h
  simp only at h
  intro token htoken
  rw [if_neg (Nat.ne_of_gt (List.length_pos_of_mem htoken))] at h
  obtain ⟨result, hresult, _⟩ := Eff.except_bind_eq_ok.mp h
  obtain ⟨chainId, hkey, hgroup⟩ := List.mem_flatMap.mp
    ((groups_perm items fun token => token.chain_id.repr).mem_iff.mpr htoken)
  obtain ⟨balances, hbalances⟩ := Eff.except_mapM_ok_iff.mp ⟨result, hresult⟩ chainId hkey
  exact answers_of_chainBalances hkey hbalances token hgroup

theorem returns_iff {params : Params} :
    (∃ output, getWalletTokenBalances b.sources walletAddress params = .ok output) ↔
      ∀ row ∈ b.rows walletAddress params,
        Answers b.sources walletAddress (walletToken row) := by
  rw [← List.forall_mem_map (f := walletToken) (P := Answers b.sources walletAddress),
    ← walletTokens_eq]
  constructor
  · rintro ⟨output, h⟩
    exact answers_of_returns h
  · intro h
    obtain ⟨output, houtput, _⟩ := (listsBalances_iff b.sources walletAddress params).mpr h
    exact ⟨output, houtput⟩

theorem shown_of_returns {params : Params} {output : List TokenBalanceItem}
    (h : getWalletTokenBalances b.sources walletAddress params = .ok output) :
    output.Perm (shown b walletAddress (b.rows walletAddress params)) := by
  obtain ⟨_, houtput, hperm⟩ :=
    (listsBalances_iff b.sources walletAddress params).mpr (answers_of_returns h)
  obtain rfl := Except.ok.inj (h.symm.trans houtput)
  rw [walletTokens_eq, List.filter_map, List.map_map] at hperm
  exact hperm

/-- **The balances of a request.** For every query there are tokens, the active ones of
active networks that match it and that the wallet has an interaction with on whatever
network, the query's own list of addresses not looked at. Whatever the page is, and
whatever order the tokens come in for it, the request returns exactly when the nodes
answer for the tokens of the page, and then shows those of them that the wallet has a
balance in, each once and with its own. -/
theorem balances_of_page (b : Backend) (walletAddress : String) (query : TokenSearchQuery) :
    ∃ rows : List Row, rows.Nodup ∧
      (∀ row, row ∈ rows ↔ Wanted b walletAddress query row) ∧ ∀ pagination,
        ∃ arranged : List Row, arranged.Perm rows ∧
          ((∃ output, getWalletTokenBalances b.sources walletAddress ⟨query, pagination⟩ =
              .ok output) ↔
            ∀ row ∈ cut pagination arranged, Answers b.sources walletAddress (walletToken row)) ∧
          ∀ output, getWalletTokenBalances b.sources walletAddress ⟨query, pagination⟩ =
              .ok output →
            output.Perm (shown b walletAddress (cut pagination arranged)) := by
  refine ⟨b.rows walletAddress ⟨query, ⟨none, none⟩⟩, nodup_rows b walletAddress query,
    fun row => mem_rows_iff, fun pagination =>
      ⟨b.arranged walletAddress ⟨query, pagination⟩, ?_, ?_, fun output houtput => ?_⟩⟩
  · rw [rows_unpaged]
    exact arranged_perm b walletAddress query _ _
  · rw [← rows_eq_cut]
    exact returns_iff
  · rw [← rows_eq_cut]
    exact shown_of_returns houtput

/-! ## All pages -/

/-- The first pages of a request, one after another. -/
def pages (b : Backend) (walletAddress : String) (query : TokenSearchQuery) (limit : ℤ)
    (count : ℕ) : Except Thrown (List (List TokenBalanceItem)) :=
  (List.range count).mapM fun i : ℕ =>
    getWalletTokenBalances b.sources walletAddress ⟨query, ⟨some (i + 1), some limit⟩⟩

theorem rows_page (horder : OneOrder b.db) (walletAddress : String) (query : TokenSearchQuery)
    (limit : ℤ) (i : ℕ) : b.rows walletAddress ⟨query, ⟨some (i + 1), some limit⟩⟩ =
      page (i * pageSize limit) (pageSize limit) (b.rows walletAddress ⟨query, ⟨none, none⟩⟩) := by
  rw [rows_unpaged, rows_eq_cut, arranged_eq horder walletAddress query _ ⟨none, none⟩]
  show page (skipped (i + 1) limit) _ _ = _
  rw [skipped_succ]

/-- Pages that reach to the last row have them all. -/
theorem flatMap_rows_page (horder : OneOrder b.db) {limit : ℤ} {count : ℕ} (hreach :
      (b.rows walletAddress ⟨query, ⟨none, none⟩⟩).length ≤ count * pageSize limit) :
    ((List.range count).flatMap fun i : ℕ =>
      b.rows walletAddress ⟨query, ⟨some (i + 1), some limit⟩⟩) =
        b.rows walletAddress ⟨query, ⟨none, none⟩⟩ := by
  simp only [rows_page horder]
  rw [flatMap_pages, List.take_of_length_le hreach]

/-- **The pages of a request.** As long as the tokens come in one order for all pages,
pages that reach to the last token of a request return exactly when the request without
pages does, and show together what that shows: each balance once, although the tokens
without one leave gaps on the pages. -/
theorem pages_show_all (b : Backend) (walletAddress : String) (query : TokenSearchQuery)
    (limit : ℤ) (count : ℕ) (horder : OneOrder b.db)
    (hreach : (walletTokens b.sources walletAddress ⟨query, ⟨none, none⟩⟩).length ≤
      count * pageSize limit) :
    ((∃ outputs, pages b walletAddress query limit count = .ok outputs) ↔
      ∃ whole, getWalletTokenBalances b.sources walletAddress ⟨query, ⟨none, none⟩⟩ =
        .ok whole) ∧
    ∀ outputs whole, pages b walletAddress query limit count = .ok outputs →
      getWalletTokenBalances b.sources walletAddress ⟨query, ⟨none, none⟩⟩ = .ok whole →
        outputs.flatten.Perm whole := by
  rw [walletTokens_eq, List.length_map] at hreach
  have hrows := flatMap_rows_page horder hreach
  refine ⟨?_, fun outputs whole houtputs hwhole => ?_⟩
  · unfold pages
    rw [Eff.except_mapM_ok_iff, returns_iff, ← hrows]
    simp only [returns_iff, List.mem_flatMap]
    constructor
    · rintro h row ⟨i, hi, hrow⟩
      exact h i hi row hrow
    · intro h i hi row hrow
      exact h row ⟨i, hi, hrow⟩
  · have hparts : List.Forall₂ List.Perm outputs ((List.range count).map fun i : ℕ =>
        shown b walletAddress (b.rows walletAddress ⟨query, ⟨some (i + 1), some limit⟩⟩)) := by
      refine List.forall₂_map_right_iff.mpr ?_
      exact (Eff.forall₂_of_mapM houtputs).flip.imp fun output i houtput =>
        shown_of_returns houtput
    refine (List.Perm.flatten_congr hparts).trans ?_
    rw [← List.flatMap_def]
    unfold shown
    rw [← List.map_flatMap, ← List.filter_flatMap, hrows]
    exact (shown_of_returns hwhole).symm

/-! ### A pair and one of its tokens

The pair is written by one pair job, and another one runs before the request. -/

def pairEnv : SchedulerJob.PairWindows.Env :=
  ⟨.steady [⟨"0xC1", some "0xA", some "0xB", false⟩], .none⟩

def pairWorld : World :=
  SchedulerJob.TokenTable.step (.pair 0 pairEnv) SchedulerJob.TokenTable.exampleWorld

def laterActions : List SchedulerJob.TokenTable.Action :=
  [.pair 1 SchedulerJob.TokenTable.secondEnv]

/-- Every token of the node has the same balance of every address. -/
def exampleNetwork : TokenBalances.Network where
  chain :=
    { staticcall := fun _ _ => ⟨true, Library.Abi.encodeWord (5 * 10 ^ 18)⟩
      balance := fun _ => 0 }
  fault := none

def exampleBackend (interactions : Interactions) : Backend where
  db :=
    { tokens := tokensOf (runAll SchedulerJob.TokenTable.step laterActions pairWorld).table
      networks := [⟨1, 56, true⟩]
      ids_distinct := List.nodup_singleton _
      sameSymbol := fun symbol text => symbol == text
      arrange := fun _ _ rows => rows
      arrange_perm := fun _ _ _ => .rfl }
  interactions := interactions
  networks chainId := if chainId = 56 then some exampleNetwork else none
  encodeAddress text := if text = "0xc1" then .ok 0xC1 else .ok 0xA1

def twoInteractions : Interactions :=
  Table.empty.insertAll [⟨1, "0xa1", some "0xc1"⟩, ⟨1, "0xa1", some "0xA"⟩]

theorem two_pages_show_all :
    (walletTokens (exampleBackend twoInteractions).sources "0xA1" ⟨{}, ⟨none, none⟩⟩).length = 2 ∧
      ∀ outputs whole, pages (exampleBackend twoInteractions) "0xA1" {} 1 2 = .ok outputs →
        getWalletTokenBalances (exampleBackend twoInteractions).sources "0xA1"
          ⟨{}, ⟨none, none⟩⟩ = .ok whole → outputs.flatten.Perm whole := by
  have hlength : (walletTokens (exampleBackend twoInteractions).sources "0xA1"
      ⟨{}, ⟨none, none⟩⟩).length = 2 := by decide +kernel
  exact ⟨hlength, (pages_show_all (exampleBackend twoInteractions) "0xA1" {} 1 2
    (fun _ _ _ _ => rfl) (Nat.le_of_eq hlength)).2⟩

/-! ## From a block to the balance -/

/-- The sender of a transaction to the address of a token that was in the table is shown its
balance in it, in whatever case the sender is written, and no token that it has none of. -/
def SeesBalances (b : Backend) (w : World) (tx : Transaction) : Prop :=
  ∀ row : Row, row.token ∈ (tokensOf w.table).rows →
    row.network ∈ b.db.networks → row.network.id = row.token.row.network →
    ∀ query, tokenWhere b.db (anyAddress query) row = true →
    ∀ address, tx.to_ = some address → sameText row.token.row.address address →
    ∀ walletAddress, sameText tx.from_ walletAddress →
    ∀ output, getWalletTokenBalances b.sources walletAddress ⟨query, ⟨none, none⟩⟩ =
      .ok output →
      (expected b.sources walletAddress (walletToken row) ∈ output ↔
        ownBalance b.sources walletAddress (walletToken row) ≠ 0)

theorem mem_shown_iff {rows : List Row} {row : Row} (hrow : row ∈ rows) :
    expected b.sources walletAddress (walletToken row) ∈ shown b walletAddress rows ↔
      ownBalance b.sources walletAddress (walletToken row) ≠ 0 := by
  rw [shown, List.mem_map]
  constructor
  · rintro ⟨other, hother, hsame⟩
    have hbalance := (List.mem_filter.mp hother).2
    have htoken : walletToken other = walletToken row := congrArg TokenBalanceItem.toToken hsame
    rw [htoken] at hbalance
    simpa using hbalance
  · intro h
    exact ⟨row, List.mem_filter.mpr ⟨hrow, by simpa using h⟩, rfl⟩

theorem seesBalances_of_recorded {w w' : World} {network : ℕ}
    {tx : Transaction} (hrecorded : Recorded network b.interactions tx)
    (htokens : b.db.tokens = tokensOf w'.table)
    (hextended : (tokensOf w.table).rows <+: (tokensOf w'.table).rows) : SeesBalances b w tx := by
  intro row htoken hnetwork hjoined query hwhere address hto hat walletAddress hfrom output houtput
  have hinteracted : Interacted b.interactions walletAddress row.token.row.address := by
    obtain ⟨interaction, hmem, hsender, own, hown, hsame⟩ :=
      interacted_of_recorded hrecorded hfrom hto
    exact ⟨interaction, hmem, hsender, own, hown, hat.trans hsame⟩
  have hmem : row.token ∈ b.db.tokens.rows := htokens ▸ hextended.subset htoken
  have hwanted : Wanted b walletAddress query row :=
    ⟨mem_joinedRows.mpr ⟨hmem, hnetwork, hjoined⟩, hwhere, hinteracted⟩
  rw [(shown_of_returns houtput).mem_iff]
  exact mem_shown_iff (mem_rows_iff.mpr hwanted)

/-- **From a block to the balance.** However the requests and the runs of the jobs of all
networks interleave, and however the runs of all pair and price jobs follow one another,
when the node's error entries only concern blocks without a transaction to a contract:
each block that the cursor of a network has passed was passed in one run, and of each
transaction that this run found to be sent to a contract, the sender is shown the balance
of the token at its address, if there was one at any time, unless a request to delete the
transaction's row came to its delete since. -/
theorem sender_sees_balance {chain : ℕ → ℕ → List Transaction} {s t : Server}
    (h : Reaches (step chain) (IdleErrors chain) s t) (w : World)
    (acts : List SchedulerJob.TokenTable.Action) (b : Backend)
    (hinteractions : b.interactions = t.interactions)
    (htokens : b.db.tokens = tokensOf (runAll SchedulerJob.TokenTable.step acts w).table)
    {network block : ℕ} (hstart : cursor (s.db network) ≤ block)
    (hstop : block < cursor (t.db network)) :
    ∃ u env v, Passed chain s t network block u env v ∧
      ∀ tx ∈ chain network block, SentToContract env tx →
        DeletedBetween chain v t network tx ∨ SeesBalances b w tx := by
  have hkept : PassedKept chain s t := passedKept_of_idleErrors h
  obtain ⟨u, env, v, hpassed, htransactions⟩ := hkept network block hstart hstop
  refine ⟨u, env, v, hpassed, fun tx htx hsent => ?_⟩
  rcases htransactions tx htx hsent with hrecorded | hdeleted
  · refine Or.inr (seesBalances_of_recorded (hinteractions ▸ hrecorded) htokens ?_)
    exact runAll_rel (r := fun u v => (tokensOf u.table).rows <+: (tokensOf v.table).rows)
      (fun _ => List.prefix_refl _) (fun _ _ _ => List.IsPrefix.trans)
      fun act u _ => tokens_extended act u
  · exact Or.inl hdeleted

/-! ### The call of a pair -/

def pairToken : Token := ⟨56, .MULTI, "0xc1", "0xa-0xb", "0xc1", 18⟩

theorem pairToken_answers (interactions : Interactions) :
    Answers (exampleBackend interactions).sources "0xA1" pairToken :=
  ⟨exampleNetwork, 0xA1, 0xC1, rfl, rfl, rfl, rfl, fun _ _ _ => by decide⟩

/-- The sender of block `0` asks with its address in another case. -/
theorem pair_balance_shown :
    ∃ t, Reaches (step exampleChains) (IdleErrors exampleChains) exampleServer t ∧
      (∃ u env v, Passed exampleChains exampleServer t 1 0 u env v ∧
        ∀ tx ∈ exampleChains 1 0, SentToContract env tx →
          DeletedBetween exampleChains v t 1 tx ∨
            SeesBalances (exampleBackend t.interactions) pairWorld tx) ∧
      getWalletTokenBalances (exampleBackend t.interactions).sources "0xA1" ⟨{}, ⟨none, none⟩⟩ =
        .ok [⟨pairToken, ⟨.finite 5⟩⟩] := by
  have hidle : IdleErrors exampleChains exampleServer (.job 1 exampleEnv) :=
    fun _ _ _ _ _ herror => by cases herror
  have hrun : Reaches (step exampleChains) (IdleErrors exampleChains) exampleServer _ :=
    .next .start hidle rfl
  refine ⟨_, hrun, sender_sees_balance hrun pairWorld laterActions (exampleBackend _) rfl rfl
    (by decide) (by decide), ?_⟩
  generalize hb : exampleBackend _ = b
  have hrows : (b.rows "0xA1" ⟨{}, ⟨none, none⟩⟩).map walletToken = [pairToken] := by
    rw [← hb]
    decide +kernel
  have hshown : shown b "0xA1" (b.rows "0xA1" ⟨{}, ⟨none, none⟩⟩) = [⟨pairToken, ⟨.finite 5⟩⟩] := by
    rw [← hb]
    decide +kernel
  obtain ⟨output, houtput⟩ : ∃ output, getWalletTokenBalances b.sources "0xA1"
      ⟨{}, ⟨none, none⟩⟩ = .ok output := by
    refine returns_iff.mpr fun row hrow => ?_
    have htoken := hrows ▸ List.mem_map_of_mem (f := walletToken) hrow
    rw [List.mem_singleton.mp htoken, ← hb]
    exact pairToken_answers _
  have hperm := shown_of_returns houtput
  rw [hshown, List.perm_singleton] at hperm
  rw [houtput, hperm]

end BlockchainTask.Wallet.HeldTokens

import BlockchainTask.Defi.VenusWallet
import BlockchainTask.Repository.LendingSearch
import BlockchainTask.SchedulerJob.VenusHistory

/-! # The lendings of a wallet

The lending request of a wallet on the table as the job leaves it. The service asks the
comptroller for the markets that the wallet has entered, but the search does not look at
them: the wallet is asked for in every active market of the protocol. So it is shown a
market exactly while the job has seen it listed and the wallet has something in it,
whether or not it has entered the market. -/
namespace BlockchainTask.Wallet.WalletLendings
open BlockchainTask.Common.Exception BlockchainTask.Helper BlockchainTask.Helper.BatchContract
open BlockchainTask.Helper.Decimals BlockchainTask.Library.Decimal BlockchainTask.Library.Effect
open BlockchainTask.Library.IndexedLoop BlockchainTask.Library.Store
open BlockchainTask.Library.Transaction
open BlockchainTask.Defi.VenusBSCService BlockchainTask.Defi.VenusWallet
open BlockchainTask.Repository.FarmSearch (PaginationRequest given pageOf pageOf_sublist transform)
open BlockchainTask.Repository.Lending BlockchainTask.Repository.LendingSearch
open BlockchainTask.SchedulerJob.Base BlockchainTask.SchedulerJob.VenusHistory
open BlockchainTask.SchedulerJob.VenusLending (Env MarketInfos MarketStatus)

/-! ## The request -/

/-- The query of a request, with the keys that no search knows. -/
structure Params where
  query : LendingSearchQuery := {}
  pagination : PaginationRequest := ⟨none, none⟩
  others : List String := []

/-- `isEmpty(params)`. -/
def Params.isEmpty (params : Params) : Bool :=
  decide (params.query = {}) && params.pagination.page.isNone && params.pagination.limit.isNone &&
    params.others.isEmpty

/-- What the node answers about a wallet: the markets it has entered, and the calls of a
batch. -/
structure Node where
  getAssetsIn : String → Except Thrown (List String)
  answer : ℕ → WalletCall → Result
  batchFault : Option Thrown

def Node.batch (node : Node) (calls : List WalletCall) : Except Thrown (List Result) :=
  match node.batchFault with
  | some e => .error e
  | none => .ok (calls.mapIdx node.answer)

/-- A service with lendings that `DeFiService` has found. -/
structure Service where
  protocol : ℕ
  node : Node

def marketOf (row : Row) : Market := ⟨row.lending.row, row.token⟩

/-- What a service searches lendings by. -/
def serviceQuery (params : Params) (protocol : ℕ) (userAssets : List String) :
    LendingSearchQuery :=
  { params.query with protocolId := some protocol, addresses := some userAssets }

/-- `VenusBSCService.getWalletLendings`. -/
def getWalletLendings (db : Database) (service : Service) (walletAddress : String)
    (params : Params) : Except Thrown (List MarketWallet) := do
  let userAssets ← service.node.getAssetsIn walletAddress
  let items ← search db (serviceQuery params service.protocol userAssets)
    (transform params.pagination)
  getLendingWalletInfo service.node.batch (items.map marketOf) walletAddress

structure Sources where
  db : Database
  services : List Service

variable (sources : Sources) (walletAddress : String) (params : Params)

def getService (id : ℕ) : Option Service :=
  sources.services.find? fun service => service.protocol == id

def protocolIds : Except Thrown (List ℕ) :=
  if !params.isEmpty then searchDistinct sources.db params.query
  else .ok (searchProtocols sources.db)

def serviceLendings (id : ℕ) : Except Thrown (List MarketWallet) :=
  match getService sources id with
  | none => .error typeError
  | some service => getWalletLendings sources.db service walletAddress params

def getWalletLendingInfos : Except Thrown (List MarketWallet) := do
  let ids ← protocolIds sources params
  let result ← ids.mapM (serviceLendings sources walletAddress params)
  pure result.flatten

/-! ## One market -/

variable {sources walletAddress params} {service : Service} {market : Market}

/-- The answers of a market's contract to the calls about a wallet, in whatever place. -/
structure Answers (node : Node) (walletAddress address : String) (balance rate borrowed : ℕ) :
    Prop where
  balanceOf : ∀ i text, sameText text address →
    node.answer i ⟨some text, .balanceOf walletAddress⟩ = ⟨true, .uint256 balance⟩
  exchangeRateStored : ∀ i text, sameText text address →
    node.answer i ⟨some text, .exchangeRateStored⟩ = ⟨true, .uint256 rate⟩
  borrowBalanceStored : ∀ i text, sameText text address →
    node.answer i ⟨some text, .borrowBalanceStored walletAddress⟩ = ⟨true, .uint256 borrowed⟩

/-- What the balance is worth in the units of the underlying token, rounded to whole
ones. -/
def supplied (balance rate : ℕ) : ℤ := halfUp ((balance : ℚ) * rate / 10 ^ 18)

/-- What is reported of a market. -/
def reported (market : Market) (balance rate borrowed : ℕ) : MarketWallet :=
  ⟨market, .finite (supplied balance rate / 10 ^ market.token.decimals),
    .finite (borrowed / 10 ^ market.token.decimals)⟩

theorem supplied_eq_zero_iff (balance rate : ℕ) :
    supplied balance rate = 0 ↔ 2 * (balance * rate) < 10 ^ 18 := by
  have hnonneg : (0 : ℚ) ≤ (balance : ℚ) * rate / 10 ^ 18 := by positivity
  rw [supplied, halfUp_eq_zero_iff hnonneg, div_lt_div_iff₀ (pow_ten_pos 18) (by norm_num)]
  constructor
  · intro h
    have hcast : ((2 * (balance * rate) : ℕ) : ℚ) < ((10 ^ 18 : ℕ) : ℚ) := by
      push_cast
      linarith
    exact_mod_cast hcast
  · intro h
    have hcast : ((2 * (balance * rate) : ℕ) : ℚ) < ((10 ^ 18 : ℕ) : ℚ) := by exact_mod_cast h
    push_cast at hcast
    linarith

theorem supplyAmount_of_numbers (market : Market) (balance rate : ℕ) :
    supplyAmount market ⟨true, .uint256 balance⟩ ⟨true, .uint256 rate⟩ =
      .finite (supplied balance rate / 10 ^ market.token.decimals) := by
  have hexact : roundHalfUp DECIMAL_PLACES ((balance : ℚ) * rate / 10 ^ 18) =
      (balance : ℚ) * rate / 10 ^ 18 := by
    have hround := roundHalfUp_div_pow (show 18 ≤ DECIMAL_PLACES by decide)
      ((balance * rate : ℕ) : ℤ)
    push_cast at hround
    exact hround
  have hwhole : roundHalfUp 0 ((balance : ℚ) * rate / 10 ^ 18) = supplied balance rate := by
    rw [roundHalfUp, pow_zero, mul_one, div_one, supplied]
  unfold supplyAmount
  rw [show rawAmount ⟨true, .uint256 balance⟩ = balance from rfl,
    show rawAmount ⟨true, .uint256 rate⟩ = rate from rfl, mul_finite,
    div_finite (pow_ten_pos 18).ne', hexact, Number.rounded, hwhole, divideDecimals_finite]

theorem borrowAmount_of_number (market : Market) (borrowed : ℕ) :
    borrowAmount market ⟨true, .uint256 borrowed⟩ =
      .finite (borrowed / 10 ^ market.token.decimals) := by
  rw [borrowAmount, show rawAmount ⟨true, .uint256 borrowed⟩ = borrowed from rfl,
    divideDecimals_finite]

theorem expected_of_numbers (market : Market) (balance rate borrowed : ℕ) :
    expected market ⟨true, .uint256 balance⟩ ⟨true, .uint256 rate⟩ ⟨true, .uint256 borrowed⟩ =
      if 10 ^ 18 ≤ 2 * (balance * rate) ∨ borrowed ≠ 0 then
        some (reported market balance rate borrowed) else none := by
  have hpow := (pow_ten_pos market.token.decimals).ne'
  have hzero : (isZero (.finite (supplied balance rate / 10 ^ market.token.decimals)) &&
      isZero (.finite ((borrowed : ℚ) / 10 ^ market.token.decimals))) = true ↔
      ¬ (10 ^ 18 ≤ 2 * (balance * rate) ∨ borrowed ≠ 0) := by
    rw [Bool.and_eq_true, isZero_finite, isZero_finite, decide_eq_true_iff, decide_eq_true_iff,
      div_eq_zero_iff, div_eq_zero_iff, or_iff_left hpow, or_iff_left hpow, Int.cast_eq_zero,
      Nat.cast_eq_zero, supplied_eq_zero_iff, not_or, not_le, not_not]
  unfold expected
  rw [supplyAmount_of_numbers, borrowAmount_of_number]
  by_cases hany : 10 ^ 18 ≤ 2 * (balance * rate) ∨ borrowed ≠ 0
  · rw [if_neg fun hnone => hzero.mp hnone hany, if_pos hany]
    rfl
  · rw [if_pos (hzero.mpr hany), if_neg hany]

/-- Where a contract answers, its market is reported exactly if there is anything in it. -/
theorem walletRow_of_answers {i : ℕ} {address : String} {balance rate borrowed : ℕ}
    (hanswers : Answers service.node walletAddress address balance rate borrowed)
    (haddress : hasAddress address market.lending = true) :
    walletRow service.node.answer walletAddress i market =
      .ok (if 10 ^ 18 ≤ 2 * (balance * rate) ∨ borrowed ≠ 0 then
        some (reported market balance rate borrowed) else none) := by
  obtain ⟨text, htext, hsame⟩ : ∃ text, market.lending.address = some text ∧
      sameText text address := by
    unfold hasAddress at haddress
    cases htext : market.lending.address with
    | none =>
      rw [htext] at haddress
      cases haddress
    | some text =>
      rw [htext] at haddress
      exact ⟨text, rfl, of_decide_eq_true haddress⟩
  rw [walletRow, answersOf]
  simp only [htext]
  rw [hanswers.balanceOf _ text hsame, hanswers.exchangeRateStored _ text hsame,
    hanswers.borrowBalanceStored _ text hsame, ← expected_of_numbers]
  refine walletOf_of_guarded market ?_ ?_ ?_ ⟨?_, ?_⟩
  · exact fun _ hdata => by cases hdata
  · exact fun _ hdata => by cases hdata
  · exact fun _ hdata => by cases hdata
  · exact fun _ hdata => by cases hdata
  · exact fun _ _ _ _ hnull => by cases hnull

/-- What is reported of a market is about this market. -/
theorem market_of_walletRow {answer : ℕ → WalletCall → Result} {i : ℕ} {item : MarketWallet}
    (h : walletRow answer walletAddress i market = .ok (some item)) : item.market = market := by
  unfold walletRow walletOf at h
  obtain ⟨_, _, h⟩ := Eff.except_bind_eq_ok.mp h
  obtain ⟨_, _, h⟩ := Eff.except_bind_eq_ok.mp h
  obtain ⟨_, _, h⟩ := Eff.except_bind_eq_ok.mp h
  have hreported := Except.ok.inj h
  split at hreported
  · cases hreported
  · cases hreported
    rfl

/-! ## A service -/

variable {db : Database}

/-- A service that answers reports what there is in the rows that it found. -/
theorem lendings_of_ok {out : List MarketWallet}
    (h : getWalletLendings db service walletAddress params = .ok out) :
    ∃ entered rows, search db (serviceQuery params service.protocol entered)
        (transform params.pagination) = .ok rows ∧
      ∀ item, item ∈ out ↔ ∃ i row, rows[i]? = some row ∧
        walletRow service.node.answer walletAddress i (marketOf row) = .ok (some item) := by
  obtain ⟨entered, _, h⟩ := Eff.except_bind_eq_ok.mp h
  obtain ⟨rows, hrows, h⟩ := Eff.except_bind_eq_ok.mp h
  refine ⟨entered, rows, hrows, fun item => ?_⟩
  have hbatch : service.node.batch = fun calls => .ok (calls.mapIdx service.node.answer) := by
    funext calls
    cases hfault : service.node.batchFault with
    | some e =>
      simp only [getLendingWalletInfo, Node.batch, hfault] at h
      cases h
    | none => rw [Node.batch, hfault]
  rw [hbatch, getLendingWalletInfo_eq] at h
  obtain ⟨results, hresults, h⟩ := Eff.except_bind_eq_ok.mp h
  cases h
  rw [List.mem_filterMap]
  constructor
  · rintro ⟨result, hresult, rfl⟩
    obtain ⟨i, market, hmarket, hreported⟩ := (mem_iff_of_mapIndex hresults _).mp hresult
    rw [List.getElem?_map] at hmarket
    obtain ⟨row, hrow, rfl⟩ := Option.map_eq_some_iff.mp hmarket
    exact ⟨i, row, hrow, hreported⟩
  · rintro ⟨i, row, hrow, hreported⟩
    refine ⟨some item, (mem_iff_of_mapIndex hresults _).mpr ⟨i, marketOf row, ?_, hreported⟩, rfl⟩
    rw [List.getElem?_map, hrow]
    rfl

/-- What it reports is a row of its protocol that the search finds. -/
theorem row_of_lendings {out : List MarketWallet}
    (h : getWalletLendings db service walletAddress params = .ok out) {item : MarketWallet}
    (hitem : item ∈ out) :
    ∃ entered i row, row ∈ searchQueryBuilder db (serviceQuery params service.protocol entered) ∧
      item.market = marketOf row ∧ row.lending.row.protocol = service.protocol ∧
        walletRow service.node.answer walletAddress i (marketOf row) = .ok (some item) := by
  obtain ⟨entered, rows, hrows, hout⟩ := lendings_of_ok h
  obtain ⟨i, row, hrow, hreported⟩ := (hout item).mp hitem
  have hfound := (search_sublist hrows).subset (List.mem_of_getElem? hrow)
  exact ⟨entered, i, row, hfound, market_of_walletRow hreported,
    protocol_of_where (mem_searchQueryBuilder.mp hfound).2.1, hreported⟩

/-! ## A request after a run -/

/-- The market is the one at an address, under a protocol. -/
def ofMarket (protocol : ℕ) (address : String) (item : MarketWallet) : Prop :=
  item.market.lending.protocol = protocol ∧ hasAddress address item.market.lending = true

/-- A request for the lendings of a protocol: its service is asked, and the query has no
condition on the rows and no page. -/
structure Asks (sources : Sources) (params : Params) (service : Service) (protocol : Protocol) :
    Prop where
  service_found : getService sources service.protocol = some service
  protocol_mem : protocol ∈ sources.db.protocols
  protocol_id : protocol.id = service.protocol
  protocol_status : protocol.status = true
  asked : ∀ ids, protocolIds sources params = .ok ids → service.protocol ∈ ids
  id_free : params.query.id = none
  ids_free : params.query.ids = none
  address_free : given params.query.address = none
  unpaged : params.pagination = ⟨none, none⟩

variable {protocol : Protocol} {address : String}

/-- A result has what the services of its protocols report. -/
theorem mem_getWalletLendingInfos {items : List MarketWallet}
    (hitems : getWalletLendingInfos sources walletAddress params = .ok items)
    (hfound : getService sources service.protocol = some service)
    (hasked : ∀ ids, protocolIds sources params = .ok ids → service.protocol ∈ ids) :
    ∃ out, getWalletLendings sources.db service walletAddress params = .ok out ∧
      ∀ item, item.market.lending.protocol = service.protocol → (item ∈ items ↔ item ∈ out) := by
  obtain ⟨ids, hids, hitems⟩ := Eff.except_bind_eq_ok.mp hitems
  obtain ⟨result, hresult, hitems⟩ := Eff.except_bind_eq_ok.mp hitems
  cases hitems
  have hserved := Eff.except_mapM_ok_iff.mp ⟨result, hresult⟩
  obtain ⟨out, hout⟩ := hserved _ (hasked ids hids)
  have hown := hout
  rw [serviceLendings, hfound] at hown
  refine ⟨out, hown, fun item hprotocol => ?_⟩
  rw [Eff.except_mapM_eq_map hresult [], List.mem_flatten]
  constructor
  · rintro ⟨array, harray, hitem⟩
    obtain ⟨id, hid, rfl⟩ := List.mem_map.mp harray
    obtain ⟨other, hother⟩ := hserved id hid
    rw [hother] at hitem
    change item ∈ other at hitem
    unfold serviceLendings at hother
    cases hservice : getService sources id with
    | none =>
      rw [hservice] at hother
      cases hother
    | some found =>
      rw [hservice] at hother
      have hfoundId : found.protocol = id := by simpa using List.find?_some hservice
      obtain ⟨_, _, row, _, hmarket, hrow, _⟩ := row_of_lendings hother hitem
      -- the rows of another protocol are not its own
      have hsame : found.protocol = service.protocol := by
        rw [← hrow, ← hprotocol, hmarket]
        rfl
      rw [← hfoundId, hsame, hfound] at hservice
      cases hservice
      cases hown.symm.trans hother
      exact hitem
  · intro hitem
    exact ⟨out, List.mem_map.mpr ⟨_, hasked ids hids, by rw [hout]; rfl⟩, hitem⟩

/-- Where the contract of a market answers, a request shows the market exactly if it has
an active row and the wallet has anything in it, and then with what the wallet has. -/
theorem market_shown_iff {balance rate borrowed : ℕ} {items : List MarketWallet}
    (hasks : Asks sources params service protocol)
    (hanswers : Answers service.node walletAddress address balance rate borrowed)
    (hitems : getWalletLendingInfos sources walletAddress params = .ok items) :
    ((∃ item ∈ items, ofMarket service.protocol address item) ↔
        (∃ r ∈ rowsOf service.protocol address sources.db.lendings, r.status = true) ∧
          (10 ^ 18 ≤ 2 * (balance * rate) ∨ borrowed ≠ 0)) ∧
      ∀ item ∈ items, ofMarket service.protocol address item →
        item = reported item.market balance rate borrowed := by
  obtain ⟨out, hout, hmem⟩ := mem_getWalletLendingInfos hitems hasks.service_found hasks.asked
  have hshown : ∀ item ∈ items, ofMarket service.protocol address item →
      (10 ^ 18 ≤ 2 * (balance * rate) ∨ borrowed ≠ 0) ∧
        item = reported item.market balance rate borrowed ∧
          ∃ r ∈ rowsOf service.protocol address sources.db.lendings, r.status = true := by
    intro item hitem hof
    obtain ⟨entered, i, row, hrow, hmarket, hprotocol, hreported⟩ :=
      row_of_lendings hout ((hmem item hof.1).mp hitem)
    have haddress : hasAddress address (marketOf row).lending = true := hmarket ▸ hof.2
    rw [walletRow_of_answers hanswers haddress] at hreported
    have hvalue := Except.ok.inj hreported
    obtain ⟨hstored, hwhere, _⟩ := mem_searchQueryBuilder.mp hrow
    simp only [lendingWhere, Bool.and_eq_true] at hwhere
    have hrowOf : row.lending.row ∈ rowsOf service.protocol address sources.db.lendings := by
      refine List.mem_filter.mpr ⟨List.mem_map_of_mem hstored, ?_⟩
      rw [hprotocol, beq_self_eq_true, Bool.true_and]
      exact haddress
    split at hvalue
    · rename_i hany
      rw [hmarket]
      exact ⟨hany, (Option.some.inj hvalue).symm, _, hrowOf, hwhere.1.1.1.2⟩
    · cases hvalue
  refine ⟨⟨?_, ?_⟩, fun item hitem hof => (hshown item hitem hof).2.1⟩
  · rintro ⟨item, hitem, hof⟩
    exact ⟨(hshown item hitem hof).2.2, (hshown item hitem hof).1⟩
  · rintro ⟨⟨r, hr, hactive⟩, hany⟩
    obtain ⟨hcontent, hown⟩ := List.mem_filter.mp hr
    obtain ⟨s, hs, rfl⟩ := List.mem_map.mp hcontent
    obtain ⟨hprotocol, haddress⟩ := Bool.and_eq_true_iff.mp hown
    have hrowProtocol : s.row.protocol = service.protocol := by simpa using hprotocol
    obtain ⟨token, htoken⟩ := tokenOf_isSome hs
    obtain ⟨entered, rows, hrows, hlendings⟩ := lendings_of_ok hout
    have hjoined : protocolOf sources.db s.row = some protocol :=
      protocolOf_eq_some_iff.mpr ⟨hasks.protocol_mem, hasks.protocol_id.trans hrowProtocol.symm⟩
    have hfound : (⟨s, token⟩ : Row) ∈ searchQueryBuilder sources.db
        (serviceQuery params service.protocol entered) := by
      refine mem_searchQueryBuilder.mpr ⟨hs, ?_, htoken⟩
      simp only [lendingWhere, serviceQuery, hjoined, hasks.id_free, hasks.ids_free,
        hasks.address_free, hasks.protocol_status, hasks.protocol_id, hactive, Option.any_some,
        Option.all_some, Option.all_none, beq_self_eq_true, Bool.and_true]
    rw [hasks.unpaged] at hrows
    obtain ⟨_, _, hpage⟩ := Eff.except_bind_eq_ok.mp hrows
    cases hpage
    obtain ⟨i, hi⟩ := List.mem_iff_getElem?.mp hfound
    have hreported : walletRow service.node.answer walletAddress i (marketOf ⟨s, token⟩) = _ :=
      walletRow_of_answers hanswers haddress
    rw [if_pos hany] at hreported
    have hitem := (hlendings _).mpr ⟨i, _, hi, hreported⟩
    exact ⟨_, (hmem (reported (marketOf ⟨s, token⟩) balance rate borrowed) hrowProtocol).mpr hitem,
      hrowProtocol, haddress⟩

/-- **A wallet is shown the listed markets it has something in.** After any run of the job
in which the turns of a market did not fail (with known lendings for the markets that are
not listed), an unpaged request that returns shows the market exactly if the run saw it
listed and the wallet has a debt, or a balance worth half a unit of the token, in it; and
it shows the amounts that the contract of the market answers. Which markets the wallet has
entered makes no difference, and what it has in one that is not listed is not shown. -/
theorem listed_market_shown (env : Env) (d : Db Lendings) (sources : Sources) (address : String)
    (infos : MarketInfos) (status : MarketStatus) (token : LendingToken) (params : Params)
    (service : Service) (protocol : Protocol) (walletAddress : String)
    (balance rate borrowed : ℕ) (items : List MarketWallet) (hknown : StartsKnown env d)
    (hvisited : address ∈ (visited env d).map Prod.fst)
    (hreturns : ∀ v ∈ visited env d, v.1 = address → Returns env v)
    (hregistered : Registered env address infos status token)
    (hservice : service.protocol = env.context.protocol)
    (htable : rowsOf env.context.protocol address sources.db.lendings =
      rowsOf env.context.protocol address (step env d).tables)
    (hasks : Asks sources params service protocol)
    (hanswers : Answers service.node walletAddress address balance rate borrowed)
    (hitems : getWalletLendingInfos sources walletAddress params = .ok items) :
    ((∃ item ∈ items, ofMarket service.protocol address item) ↔
        status.isListed = true ∧ (10 ^ 18 ≤ 2 * (balance * rate) ∨ borrowed ≠ 0)) ∧
      ∀ item ∈ items, ofMarket service.protocol address item →
        item = reported item.market balance rate borrowed := by
  have hlisting : (∃ r ∈ rowsOf service.protocol address sources.db.lendings, r.status = true) ↔
      status.isListed = true := by
    rw [hservice, htable]
    exact tracks_of_startsKnown hknown address hvisited hreturns infos status token hregistered
  rw [← hlisting]
  exact market_shown_iff hasks hanswers hitems

/-! ## A debt in a market that was not entered -/

def wallet : String := "0x0000000000000000000000000000000000000007"

/-- The wallet has entered no market, and owes five units of the token in each. -/
def exampleNode : Node where
  getAssetsIn _ := .ok []
  answer _ call :=
    match call.data with
    | .balanceOf _ => ⟨true, .uint256 0⟩
    | .exchangeRateStored => ⟨true, .uint256 (2 * 10 ^ 26)⟩
    | .borrowBalanceStored _ => ⟨true, .uint256 5⟩
  batchFault := none

theorem exampleNode_answers (address : String) :
    Answers exampleNode wallet address 0 (2 * 10 ^ 26) 5 :=
  ⟨fun _ _ _ => rfl, fun _ _ _ => rfl, fun _ _ _ => rfl⟩

theorem exampleRun_joined : ∀ s ∈ (step (marketRun true) emptyDb).tables.rows,
    ∃ token ∈ [marketToken], token.id = s.row.token := by
  intro s hs
  have hall : ((step (marketRun true) emptyDb).tables.rows.all fun s =>
      marketToken.id == s.row.token) = true := by decide +kernel
  exact ⟨marketToken, List.mem_singleton_self _, eq_of_beq (List.all_eq_true.mp hall s hs)⟩

def exampleSources : Sources where
  db :=
    { lendings := (step (marketRun true) emptyDb).tables
      tokens := [marketToken]
      tokens_distinct := List.nodup_singleton _
      joined := exampleRun_joined
      protocols := [⟨1, true, true, true⟩]
      ids_distinct := List.nodup_singleton _
      arrange := fun _ rows => rows
      arrange_perm := fun _ _ => List.Perm.refl _
      arrangeIds := id
      arrangeIds_perm := List.Perm.refl }
  services := [⟨1, exampleNode⟩]

/-- The run sees the market listed, and the debt is shown. -/
theorem debt_shown : ∃ items, getWalletLendingInfos exampleSources wallet {} = .ok items ∧
    ∃ item ∈ items, ofMarket 1 "0x5a" item := by
  have hok : (getWalletLendingInfos exampleSources wallet {}).toOption.isSome = true := by
    decide +kernel
  cases hitems : getWalletLendingInfos exampleSources wallet {} with
  | error e =>
    rw [hitems] at hok
    cases hok
  | ok items =>
    refine ⟨items, rfl, ?_⟩
    have hregistered : Registered (marketRun true) "0x5a" (marketInfos true)
        ⟨true, 10 ^ 17⟩ marketToken := ⟨rfl, rfl, rfl⟩
    have hstart : StartsKnown (marketRun true) emptyDb := by
      intro market hmarket _ infos status token h hunlisted
      obtain rfl := marketRun_visited hmarket
      rw [(marketRun_registered h).1] at hunlisted
      cases hunlisted
    have hshown := listed_market_shown (marketRun true) emptyDb exampleSources "0x5a"
      (marketInfos true) ⟨true, 10 ^ 17⟩ marketToken {} ⟨1, exampleNode⟩ ⟨1, true, true, true⟩
      wallet 0 (2 * 10 ^ 26) 5 items hstart List.mem_cons_self
      (fun v hv _ => by
        rw [visited_marketRun] at hv
        rw [List.mem_singleton.mp hv]
        exact returns_of_isOk _ (by decide +kernel))
      hregistered rfl (by simp only [exampleSources])
      { service_found := rfl
        protocol_mem := List.mem_singleton_self _
        protocol_id := rfl
        protocol_status := rfl
        asked := fun ids hids => by
          cases hids
          exact List.mem_singleton_self _
        id_free := rfl
        ids_free := rfl
        address_free := rfl
        unpaged := rfl }
      (exampleNode_answers "0x5a") hitems
    exact hshown.1.mpr ⟨rfl, Or.inr (by decide)⟩

end BlockchainTask.Wallet.WalletLendings

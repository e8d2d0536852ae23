import BlockchainTask.Multicalls.BatchSafety
import BlockchainTask.SchedulerJob.PriceRange

/-! # From the feeds to the price column

The ChainLink job asks `MultiCall` for the supplies and for the feeds of a chunk of
tokens, and writes a price for each feed with an answer. An answer is a signed number,
which the contract reads without its sign. One return that does not decode ends the run:
the chunks before it are written, and no other one is. -/
namespace BlockchainTask.SchedulerJob.ChainLinkPrices
open BlockchainTask.Common.Exception BlockchainTask.Helper BlockchainTask.Helper.Decimals
open BlockchainTask.Library.Abi BlockchainTask.Library.Decimal BlockchainTask.Library.Effect
open BlockchainTask.Library.IndexedLoop BlockchainTask.Library.Store
open BlockchainTask.Library.Transaction
open BlockchainTask.Multicalls.BatchSafety BlockchainTask.Multicalls.MultiCall
open BlockchainTask.Repository.Farm (decimalColumn)
open BlockchainTask.Repository.PricedToken BlockchainTask.SchedulerJob.Base
open BlockchainTask.SchedulerJob.PriceRange (loadedToken)
open BlockchainTask.SchedulerJob.PriceRefresh BlockchainTask.SchedulerJob.PriceTemplate
open BlockchainTask.SchedulerJob.TokenPrice (TokenEntity UpdateParam)
open BlockchainTask.SchedulerJob.TokenPrice.ChainLink (Feed MAX_SAFE_INTEGER updateParam)

/-! ## The job -/

/-- A token with `network.chain_id`. -/
structure LinkedToken extends TokenEntity where
  chain_id : ℕ

/-- A provider: the chain as either call finds it, and whether the call fails. -/
structure Provider where
  supplyChain : Chain
  supplyFault : Option Thrown
  feedChain : Chain
  feedFault : Option Thrown

/-- What the job reads besides the tokens. -/
structure Sources where
  chain_id : ℕ → ℕ
  network_status : ℕ → Bool
  providers : ℕ → Option Provider
  /-- How a text is encoded as an address, where it is one. -/
  encodeAddress : String → Except Thrown Address

section
variable (sources : Sources)

def linked (s : Stored PricedRow) : LinkedToken :=
  { loadedToken sources.network_status s with chain_id := sources.chain_id s.row.token.network }

/-- `{ price_address: Not(IsNull()), status: true, network: { status: true } }`. -/
def wanted (token : LinkedToken) : Bool :=
  token.price_address.isSome && token.status && token.network_status

def findTokens (t : PricedTokens) : List LinkedToken :=
  (t.rows.map (linked sources)).filter wanted

def getTokens : JobEff PricedTokens (List LinkedToken) :=
  connectionRead none fun d => findTokens sources d.tables

def encodeFeed (price_address : Option String) : Except Thrown Address :=
  price_address.elim (.error (rawError "invalid address")) sources.encodeAddress

end

section
variable {α β : Type}

/-- A function of `MultiCall` by way of a provider. -/
def request (fault : Option Thrown) (batch : List Address → Except Revert (List α))
    (encode : β → Except Thrown Address) (xs : List β) : Except Thrown (List α) := do
  let addresses ← xs.mapM encode
  match fault, batch addresses with
  | some fault, _ => .error fault
  | none, .error _ => .error (rawError "missing revert data in call exception")
  | none, .ok entries => .ok entries

end

section
variable (sources : Sources)

def getBatchERC20TotalSupply (provider : Provider) (addresses : List String) :
    Except Thrown (List ℕ) :=
  request provider.supplyFault
    (Multicalls.MultiCall.getBatchERC20TotalSupply fun _ => provider.supplyChain)
    sources.encodeAddress addresses

def getBatchChainLinkData (provider : Provider) (feeds : List (Option String)) :
    Except Thrown (List Feed) := do
  let chainLinkData ← request provider.feedFault
    (Multicalls.MultiCall.getBatchChainLinkData fun _ => provider.feedChain) (encodeFeed sources)
      feeds
  pure (chainLinkData.map fun data => ⟨data.answer, data.decimals⟩)

/-- Without an entry for the chain, reading its provider throws. -/
def crawlTokenSupplyAndPrice (chainId : ℕ) (targetTokens : List LinkedToken) :
    Except Thrown (List UpdateParam) :=
  match sources.providers chainId with
  | none => .error typeError
  | some provider =>
    TokenPrice.ChainLink.crawlTokenSupplyAndPrice (getBatchERC20TotalSupply sources provider)
      (getBatchChainLinkData sources provider) (targetTokens.map LinkedToken.toTokenEntity)

def crawl : Crawl LoggerData LinkedToken where
  crawlTokenSupplyAndPrice chainId targetTokens :=
    .await (crawlTokenSupplyAndPrice sources chainId targetTokens)
  writesNothing _ _ s := by
    rw [Eff.wp_await]
    exact ⟨fun _ _ => rfl, fun _ _ => rfl⟩

/-- A run with a database that does not fail. -/
def run : JobEff PricedTokens Unit :=
  PriceTemplate.run (getTokens sources) (crawl sources) (fun _ _ _ => Faults.none)
    LinkedToken.chain_id

end

/-! ## A request -/

section
variable {α β : Type} {fault : Option Thrown} {item : Address → Except Revert α} {blank : α}
variable {encode : β → Except Thrown Address} {xs : List β}

theorem request_ok {entry : β → α} (hfault : fault = none)
    (h : ∀ x ∈ xs, ∃ a, encode x = .ok a ∧ item a = .ok (entry x)) :
    request fault (batchOf (fun _ a => item a) blank) encode xs = .ok (xs.map entry) := by
  choose! address haddress hitem using h
  have hbatch : batchOf (fun _ a => item a) blank (xs.map address) = .ok (xs.map entry) := by
    have hvalues : batchOf (fun _ a => item a) blank (xs.map address) =
        .ok ((xs.map address).mapIdx fun _ a => (item a).toOption.getD blank) := by
      refine batchOf_eq_ok_iff.mpr fun i a ha => ?_
      obtain ⟨x, hx, rfl⟩ := List.mem_map.mp (List.mem_of_getElem? ha)
      rw [hitem x hx]
      rfl
    refine hvalues.trans (congrArg Except.ok (List.mapIdx_eq_iff.mpr fun i => ?_))
    rw [List.getElem?_map, List.getElem?_map, Option.map_map]
    cases hx : xs[i]? with
    | none => rfl
    | some x =>
      rw [Option.map_some, Option.map_some, Function.comp, hitem x (List.mem_of_getElem? hx)]
      rfl
  rw [request, Eff.except_mapM_of_ok haddress]
  show (match fault, batchOf (fun _ a => item a) blank (xs.map address) with
    | some fault, _ => _
    | none, .error _ => _
    | none, .ok entries => _) = _
  rw [hfault, hbatch]

theorem of_request_ok {entries : List α}
    (h : request fault (batchOf (fun _ a => item a) blank) encode xs = .ok entries) :
    fault = none ∧ ∀ x ∈ xs, ∃ a y, encode x = .ok a ∧ item a = .ok y := by
  obtain ⟨addresses, haddresses, h⟩ := Eff.except_bind_eq_ok.mp h
  cases hfault : fault with
  | some e =>
    rw [hfault] at h
    cases h
  | none =>
    rw [hfault] at h
    cases hbatch : batchOf (fun _ a => item a) blank addresses with
    | error e =>
      rw [hbatch] at h
      cases h
    | ok ys =>
      refine ⟨rfl, fun x hx => ?_⟩
      have hrows := Eff.forall₂_of_mapM haddresses
      rw [batchOf, fill_eq_mapIndex] at hbatch
      obtain ⟨i, hi, rfl⟩ := List.getElem_of_mem hx
      have hi' : i < addresses.length := hrows.length_eq ▸ hi
      obtain ⟨y, hy⟩ := exists_of_mapIndex hbatch (List.getElem?_eq_getElem hi')
      exact ⟨_, y, hrows.get hi hi', hy⟩

end

/-! ## A chunk -/

def addressOf (encoded : Except Thrown Address) : Address := encoded.toOption.getD 0

section
variable (sources : Sources) (provider : Provider)

def feedData (token : LinkedToken) : ChainLinkData :=
  chainLinkData provider.feedChain (addressOf (encodeFeed sources token.price_address))

def rawSupply (token : LinkedToken) : ℕ :=
  totalSupply provider.supplyChain (addressOf (sources.encodeAddress token.address))

def SupplyAnswers (token : LinkedToken) : Prop :=
  ∃ a, sources.encodeAddress token.address = .ok a ∧
    Decodes (decodeUint 256) (provider.supplyChain.staticcall a ⟨0x18160ddd, []⟩)

def FeedAnswers (token : LinkedToken) : Prop :=
  ∃ a, encodeFeed sources token.price_address = .ok a ∧ FeedDecodes provider.feedChain a

/-- What is returned for a token decodes, and an answer can be shifted. -/
structure Answers (token : LinkedToken) : Prop where
  supply : SupplyAnswers sources provider token
  feed : FeedAnswers sources provider token
  shift : (feedData sources provider token).answer ≠ 0 →
    (feedData sources provider token).decimals ≤ MAX_SAFE_INTEGER

structure Serves (targetTokens : List LinkedToken) : Prop where
  supplies : provider.supplyFault = none
  feeds : provider.feedFault = none
  answers : ∀ token ∈ targetTokens, Answers sources provider token

/-- The update of a token; a feed without an answer or without decimals has none. -/
def update (token : LinkedToken) : Option UpdateParam :=
  let feed := feedData sources provider token
  if feed.answer = 0 ∨ feed.decimals = 0 then none
  else some ⟨token.id, toFixed (divideDecimals (.finite feed.answer) feed.decimals),
    divideDecimals (.finite (rawSupply sources provider token)) token.decimals⟩

/-- The callback over the tokens of a chunk. -/
def updateAt (targetTokens : List LinkedToken) (p : LinkedToken × ℕ) :
    Except Thrown (Option UpdateParam) :=
  updateParam p.1.toTokenEntity
    ((targetTokens.map fun token => (⟨(feedData sources provider token).answer,
      (feedData sources provider token).decimals⟩ : Feed))[p.2]?)
    ((targetTokens.map (rawSupply sources provider))[p.2]?)

end

section
variable {sources : Sources} {provider : Provider} {targetTokens : List LinkedToken}

theorem supplies_ok (hfault : provider.supplyFault = none)
    (h : ∀ token ∈ targetTokens, SupplyAnswers sources provider token) :
    getBatchERC20TotalSupply sources provider
        ((targetTokens.map LinkedToken.toTokenEntity).map TokenEntity.address) =
      .ok (targetTokens.map (rawSupply sources provider)) := by
  rw [getBatchERC20TotalSupply, List.map_map, request, List.mapM_map]
  have hrequest : request provider.supplyFault
      (Multicalls.MultiCall.getBatchERC20TotalSupply fun _ => provider.supplyChain)
      (sources.encodeAddress ∘ TokenEntity.address ∘ LinkedToken.toTokenEntity) targetTokens =
        .ok (targetTokens.map (rawSupply sources provider)) := by
    refine request_ok hfault fun token htoken => ?_
    obtain ⟨a, ha, hdecodes⟩ := h token htoken
    refine ⟨a, ha, safeDecode_eq_ok_iff.mpr ⟨hdecodes, ?_⟩⟩
    rw [rawSupply, ha]
    rfl
  exact hrequest

theorem feeds_ok (hfault : provider.feedFault = none)
    (h : ∀ token ∈ targetTokens, FeedAnswers sources provider token) :
    getBatchChainLinkData sources provider
        ((targetTokens.map LinkedToken.toTokenEntity).map TokenEntity.price_address) =
      .ok (targetTokens.map fun token => ⟨(feedData sources provider token).answer,
        (feedData sources provider token).decimals⟩) := by
  have hrequest : request provider.feedFault
      (Multicalls.MultiCall.getBatchChainLinkData fun _ => provider.feedChain)
      (encodeFeed sources ∘ TokenEntity.price_address ∘ LinkedToken.toTokenEntity) targetTokens =
        .ok (targetTokens.map (feedData sources provider)) := by
    refine request_ok hfault fun token htoken => ?_
    obtain ⟨a, ha, hdecodes⟩ := h token htoken
    refine ⟨a, ha, (chainLinkData_eq_ok_iff.mpr hdecodes).trans ?_⟩
    rw [feedData, ha]
    rfl
  rw [getBatchChainLinkData, List.map_map, request, List.mapM_map]
  rw [request] at hrequest
  refine Eff.except_bind_eq_ok.mpr ⟨_, hrequest, ?_⟩
  rw [List.map_map]
  rfl

theorem updateParam_ok {token : LinkedToken} (h : Answers sources provider token) :
    updateParam token.toTokenEntity
      (some ⟨(feedData sources provider token).answer, (feedData sources provider token).decimals⟩)
      (some (rawSupply sources provider token)) = .ok (update sources provider token) := by
  have hshift := h.shift
  unfold updateParam update
  generalize feedData sources provider token = feed at hshift ⊢
  simp only [isZero_finite, Nat.cast_eq_zero, Bool.or_eq_true, decide_eq_true_eq]
  by_cases hnone : feed.answer = 0 ∨ feed.decimals = 0
  · rw [if_pos hnone, if_pos hnone]
  · rw [if_neg hnone, if_neg hnone, if_neg]
    rw [not_or] at hnone
    exact Nat.not_lt.mpr (hshift hnone.1)

theorem crawl_ok (h : Serves sources provider targetTokens) :
    TokenPrice.ChainLink.crawlTokenSupplyAndPrice (getBatchERC20TotalSupply sources provider)
        (getBatchChainLinkData sources provider) (targetTokens.map LinkedToken.toTokenEntity) =
      .ok (targetTokens.filterMap (update sources provider)) := by
  have hsupplies := supplies_ok h.supplies fun token htoken => (h.answers token htoken).supply
  have hfeeds := feeds_ok h.feeds fun token htoken => (h.answers token htoken).feed
  refine Eff.except_bind_eq_ok.mpr ⟨_, hsupplies, ?_⟩
  refine Eff.except_bind_eq_ok.mpr ⟨_, hfeeds, ?_⟩
  refine Eff.except_bind_eq_ok.mpr ⟨targetTokens.map (update sources provider), ?_, ?_⟩
  · rw [List.zipIdx_map, List.mapM_map]
    have hrows : targetTokens.zipIdx.mapM (updateAt sources provider targetTokens) =
        .ok (targetTokens.zipIdx.map fun p => update sources provider p.1) :=
      Eff.except_mapM_of_ok fun p hp => by
        rw [updateAt, List.getElem?_map, List.getElem?_map, List.mk_mem_zipIdx_iff_getElem?.mp hp]
        exact updateParam_ok (h.answers p.1 (List.fst_mem_of_mem_zipIdx hp))
    refine hrows.trans (congrArg Except.ok ?_)
    rw [← Function.comp_def, ← List.map_map, List.zipIdx_map_fst]
  · rw [List.filterMap_map]
    rfl

theorem feedDecodes_of_ok {chain : Chain} {feed : Address} {data : ChainLinkData}
    (h : safeChainLinkData chain feed = .ok data) : FeedDecodes chain feed := by
  obtain ⟨_, hanswer, h⟩ := Eff.except_bind_eq_ok.mp h
  obtain ⟨_, hdecimals, _⟩ := Eff.except_bind_eq_ok.mp h
  exact ⟨(safeDecode_eq_ok_iff.mp hanswer).1, (safeDecode_eq_ok_iff.mp hdecimals).1⟩

/-- A crawl that returns was served. -/
theorem serves_of_ok {params : List UpdateParam} (h : TokenPrice.ChainLink.crawlTokenSupplyAndPrice
      (getBatchERC20TotalSupply sources provider) (getBatchChainLinkData sources provider)
      (targetTokens.map LinkedToken.toTokenEntity) = .ok params) :
    Serves sources provider targetTokens := by
  obtain ⟨supplies, hsupplies, h⟩ := Eff.except_bind_eq_ok.mp h
  obtain ⟨feeds, hfeeds, h⟩ := Eff.except_bind_eq_ok.mp h
  obtain ⟨updates, hupdates, _⟩ := Eff.except_bind_eq_ok.mp h
  have hrequest := hsupplies
  rw [getBatchERC20TotalSupply, List.map_map, request, List.mapM_map] at hrequest
  obtain ⟨hsupplyFault, hsupply⟩ := of_request_ok hrequest
  obtain ⟨data, hrequest', _⟩ := Eff.except_bind_eq_ok.mp hfeeds
  rw [List.map_map, request, List.mapM_map] at hrequest'
  obtain ⟨hfeedFault, hfeed⟩ := of_request_ok hrequest'
  have hsupplyAnswers : ∀ token ∈ targetTokens, SupplyAnswers sources provider token := by
    intro token htoken
    obtain ⟨a, _, ha, hitem⟩ := hsupply token htoken
    exact ⟨a, ha, (safeDecode_eq_ok_iff.mp hitem).1⟩
  have hfeedAnswers : ∀ token ∈ targetTokens, FeedAnswers sources provider token := by
    intro token htoken
    obtain ⟨a, _, ha, hitem⟩ := hfeed token htoken
    exact ⟨a, ha, feedDecodes_of_ok hitem⟩
  refine ⟨hsupplyFault, hfeedFault, fun token htoken => ⟨hsupplyAnswers token htoken,
    hfeedAnswers token htoken, fun hanswer => ?_⟩⟩
  -- the update of the token did not throw
  rw [supplies_ok hsupplyFault hsupplyAnswers] at hsupplies
  rw [feeds_ok hfeedFault hfeedAnswers] at hfeeds
  cases hsupplies
  cases hfeeds
  rw [List.zipIdx_map, List.mapM_map] at hupdates
  obtain ⟨i, hi, rfl⟩ := List.getElem_of_mem htoken
  have hmem : (targetTokens[i], i) ∈ targetTokens.zipIdx :=
    List.mk_mem_zipIdx_iff_getElem?.mpr (List.getElem?_eq_getElem hi)
  obtain ⟨u, hu⟩ := Eff.except_mapM_ok_iff.mp ⟨_, hupdates⟩ _ hmem
  have hat : updateAt sources provider targetTokens (targetTokens[i], i) = .ok u := hu
  rw [updateAt, List.getElem?_map, List.getElem?_map, List.getElem?_eq_getElem hi] at hat
  by_contra hlarge
  simp only [Option.map_some, updateParam, isZero_finite, Nat.cast_eq_zero, Bool.or_eq_true,
    decide_eq_true_eq] at hat
  rw [if_neg (by omega), if_pos (by omega)] at hat
  cases hat

end

/-! ## A run -/

/-- The chain of a chunk has a provider that serves it. -/
def Served (sources : Sources) (call : ℕ × List LinkedToken) : Prop :=
  ∃ provider, sources.providers call.1 = some provider ∧ Serves sources provider call.2

/-- The updates of a chunk that is served. -/
def updates (sources : Sources) (call : ℕ × List LinkedToken) : List UpdateParam :=
  match sources.providers call.1 with
  | none => []
  | some provider => call.2.filterMap (update sources provider)

section
variable {sources : Sources} {s : Session (Db PricedTokens) LoggerData}

theorem crawlTokenSupplyAndPrice_ok {call : ℕ × List LinkedToken} (h : Served sources call) :
    crawlTokenSupplyAndPrice sources call.1 call.2 = .ok (updates sources call) := by
  obtain ⟨provider, hprovider, hserves⟩ := h
  rw [crawlTokenSupplyAndPrice, updates, hprovider]
  exact crawl_ok hserves

theorem served_of_ok {call : ℕ × List LinkedToken} {params : List UpdateParam}
    (h : crawlTokenSupplyAndPrice sources call.1 call.2 = .ok params) : Served sources call := by
  unfold crawlTokenSupplyAndPrice at h
  split at h
  · cases h
  · rename_i provider hprovider
    exact ⟨provider, hprovider, serves_of_ok h⟩

/-- Without faults the updates of a chunk are committed. -/
theorem bulkUpdate_returns (params : List UpdateParam) :
    Eff.wp (bulkUpdate Faults.none params)
      (fun _ u => u.db = s.db.setTables (applied params)) (fun _ _ => False) s := by
  refine wp_opened (fun _ _ u hudb _ hup => ?_) fun _ he => by cases he
  refine wp_finallyRelease (P := fun _ d _ => d = s.db.setTables (applied params))
    (F := fun _ _ => False) ?_
  rw [Eff.wp_tryCatch, Eff.wp_bind]
  have hupdates : Eff.wp (Eff.forEach params fun param => updateTokenWith none param)
      (fun _ v => v.db = u.db ∧ ∃ p, v.pending = some p ∧
        p u.db = u.db.setTables (applied params)) (fun _ _ => False) u := by
    refine Eff.wp_forEach (fun done (v : Session (Db PricedTokens) LoggerData) => v.db = u.db ∧
      ∃ p, v.pending = some p ∧ p u.db = u.db.setTables (applied done))
      (fun done param rest _ v hv => ?_) ⟨rfl, id, hup, rfl⟩
    obtain ⟨hvdb, p, hp, hdone⟩ := hv
    refine wp_managerWrite_pending hp (fun _ _ w hwdb _ hwp => ?_) fun _ he => by cases he
    refine ⟨hwdb.trans hvdb, _, hwp, ?_⟩
    rw [Function.comp, hdone]
    simp only [Db.setTables, applied, List.foldl_append, List.foldl_cons, List.foldl_nil]
  refine Eff.wp_mono hupdates (fun _ v hv => ?_) fun _ _ h => h.elim
  obtain ⟨hvdb, p, hp, happlied⟩ := hv
  refine wp_commitTransaction_pending hp (fun _ w hwdb _ _ => ?_) fun _ he => by cases he
  rw [hwdb, hvdb, happlied, hudb]

/-- The committed data after some chunks. -/
def after (sources : Sources) (done : List (ℕ × List LinkedToken)) (d : Db PricedTokens) :
    Db PricedTokens :=
  d.setTables (applied (done.flatMap (updates sources)))

theorem after_concat (done : List (ℕ × List LinkedToken)) (call : ℕ × List LinkedToken)
    (d : Db PricedTokens) :
    after sources (done ++ [call]) d =
      (after sources done d).setTables (applied (updates sources call)) := by
  rw [after, List.flatMap_append, List.flatMap_singleton, after]
  simp only [Db.setTables, applied, List.foldl_append]

theorem wp_refreshChunk (call : ℕ × List LinkedToken) :
    Eff.wp (refreshChunk (crawl sources) (fun _ _ _ => Faults.none) call.1 call.2)
      (fun _ u => Served sources call ∧
        u.db = s.db.setTables (applied (updates sources call)))
      (fun _ u => ¬ Served sources call ∧ u.db = s.db) s := by
  simp only [refreshChunk, crawl]
  rw [Eff.wp_bind, Eff.wp_await]
  refine ⟨fun params hparams => ?_, fun e herror => ⟨fun hserved => ?_, rfl⟩⟩
  · have hserved : Served sources call := served_of_ok hparams
    rw [crawlTokenSupplyAndPrice_ok hserved] at hparams
    cases hparams
    rw [Eff.wp_bind, Eff.wp_read]
    exact Eff.wp_mono (bulkUpdate_returns _) (fun _ u hu => ⟨hserved, hu⟩) fun _ _ h => h.elim
  · rw [crawlTokenSupplyAndPrice_ok hserved] at herror
    cases herror

/-- The chunks are written up to the first one that is not served. -/
theorem wp_refresh (tokens : List LinkedToken) :
    Eff.wp (refresh (crawl sources) (fun _ _ _ => Faults.none) LinkedToken.chain_id tokens)
      (fun _ u => (∀ call ∈ plan LinkedToken.chain_id tokens, Served sources call) ∧
        u.db = after sources (plan LinkedToken.chain_id tokens) s.db)
      (fun _ u => ∃ done call rest, plan LinkedToken.chain_id tokens = done ++ call :: rest ∧
        (∀ c ∈ done, Served sources c) ∧ ¬ Served sources call ∧
          u.db = after sources done s.db) s := by
  rw [Eff.wp_congr (refresh_eq LinkedToken.chain_id tokens (crawl sources) _ s)]
  refine Eff.wp_forEach (fun done (u : Session (Db PricedTokens) LoggerData) =>
    (∀ call ∈ done, Served sources call) ∧ u.db = after sources done s.db)
    (fun done call rest hplan u hu => ?_) ⟨fun call hcall => absurd hcall List.not_mem_nil, rfl⟩
  refine Eff.wp_mono (wp_refreshChunk call) (fun _ v hv => ?_) fun _ v hv => ?_
  · refine ⟨fun c hc => ?_, ?_⟩
    · rcases List.mem_append.mp hc with hc | hc
      · exact hu.1 c hc
      · exact List.mem_singleton.mp hc ▸ hv.1
    · rw [hv.2, hu.2, after_concat]
  · exact ⟨done, call, rest, hplan, hu.1, hv.1, hv.2.trans hu.2⟩

theorem wp_run :
    Eff.wp (run sources)
      (fun _ u => (∀ call ∈ plan LinkedToken.chain_id (findTokens sources s.db.tables),
          Served sources call) ∧
        u.db = after sources (plan LinkedToken.chain_id (findTokens sources s.db.tables)) s.db)
      (fun _ u => ∃ done call rest,
        plan LinkedToken.chain_id (findTokens sources s.db.tables) = done ++ call :: rest ∧
        (∀ c ∈ done, Served sources c) ∧ ¬ Served sources call ∧
          u.db = after sources done s.db) s := by
  simp only [run, PriceTemplate.run, getTokens, writeLog]
  rw [Eff.wp_bind, Eff.wp_update, Eff.wp_tryCatch, Eff.wp_bind]
  refine wp_connectionRead (fun _ => ?_) fun e he => nomatch he
  rw [Eff.wp_bind, Eff.wp_update]
  exact Eff.wp_mono (wp_refresh _) (fun _ _ h => h) fun _ _ h => h

end

/-! ## The rows after a run -/

def repriced (param : UpdateParam) : PricedRow → PricedRow :=
  PricedRow.priced (written param.price_value) (written param.total_supply)

theorem rows_applied (params : List UpdateParam) (t : PricedTokens) :
    (applied params t).rows =
      t.rows.map fun s => params.foldl (fun s p => s.updated p.id (repriced p)) s := by
  induction params generalizing t with
  | nil => exact (List.map_id _).symm
  | cons param params ih =>
    have hfirst : (applied (param :: params) t).rows = (applied params (updateToken param.id
      (written param.price_value) (written param.total_supply) t)).rows := rfl
    have hupdated : (updateToken param.id (written param.price_value)
        (written param.total_supply) t).rows =
          t.rows.map (Stored.updated param.id (repriced param)) := rfl
    rw [hfirst, ih, hupdated, List.map_map]
    rfl

section
variable {sources : Sources} {t : PricedTokens} {done : List (ℕ × List LinkedToken)}

theorem update_id {provider : Provider} {token : LinkedToken} {p : UpdateParam}
    (h : update sources provider token = some p) : p.id = token.id := by
  unfold update at h
  simp only at h
  split at h
  · cases h
  · cases h
    rfl

theorem ids_update (provider : Provider) (tokens : List LinkedToken) :
    List.Sublist ((tokens.filterMap (update sources provider)).map UpdateParam.id)
      (tokens.map fun token => token.id) := by
  induction tokens with
  | nil => exact List.Sublist.refl _
  | cons token tokens ih =>
    cases hupdate : update sources provider token with
    | none =>
      rw [List.filterMap_cons_none hupdate]
      exact ih.cons _
    | some p =>
      rw [List.filterMap_cons_some hupdate, List.map_cons, List.map_cons, update_id hupdate]
      exact ih.cons_cons _

/-- At most one update for each token. -/
theorem ids_updates (done : List (ℕ × List LinkedToken)) :
    List.Sublist ((done.flatMap (updates sources)).map UpdateParam.id)
      ((done.flatMap Prod.snd).map fun token => token.id) := by
  induction done with
  | nil => exact List.Sublist.refl _
  | cons call done ih =>
    rw [List.flatMap_cons, List.flatMap_cons, List.map_append, List.map_append]
    refine List.Sublist.append ?_ ih
    unfold updates
    split
    · exact List.nil_sublist _
    · exact ids_update _ _

theorem findTokens_nodup (sources : Sources) (t : PricedTokens) :
    ((findTokens sources t).map fun token => token.id).Nodup := by
  have hids : ((t.rows.map (linked sources)).map fun token => token.id).Nodup := by
    rw [List.map_map]
    exact t.idsIncrease.imp Nat.ne_of_lt
  exact hids.sublist (List.filter_sublist.map _)

/-- A token of the search is the row with its id. -/
theorem linked_of_id {token : LinkedToken} (htoken : token ∈ findTokens sources t)
    {s : Stored PricedRow} (hs : s ∈ t.rows) (hid : token.id = s.id) :
    token = linked sources s := by
  obtain ⟨s', hs', rfl⟩ := List.mem_map.mp (List.mem_of_mem_filter htoken)
  rw [Table.id_inj hs' hs hid]

theorem mem_updates {p : UpdateParam} :
    p ∈ done.flatMap (updates sources) ↔ ∃ call ∈ done, ∃ token ∈ call.2, ∃ provider,
      sources.providers call.1 = some provider ∧ update sources provider token = some p := by
  rw [List.mem_flatMap]
  constructor
  · rintro ⟨call, hcall, hp⟩
    unfold updates at hp
    split at hp
    · cases hp
    · rename_i provider hprovider
      obtain ⟨token, htoken, hupdate⟩ := List.mem_filterMap.mp hp
      exact ⟨call, hcall, token, htoken, provider, hprovider, hupdate⟩
  · rintro ⟨call, hcall, token, htoken, provider, hprovider, hupdate⟩
    refine ⟨call, hcall, ?_⟩
    rw [updates, hprovider]
    exact List.mem_filterMap.mpr ⟨token, htoken, hupdate⟩

/-- The row that is written over a row. -/
def settled (sources : Sources) (served : List LinkedToken) (s : Stored PricedRow)
    (s' : Stored PricedRow) : Prop :=
  (linked sources s ∉ served → s' = s) ∧
    ∀ provider, linked sources s ∈ served →
      sources.providers (linked sources s).chain_id = some provider →
        s' = (update sources provider (linked sources s)).elim s fun p => ⟨s.id, repriced p s.row⟩

theorem rows_after {rest : List (ℕ × List LinkedToken)}
    (hcovers : Covers LinkedToken.chain_id (findTokens sources t) (done ++ rest)) :
    List.Forall₂ (settled sources (done.flatMap Prod.snd)) t.rows
      (applied (done.flatMap (updates sources)) t).rows := by
  have htokens : ∀ call ∈ done, ∀ token ∈ call.2,
      token ∈ findTokens sources t ∧ token.chain_id = call.1 := by
    intro call hcall token htoken
    have hall : call ∈ done ++ rest := List.mem_append_left _ hcall
    exact ⟨hcovers.once.mem_iff.mp (List.mem_flatMap.mpr ⟨call, hall, htoken⟩),
      hcovers.ownChain call hall token htoken⟩
  have hdistinct : ((done.flatMap (updates sources)).map UpdateParam.id).Nodup := by
    have hall : ((done ++ rest).flatMap Prod.snd |>.map fun token => token.id).Nodup :=
      (hcovers.once.map _).nodup_iff.mpr (findTokens_nodup sources t)
    rw [List.flatMap_append, List.map_append] at hall
    exact (List.nodup_append.mp hall).1.sublist (ids_updates done)
  rw [rows_applied, List.forall₂_map_right_iff, List.forall₂_same]
  intro s hs
  -- an update with the id of the row is that of its token
  have hown : ∀ p ∈ done.flatMap (updates sources), p.id = s.id →
      linked sources s ∈ done.flatMap Prod.snd ∧ ∃ provider,
        sources.providers (linked sources s).chain_id = some provider ∧
          update sources provider (linked sources s) = some p := by
    intro p hp hid
    obtain ⟨call, hcall, token, htoken, provider, hprovider, hupdate⟩ := mem_updates.mp hp
    obtain ⟨hfound, hchain⟩ := htokens call hcall token htoken
    cases linked_of_id hfound hs ((update_id hupdate).symm.trans hid)
    refine ⟨List.mem_flatMap.mpr ⟨call, hcall, htoken⟩, provider, ?_, hupdate⟩
    rw [hchain]
    exact hprovider
  have hnone : (∀ p ∈ done.flatMap (updates sources), p.id ≠ s.id) →
      (done.flatMap (updates sources)).foldl (fun s p => s.updated p.id (repriced p)) s = s := by
    intro h
    refine Table.foldl_updated_of_notMem fun hmem => ?_
    obtain ⟨p, hp, hid⟩ := List.mem_map.mp hmem
    exact h p hp hid
  refine ⟨fun hunserved => hnone fun p hp hid => hunserved (hown p hp hid).1, ?_⟩
  intro provider hserved hprovider
  cases hupdate : update sources provider (linked sources s) with
  | none =>
    refine hnone fun p hp hid => ?_
    obtain ⟨_, provider', hprovider', hp'⟩ := hown p hp hid
    cases hprovider.symm.trans hprovider'
    cases hupdate.symm.trans hp'
  | some p =>
    obtain ⟨call, hcall, htoken⟩ := List.mem_flatMap.mp hserved
    have hid : p.id = s.id := update_id hupdate
    have hp : p ∈ done.flatMap (updates sources) := by
      refine mem_updates.mpr ⟨call, hcall, _, htoken, provider, ?_, hupdate⟩
      rw [← (htokens call hcall _ htoken).2]
      exact hprovider
    rw [Table.foldl_updated_of_mem hdistinct hp hid.symm, Stored.updated, if_pos hid.symm]
    rfl

end

/-! ## What a feed reports -/

/-- The feed returns a signed answer and its decimals, encoded as its interface says. -/
structure Reports (chain : Chain) (feed : Address) (answer : ℤ) (decimals : ℕ) : Prop where
  lower : -2 ^ 255 ≤ answer
  upper : answer < 2 ^ 255
  round : ∃ roundId startedAt updatedAt answeredInRound, roundId < 2 ^ 80 ∧ startedAt < 2 ^ 256 ∧
    updatedAt < 2 ^ 256 ∧ answeredInRound < 2 ^ 80 ∧ chain.staticcall feed ⟨0xfeaf968c, []⟩ =
      ⟨true, encodeWords [roundId, wordOfInt answer, startedAt, updatedAt, answeredInRound]⟩
  small : decimals < 2 ^ 8
  decimals : chain.staticcall feed ⟨0x313ce567, []⟩ = ⟨true, encodeWord decimals⟩

/-- One of the two calls failed or returned no bytes. -/
def SilentFeed (chain : Chain) (feed : Address) : Prop :=
  Silent (chain.staticcall feed ⟨0xfeaf968c, []⟩) ∨ Silent (chain.staticcall feed ⟨0x313ce567, []⟩)

/-- The price that belongs into the column: none below zero, and none that is too large. -/
def priceOf (answer : ℤ) (decimals : ℕ) : ℚ :=
  if 0 ≤ answer ∧ answer / 10 ^ decimals ≤ bulkUpdate.max then answer / 10 ^ decimals else 0

section
variable {chain : Chain} {feed : Address} {answer : ℤ} {decimals : ℕ}

theorem decodeRoundData_encoded {roundId startedAt updatedAt answeredInRound : ℕ}
    (hround : roundId < 2 ^ 80) (hstarted : startedAt < 2 ^ 256) (hupdated : updatedAt < 2 ^ 256)
    (hanswered : answeredInRound < 2 ^ 80) (answer : ℤ) :
    decodeRoundData (encodeWords [roundId, wordOfInt answer, startedAt, updatedAt,
      answeredInRound]) = some (wordOfInt answer) := by
  have hbits : ∀ b ∈ [80, 256, 256, 256, 80], b ≤ 256 := by decide
  rw [decodeRoundData, decodeUints_encodeWords hbits]
  · rfl
  · exact .cons hround (.cons (wordOfInt_lt answer) (.cons hstarted (.cons hupdated
      (.cons hanswered .nil))))

theorem chainLinkData_of_reports (h : Reports chain feed answer decimals) :
    chainLinkData chain feed = ⟨wordOfInt answer, decimals⟩ := by
  obtain ⟨roundId, startedAt, updatedAt, answeredInRound, hround, hstarted, hupdated, hanswered,
    hreturned⟩ := h.round
  have hsmall := h.small
  have hanswer := field_of_encoded UNKNOWN_UINT hreturned (by simp [encodeWords, encodeWord])
    (decodeRoundData_encoded hround hstarted hupdated hanswered answer)
  have hdecoded : decodeUint 256 (encodeWord decimals) = some decimals := by
    rw [← List.append_nil (encodeWord decimals)]
    exact decodeUint_encodeWord (by omega) (by omega) []
  have hdecimals := field_of_encoded 0 h.decimals (encodeWord_ne_nil decimals) hdecoded
  rw [chainLinkData, hanswer.2, hdecimals.2]

theorem noUpdate_of_silent (h : SilentFeed chain feed) :
    (chainLinkData chain feed).answer = 0 ∨ (chainLinkData chain feed).decimals = 0 := by
  rcases h with h | h
  · exact Or.inl (field_of_silent UNKNOWN_UINT h).2
  · exact Or.inr (field_of_silent 0 h).2

theorem max_lt_double : bulkUpdate.max < 2 ^ 1024 - 2 ^ 970 := by
  have hdouble : (2 : ℚ) ^ 971 ≤ 2 ^ 1024 := pow_le_pow_right₀ one_le_two (by decide)
  have hsmall : (2 : ℚ) ^ 128 ≤ 2 ^ 970 := pow_le_pow_right₀ one_le_two (by decide)
  have hsucc : (2 : ℚ) ^ 971 = 2 ^ 970 + 2 ^ 970 := (pow_succ' 2 970).trans (two_mul _)
  calc bulkUpdate.max < 2 ^ 128 := by norm_num [bulkUpdate.max]
    _ ≤ 2 ^ 970 := hsmall
    _ = 2 ^ 971 - 2 ^ 970 := by rw [hsucc, add_sub_cancel_right]
    _ ≤ 2 ^ 1024 - 2 ^ 970 := sub_le_sub_right hdouble _

/-- A price of no more than twenty places is stored as it is. -/
theorem written_price {n decimals : ℕ} (h : decimals ≤ DECIMAL_PLACES) :
    decimalColumn (written (toFixed (divideDecimals (.finite n) decimals))) =
      .finite (if (n : ℚ) / 10 ^ decimals ≤ bulkUpdate.max then n / 10 ^ decimals else 0) := by
  have hround : ∀ places, decimals ≤ places →
      roundHalfUp places ((n : ℚ) / 10 ^ decimals) = n / 10 ^ decimals := fun places hplaces =>
    roundHalfUp_div_pow hplaces (n : ℤ)
  have hnonneg : (0 : ℚ) ≤ n / 10 ^ decimals :=
    div_nonneg (Nat.cast_nonneg n) (pow_ten_pos decimals).le
  rw [divideDecimals_finite, toFixed_finite, hround _ h, written]
  by_cases hmax : (n : ℚ) / 10 ^ decimals ≤ bulkUpdate.max
  · have hfinite : isFiniteDouble (.finite ((n : ℚ) / 10 ^ decimals)) = true := by
      rw [isFiniteDouble, decide_eq_true_iff, abs_of_nonneg hnonneg]
      exact lt_of_le_of_lt hmax max_lt_double
    have hgreater : isGreaterThan (.finite ((n : ℚ) / 10 ^ decimals)) (.finite bulkUpdate.max) =
        false := decide_eq_false (not_lt.mpr hmax)
    rw [hgreater, hfinite, if_neg (by decide), if_pos hmax, decimalColumn]
    exact congrArg Number.finite (hround 22 (h.trans (by decide)))
  · have hgreater : isGreaterThan (.finite ((n : ℚ) / 10 ^ decimals)) (.finite bulkUpdate.max) =
        true := decide_eq_true (not_le.mp hmax)
    rw [hgreater, Bool.true_or, if_pos rfl, if_neg hmax]
    exact congrArg Number.finite (roundHalfUp_zero 22)

/-- A negative answer is too large a number once it is read without its sign. -/
theorem written_answer (h : Reports chain feed answer decimals)
    (hplaces : decimals ≤ DECIMAL_PLACES) :
    decimalColumn (written (toFixed (divideDecimals (.finite (wordOfInt answer)) decimals))) =
      .finite (priceOf answer decimals) := by
  rw [written_price hplaces, priceOf]
  by_cases hsign : 0 ≤ answer
  · have hword : ((wordOfInt answer : ℕ) : ℚ) = answer := by
      exact_mod_cast wordOfInt_of_nonneg hsign h.upper
    simp only [hword, hsign, true_and]
  · have hword : ((wordOfInt answer : ℕ) : ℤ) = 2 ^ 256 + answer :=
      wordOfInt_of_neg (not_le.mp hsign) h.lower
    have hlarge : ((2 : ℚ) ^ 255) ≤ (wordOfInt answer : ℕ) := by
      have hle : (2 : ℤ) ^ 255 ≤ (wordOfInt answer : ℕ) := by
        have hlower := h.lower
        omega
      exact_mod_cast hle
    have hpow : (10 : ℚ) ^ decimals ≤ 10 ^ 20 := pow_le_pow_right₀ (by norm_num) hplaces
    have hquotient : bulkUpdate.max < (wordOfInt answer : ℕ) / 10 ^ decimals := by
      rw [lt_div_iff₀ (pow_ten_pos decimals)]
      refine lt_of_lt_of_le ?_ hlarge
      calc bulkUpdate.max * 10 ^ decimals ≤ bulkUpdate.max * 10 ^ 20 :=
            mul_le_mul_of_nonneg_left hpow (by norm_num [bulkUpdate.max])
        _ < 2 ^ 255 := by norm_num [bulkUpdate.max]
    rw [if_neg (not_le.mpr hquotient), if_neg fun hboth => hsign hboth.1]

end

/-! ## From the feeds to the column -/

/-- The row of a token whose feed reports an answer. Without an answer or without decimals
there is nothing to write. -/
structure FollowsReport (provider : Provider) (address : Address) (answer : ℤ) (decimals : ℕ)
    (s s' : Stored PricedRow) : Prop where
  kept : answer = 0 ∨ decimals = 0 → s' = s
  price : answer ≠ 0 → 0 < decimals → decimals ≤ DECIMAL_PLACES →
    s'.row.price_value = .finite (priceOf answer decimals)
  supply : answer ≠ 0 → 0 < decimals → s'.row.total_supply =
    decimalColumn (written (divideDecimals (.finite (totalSupply provider.supplyChain address))
      s.row.token.decimals))

/-- A row, and what is left there when these tokens have been served. -/
structure Follows (sources : Sources) (served : List LinkedToken) (s s' : Stored PricedRow) :
    Prop where
  id : s'.id = s.id
  token : s'.row.token = s.row.token
  price_address : s'.row.price_address = s.row.price_address
  unserved : linked sources s ∉ served → s' = s
  silent : ∀ provider feed, sources.providers (linked sources s).chain_id = some provider →
    encodeFeed sources s.row.price_address = .ok feed → SilentFeed provider.feedChain feed → s' = s
  reported : linked sources s ∈ served → ∀ provider address feed answer decimals,
    sources.providers (linked sources s).chain_id = some provider →
      sources.encodeAddress s.row.token.address = .ok address →
        encodeFeed sources s.row.price_address = .ok feed →
          Reports provider.feedChain feed answer decimals →
            FollowsReport provider address answer decimals s s'

section
variable {sources : Sources} {served : List LinkedToken} {s s' : Stored PricedRow}

theorem wordOfInt_eq_zero {answer : ℤ} (hlower : -2 ^ 255 ≤ answer) (hupper : answer < 2 ^ 255) :
    wordOfInt answer = 0 ↔ answer = 0 := by
  rcases le_or_gt 0 answer with hsign | hsign
  · have hword := wordOfInt_of_nonneg hsign hupper
    omega
  · have hword := wordOfInt_of_neg hsign hlower
    omega

theorem update_of_silent {provider : Provider} {feed : Address}
    (hfeed : encodeFeed sources s.row.price_address = .ok feed)
    (h : SilentFeed provider.feedChain feed) :
    update sources provider (linked sources s) = none := by
  have hdata : feedData sources provider (linked sources s) =
      chainLinkData provider.feedChain feed := by
    rw [feedData]
    exact congrArg (fun a => chainLinkData provider.feedChain (addressOf a)) hfeed
  simp only [update, hdata]
  exact if_pos (noUpdate_of_silent h)

theorem update_of_reports {provider : Provider} {address feed : Address} {answer : ℤ}
    {decimals : ℕ} (haddress : sources.encodeAddress s.row.token.address = .ok address)
    (hfeed : encodeFeed sources s.row.price_address = .ok feed)
    (h : Reports provider.feedChain feed answer decimals) :
    update sources provider (linked sources s) =
      if answer = 0 ∨ decimals = 0 then none
      else some ⟨s.id, toFixed (divideDecimals (.finite (wordOfInt answer)) decimals),
        divideDecimals (.finite (totalSupply provider.supplyChain address))
          s.row.token.decimals⟩ := by
  have hdata : feedData sources provider (linked sources s) = ⟨wordOfInt answer, decimals⟩ := by
    rw [feedData, ← chainLinkData_of_reports h]
    exact congrArg (fun a => chainLinkData provider.feedChain (addressOf a)) hfeed
  have hsupply : rawSupply sources provider (linked sources s) =
      totalSupply provider.supplyChain address :=
    congrArg (fun a => totalSupply provider.supplyChain (addressOf a)) haddress
  simp only [update, hdata, hsupply, wordOfInt_eq_zero h.lower h.upper]
  rfl

theorem follows_of_settled (h : settled sources served s s')
    (hprovided : linked sources s ∈ served →
      ∃ provider, sources.providers (linked sources s).chain_id = some provider) :
    Follows sources served s s' := by
  have hcases : s' = s ∨ ∃ p : UpdateParam, s' = ⟨s.id, repriced p s.row⟩ := by
    by_cases hserved : linked sources s ∈ served
    · obtain ⟨provider, hprovider⟩ := hprovided hserved
      have hrow := h.2 provider hserved hprovider
      cases hupdate : update sources provider (linked sources s) with
      | none => exact Or.inl (hrow.trans (by rw [hupdate]; rfl))
      | some p => exact Or.inr ⟨p, hrow.trans (by rw [hupdate]; rfl)⟩
    · exact Or.inl (h.1 hserved)
  refine ⟨?_, ?_, ?_, h.1, fun provider feed hprovider hfeed hsilent => ?_, ?_⟩
  · rcases hcases with rfl | ⟨p, rfl⟩ <;> rfl
  · rcases hcases with rfl | ⟨p, rfl⟩ <;> rfl
  · rcases hcases with rfl | ⟨p, rfl⟩ <;> rfl
  · by_cases hserved : linked sources s ∈ served
    · rw [h.2 provider hserved hprovider, update_of_silent hfeed hsilent]
      rfl
    · exact h.1 hserved
  · intro hserved provider address feed answer decimals hprovider haddress hfeed hreports
    have hrow := h.2 provider hserved hprovider
    rw [update_of_reports haddress hfeed hreports] at hrow
    refine ⟨fun hnone => ?_, fun hanswer hpositive hplaces => ?_, fun hanswer hpositive => ?_⟩
    · rw [hrow, if_pos hnone]
      rfl
    · rw [hrow, if_neg (by omega), ← written_answer hreports hplaces]
      rfl
    · rw [hrow, if_neg (by omega)]
      rfl

end

/-- **The prices follow the feeds.** A run goes through its chunks up to the first one
that is not served: one whose chain has no provider, whose request fails, or with a token
or feed whose return does not decode. It returns exactly when there is none. Each row of
the chunks before it follows its own feed, on its own chain: the price is the answer
shifted by the decimals of the feed, or zero for an answer that is negative or too large,
and it stays where the feed is silent or answers zero. All other rows are as they were. -/
theorem prices_follow_feeds (sources : Sources) (d : Db PricedTokens) : ∃ done rest,
    Covers LinkedToken.chain_id (findTokens sources d.tables) (done ++ rest) ∧
      (∀ call ∈ done, Served sources call) ∧ (∀ call ∈ rest.head?, ¬ Served sources call) ∧
      ((∃ a, (run sources (startSession d)).1 = .ok a) ↔ rest = []) ∧
      (afterRun (run sources) d).scheduler = d.scheduler ∧
      List.Forall₂ (Follows sources (done.flatMap Prod.snd)) d.tables.rows
        (afterRun (run sources) d).tables.rows := by
  have hcovers := plan_covers LinkedToken.chain_id (findTokens sources d.tables)
  have hrows : ∀ done rest, plan LinkedToken.chain_id (findTokens sources d.tables) =
      done ++ rest → (∀ call ∈ done, Served sources call) →
        List.Forall₂ (Follows sources (done.flatMap Prod.snd)) d.tables.rows
          (after sources done d).tables.rows := by
    intro done rest hplan hserved
    rw [hplan] at hcovers
    refine (rows_after hcovers).imp fun s s' hsettled => follows_of_settled hsettled fun hmem => ?_
    obtain ⟨call, hcall, htoken⟩ := List.mem_flatMap.mp hmem
    obtain ⟨provider, hprovider, _⟩ := hserved call hcall
    refine ⟨provider, ?_⟩
    rw [hcovers.ownChain call (List.mem_append_left _ hcall) _ htoken]
    exact hprovider
  have hwp : Eff.wp (run sources) _ _ (startSession d) := wp_run
  have hrun := Eff.wp_iff.mp hwp
  rw [afterRun]
  generalize hfinal : run sources (startSession d) = final at hrun ⊢
  obtain ⟨outcome, u⟩ := final
  cases outcome with
  | ok a =>
    obtain ⟨hserved, hdb⟩ := hrun.1 a u rfl
    have hdb : u.db = after sources (plan LinkedToken.chain_id (findTokens sources d.tables)) d :=
      hdb
    refine ⟨_, [], (by rw [List.append_nil]; exact hcovers), hserved,
      fun call hcall => (by cases hcall), ?_, ?_, ?_⟩
    · exact ⟨fun _ => rfl, fun _ => ⟨a, rfl⟩⟩
    · rw [hdb]
      rfl
    · rw [hdb]
      exact hrows _ [] (List.append_nil _).symm hserved
  | error e =>
    obtain ⟨done, call, rest, hplan, hserved, hfailed, hdb⟩ := hrun.2 e u rfl
    have hdb : u.db = after sources done d := hdb
    have hplan : plan LinkedToken.chain_id (findTokens sources d.tables) = done ++ call :: rest :=
      hplan
    refine ⟨done, call :: rest, hplan ▸ hcovers, hserved, fun c hc => ?_, ?_, ?_, ?_⟩
    · cases hc
      exact hfailed
    · exact ⟨fun h => (by obtain ⟨_, h⟩ := h; cases h), fun h => (by cases h)⟩
    · rw [hdb]
      rfl
    · rw [hdb]
      exact hrows done (call :: rest) hplan hserved

end BlockchainTask.SchedulerJob.ChainLinkPrices

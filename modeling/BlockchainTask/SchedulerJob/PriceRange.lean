import BlockchainTask.SchedulerJob.LiquidityPair
import BlockchainTask.SchedulerJob.PriceRefresh

/-! # The range of the price columns

A price is a quotient of what the node answers and of prices that were stored
before, so it is not negative where it is a number at all. What is no number, or
too large, is written as zero. The columns stay in their range whatever the jobs
load, crawl and write, in any order. -/
namespace BlockchainTask.SchedulerJob.PriceRange
open BlockchainTask.Common.Exception BlockchainTask.Helper.Decimals
open BlockchainTask.Helper.BatchContract
open BlockchainTask.Library.Decimal BlockchainTask.Library.Effect BlockchainTask.Library.Store
open BlockchainTask.Repository.Farm BlockchainTask.Repository.Token
open BlockchainTask.Repository.PricedToken
open BlockchainTask.SchedulerJob.TokenPrice BlockchainTask.SchedulerJob.PriceTemplate
open BlockchainTask.SchedulerJob.LiquidityPair BlockchainTask.SchedulerJob.PriceRefresh
open BlockchainTask.SchedulerJob.TokenPriceScale

/-! ## What is written -/

/-- A finite number between zero and the limit of the columns. -/
def InRange (value : Number) : Prop := ∃ q, value = .finite q ∧ 0 ≤ q ∧ q ≤ bulkUpdate.max

/-- Not negative where it is finite. -/
def Sane (value : Number) : Prop := value.IsFinite → value.IsNonneg

theorem inRange_zero : InRange ZERO := ⟨0, rfl, le_refl 0, by norm_num [bulkUpdate.max]⟩

/-- Whatever is sane is written as a number in the range. -/
theorem inRange_written {value : Number} (h : Sane value) : InRange (written value) := by
  unfold written
  cases value with
  | finite q =>
    split
    · exact inRange_zero
    · rename_i htested
      rw [Bool.or_eq_true, not_or] at htested
      have hle : ¬bulkUpdate.max < q := of_decide_eq_false (Bool.eq_false_iff.mpr htested.1)
      exact ⟨q, rfl, h trivial, not_lt.mp hle⟩
  | infinite negative =>
    rw [if_pos (by simp [isFiniteDouble])]
    exact inRange_zero
  | nan =>
    rw [if_pos (by simp [isFiniteDouble])]
    exact inRange_zero

theorem inRange_decimalColumn {value : Number} (h : InRange value) :
    InRange (decimalColumn value) := by
  obtain ⟨q, rfl, hq, hmax⟩ := h
  refine ⟨roundHalfUp 22 q, rfl, roundHalfUp_nonneg 22 hq, ?_⟩
  have hlimit : q ≤ ((10 ^ 35 : ℤ) : ℚ) := by
    norm_num [bulkUpdate.max] at hmax ⊢
    exact hmax
  have hle := roundHalfUp_le_of_le 22 hq hlimit
  norm_num [bulkUpdate.max] at hle ⊢
  exact hle

theorem sane_of_isNonneg {value : Number} (h : value.IsNonneg) : Sane value := fun _ => h

theorem sane_toFixed {value : Number} (h : Sane value) : Sane (toFixed value) := by
  cases value with
  | finite q => exact fun _ => roundHalfUp_nonneg _ (h trivial)
  | infinite negative => exact h
  | nan => exact h

/-- A quotient by zero is no finite number. -/
theorem sane_div {a : Number} {b : ℚ} (ha : a.IsNonneg) (hb : 0 ≤ b) :
    Sane (div a (.finite b)) := by
  intro hfinite
  by_cases hzero : b = 0
  · rw [hzero] at hfinite
    exact absurd hfinite (Number.not_isFinite_dividedBy_zero _ _)
  · exact ha.dividedBy (lt_of_le_of_ne hb (Ne.symm hzero))

theorem isNonneg_decodedAmount {result : Result} {decimals : ℕ} {value : Number}
    (h : decodedAmount result decimals = .ok value) : value.IsNonneg := by
  rw [decodedAmount_ok h]
  exact div_nonneg (Nat.cast_nonneg _) (pow_ten_pos decimals).le

/-! ## The crawls -/

/-- An update whose values are sane. -/
structure SaneParam (param : UpdateParam) : Prop where
  price_value : Sane param.price_value
  total_supply : Sane param.total_supply

theorem multi_sane {token : PairEntity} {keyPair : TokenEntity} {results : List Result}
    {row : Option UpdateParam}
    (h : MultiAMM.updateParam token (some keyPair) results = .ok row) :
    ∃ param, row = some param ∧ (0 ≤ keyPair.price_value → SaneParam param) := by
  rcases results with _ | ⟨supplyResult, _ | ⟨balanceResult, _ | ⟨extra, rest⟩⟩⟩
  · cases h
  · cases h
  · obtain ⟨supply, hsupply, h⟩ := Eff.except_bind_eq_ok.mp h
    obtain ⟨balance, hbalance, h⟩ := Eff.except_bind_eq_ok.mp h
    cases h
    refine ⟨_, rfl, fun hprice => ⟨?_, sane_of_isNonneg (isNonneg_decodedAmount hsupply)⟩⟩
    refine sane_toFixed ?_
    split
    · exact sane_of_isNonneg (le_refl (0 : ℚ))
    · obtain ⟨q, hq, hsupplyEq⟩ := Number.isNonneg_iff.mp (isNonneg_decodedAmount hsupply)
      rw [hsupplyEq]
      have hvalue : (Number.finite keyPair.price_value).IsNonneg := hprice
      have htwo : (Number.finite 2).IsNonneg := by
        show (0 : ℚ) ≤ 2
        norm_num
      exact sane_div (((isNonneg_decodedAmount hbalance).times hvalue).times htwo) hq
  · cases h

theorem single_sane {token : TokenEntity} (pair : PairEntity) (other : TokenEntity)
    {results : List Result}
    {row : Option UpdateParam}
    (h : SingleAMM.updateParam token (some (pair, other)) results = .ok row) :
    ∃ param, row = some param ∧ (0 ≤ other.price_value → SaneParam param) := by
  rcases results with _ | ⟨supplyResult, _ | ⟨targetResult, _ | ⟨otherResult, _ | ⟨extra, rest⟩⟩⟩⟩
  · cases h
  · cases h
  · cases h
  · obtain ⟨supply, hsupply, h⟩ := Eff.except_bind_eq_ok.mp h
    obtain ⟨target, htarget, h⟩ := Eff.except_bind_eq_ok.mp h
    obtain ⟨balance, hbalance, h⟩ := Eff.except_bind_eq_ok.mp h
    cases h
    refine ⟨_, rfl, fun hprice => ⟨?_, sane_of_isNonneg (isNonneg_decodedAmount hsupply)⟩⟩
    refine sane_toFixed ?_
    obtain ⟨q, hq, htargetEq⟩ := Number.isNonneg_iff.mp (isNonneg_decodedAmount htarget)
    rw [htargetEq]
    have hvalue : (Number.finite other.price_value).IsNonneg := hprice
    exact sane_div ((isNonneg_decodedAmount hbalance).times hvalue) hq
  · cases h

theorem chainLink_sane {token : TokenEntity} {feed : Option ChainLink.Feed} {supply : Option ℕ}
    {param : UpdateParam} (h : ChainLink.updateParam token feed supply = .ok (some param)) :
    SaneParam param := by
  unfold ChainLink.updateParam at h
  cases feed with
  | none => cases h
  | some feed =>
    simp only at h
    split at h
    · cases h
    · split at h
      · cases h
      · cases supply with
        | none => cases h
        | some supply =>
          cases h
          have hanswer : (Number.finite (feed.answer : ℚ)).IsNonneg := Nat.cast_nonneg feed.answer
          have hsupply : (Number.finite (supply : ℚ)).IsNonneg := Nat.cast_nonneg supply
          exact ⟨sane_toFixed (sane_of_isNonneg (isNonneg_divideDecimals _ hanswer)),
            sane_of_isNonneg (isNonneg_divideDecimals _ hsupply)⟩

/-- Every update of an AMM crawl is that of a token for which something was
found. -/
theorem crawl_sane {T O : Type} {node : Node} {chunkSize : ℕ} (hsize : 0 < chunkSize)
    {find : T → Except Thrown (Option O)} {infoEncode : T → Option O → List Call}
    {updateParam : T → Option O → List Result → Except Thrown (Option UpdateParam)}
    (hencode : ∀ token o, (infoEncode token o).length = chunkSize)
    (hnone : ∀ token results, updateParam token none results = .ok none) {Q : O → Prop}
    (hsome : ∀ token o results row, updateParam token (some o) results = .ok row →
      ∃ param, row = some param ∧ (Q o → SaneParam param))
    {targetTokens : List T} (hfound : ∀ token ∈ targetTokens, ∀ o, find token = .ok (some o) → Q o)
    {params : List UpdateParam}
    (h : crawl chunkSize find infoEncode updateParam node targetTokens = .ok params) :
    ∀ param ∈ params, SaneParam param := by
  have hrel := crawl_rel hsize hencode (R := fun target param => Q target.2 → SaneParam param)
    (fun token o row hrow => ?_) h
  · intro param hparam
    obtain ⟨⟨token, o⟩, htarget, hsane⟩ := Eff.exists_result hrel.flip hparam
    obtain ⟨hmem, hfind⟩ := mem_withFound htarget
    exact hsane (hfound token hmem o hfind)
  · cases o with
    | none =>
      rw [hnone] at hrow
      cases hrow
      exact .none
    | some o =>
      obtain ⟨param, rfl, hsane⟩ := hsome token o _ row hrow
      exact .some hsane

/-- The constituents of a pair have no negative price. -/
structure NonnegPrices (pair : PairEntity) : Prop where
  pair0 : ∀ token, pair.pair0 = some token → 0 ≤ token.price_value
  pair1 : ∀ token, pair.pair1 = some token → 0 ≤ token.price_value

theorem findKeyPair_nonneg {token : PairEntity} (h : NonnegPrices token) {keyPair : TokenEntity}
    (hfind : MultiAMM.findKeyPair token.pair0 token.pair1 = .ok (some keyPair)) :
    0 ≤ keyPair.price_value := by
  unfold MultiAMM.findKeyPair at hfind
  split at hfind
  · rename_i pair0 pair1 hpair0 hpair1
    split at hfind
    · cases hfind
      exact h.pair0 _ hpair0
    · split at hfind
      · cases hfind
        exact h.pair1 _ hpair1
      · cases hfind
  · cases hfind

theorem multi_crawl_sane {node : Node} {targetTokens : List PairEntity}
    (hprices : ∀ token ∈ targetTokens, NonnegPrices token) {params : List UpdateParam}
    (h : MultiAMM.crawlTokenSupplyAndPrice node targetTokens = .ok params) :
    ∀ param ∈ params, SaneParam param :=
  crawl_sane (Q := fun keyPair : TokenEntity => 0 ≤ keyPair.price_value) (by decide)
    (fun _ keyPair => by cases keyPair <;> rfl) (fun _ _ => rfl)
    (fun _ _ _ _ => multi_sane)
    (fun token htoken _ hfind => findKeyPair_nonneg (hprices token htoken) hfind) h

theorem otherToken_nonneg {pair : PairEntity} (h : NonnegPrices pair) {id : ℕ}
    {other : TokenEntity} (hother : SingleAMM.otherToken pair id = .ok other) :
    0 ≤ other.price_value := by
  unfold SingleAMM.otherToken at hother
  cases hpair0 : pair.pair0 with
  | none =>
    rw [hpair0] at hother
    cases hother
  | some pair0 =>
    rw [hpair0] at hother
    simp only at hother
    by_cases hid : pair0.id = id
    · rw [if_pos hid] at hother
      cases hpair1 : pair.pair1 with
      | none =>
        rw [hpair1] at hother
        cases hother
      | some pair1 =>
        rw [hpair1] at hother
        cases hother
        exact h.pair1 _ hpair1
    · rw [if_neg hid] at hother
      cases hother
      exact h.pair0 _ hpair0

theorem findOther_nonneg {tokens : List PairEntity} (h : ∀ pair ∈ tokens, NonnegPrices pair)
    {token : TokenEntity} {found : PairEntity × TokenEntity}
    (hfind : SingleAMM.findOther tokens token = .ok (some found)) : 0 ≤ found.2.price_value := by
  unfold SingleAMM.findOther at hfind
  cases hpair : SingleAMM.findHighestLiquidityPair (SingleAMM.findConfiguredPairs tokens token) with
  | none =>
    rw [hpair] at hfind
    cases hfind
  | some pair =>
    rw [hpair] at hfind
    simp only at hfind
    have hmem : pair ∈ tokens := List.mem_of_mem_filter (mem_of_findHighestLiquidityPair hpair)
    cases hother : SingleAMM.otherToken pair token.id with
    | error e =>
      rw [hother] at hfind
      cases hfind
    | ok other =>
      rw [hother] at hfind
      cases hfind
      exact otherToken_nonneg (h pair hmem) hother

theorem single_crawl_sane {node : Node} {tokens : List PairEntity}
    (hprices : ∀ pair ∈ tokens, NonnegPrices pair) {targetTokens : List TokenEntity}
    {params : List UpdateParam}
    (h : SingleAMM.crawlTokenSupplyAndPrice node tokens targetTokens = .ok params) :
    ∀ param ∈ params, SaneParam param :=
  crawl_sane (Q := fun found : PairEntity × TokenEntity => 0 ≤ found.2.price_value) (by decide)
    (fun _ found => by cases found <;> rfl) (fun _ _ => rfl)
    (fun _ found _ _ hrow => single_sane found.1 found.2 hrow)
    (fun _ _ _ hfind => findOther_nonneg hprices hfind) h

theorem chainLink_crawl_sane {supplies : List String → Except Thrown (List ℕ)}
    {feeds : List (Option String) → Except Thrown (List ChainLink.Feed)}
    {targetTokens : List TokenEntity} {params : List UpdateParam}
    (h : ChainLink.crawlTokenSupplyAndPrice supplies feeds targetTokens = .ok params) :
    ∀ param ∈ params, SaneParam param := by
  obtain ⟨totalSupplies, _, h⟩ := Eff.except_bind_eq_ok.mp h
  obtain ⟨chainLinkData, _, h⟩ := Eff.except_bind_eq_ok.mp h
  obtain ⟨rows, hrows, h⟩ := Eff.except_bind_eq_ok.mp h
  cases h
  intro param hparam
  obtain ⟨row, hrow, hsome⟩ := List.mem_filterMap.mp hparam
  obtain ⟨target, _, htarget⟩ := Eff.exists_result (Eff.forall₂_of_mapM hrows).flip hrow
  rw [id_eq] at hsome
  rw [hsome] at htarget
  exact chainLink_sane htarget

/-! ## The table over all that happens to it -/

/-- The number a column's text stands for. -/
def columnValue : Number → ℚ
  | .finite q => q
  | _ => 0

/-- A row as it is loaded. Its network is another table's. -/
def loadedToken (network_status : ℕ → Bool) (s : Stored PricedRow) : TokenEntity where
  id := s.id
  type := s.row.token.type
  address := s.row.token.address
  decimals := s.row.token.decimals
  total_supply := columnValue s.row.total_supply
  price_address := s.row.price_address
  price_value := columnValue s.row.price_value
  status := s.row.token.status
  network_status := network_status s.row.token.network

/-- A row with the rows that its relations point to. -/
def loadedPair (network_status : ℕ → Bool) (t : PricedTokens) (s : Stored PricedRow) :
    PairEntity where
  toTokenEntity := loadedToken network_status s
  pair0 := (s.row.token.pair0.bind t.byId).map (loadedToken network_status)
  pair1 := (s.row.token.pair1.bind t.byId).map (loadedToken network_status)

def loaded (network_status : ℕ → Bool) (t : PricedTokens) : List PairEntity :=
  t.rows.map (loadedPair network_status t)

/-- The crawl of a chunk by one of the jobs, with the answers it gets. The single
job looks for its pairs in the table as it is then. -/
inductive Job where
  | multiAMM (node : Node)
  | singleAMM (node : Node) (network_status : ℕ → Bool)
  | chainLink (getBatchERC20TotalSupply : List String → Except Thrown (List ℕ))
      (getBatchChainLinkData : List (Option String) → Except Thrown (List ChainLink.Feed))

def Job.crawlTokenSupplyAndPrice (job : Job) (t : PricedTokens) (targetTokens : List PairEntity) :
    Except Thrown (List UpdateParam) :=
  match job with
  | multiAMM node => MultiAMM.crawlTokenSupplyAndPrice node targetTokens
  | singleAMM node network_status => SingleAMM.crawlTokenSupplyAndPrice node
      (loaded network_status t) (targetTokens.map PairEntity.toTokenEntity)
  | chainLink supplies feeds => ChainLink.crawlTokenSupplyAndPrice supplies feeds
      (targetTokens.map PairEntity.toTokenEntity)

structure InRangeRow (row : PricedRow) : Prop where
  price_value : InRange row.price_value
  total_supply : InRange row.total_supply

/-- The table, and all tokens that the runs have loaded so far. -/
structure State where
  table : PricedTokens
  tokens : List PairEntity

/-- What the table goes through. A run prices the tokens it loaded at its start,
whatever has been written since. -/
inductive Reachable : State → Prop where
  | start : Reachable ⟨Table.empty, []⟩
  | insert {s : State} (row : PricedRow) (h : Reachable s) (inRange : InRangeRow row) :
      Reachable ⟨s.table.insertIgnore row, s.tokens⟩
  | load {s : State} (network_status : ℕ → Bool) (h : Reachable s) :
      Reachable ⟨s.table, s.tokens ++ loaded network_status s.table⟩
  | update {s : State} (job : Job) (targetTokens : List PairEntity) (params : List UpdateParam)
      (h : Reachable s) (hloaded : ∀ token ∈ targetTokens, token ∈ s.tokens)
      (hcrawl : job.crawlTokenSupplyAndPrice s.table targetTokens = .ok params) :
      Reachable ⟨applied params s.table, s.tokens⟩

/-- Every column is in its range, and every token was loaded from such columns. -/
structure Sound (s : State) : Prop where
  rows : ∀ row ∈ s.table.rows, InRangeRow row.row
  tokens : ∀ token ∈ s.tokens, NonnegPrices token

theorem columnValue_nonneg {value : Number} (h : InRange value) : 0 ≤ columnValue value := by
  obtain ⟨q, rfl, hq, _⟩ := h
  exact hq

theorem mem_of_byId {t : PricedTokens} {id : Option ℕ} {s : Stored PricedRow}
    (h : id.bind t.byId = some s) : s ∈ t.rows := by
  obtain ⟨i, _, hfind⟩ := Option.bind_eq_some_iff.mp h
  exact List.mem_of_find?_eq_some hfind

theorem nonnegPrices_loaded {t : PricedTokens} (h : ∀ row ∈ t.rows, InRangeRow row.row)
    (network_status : ℕ → Bool) : ∀ token ∈ loaded network_status t, NonnegPrices token := by
  intro token htoken
  obtain ⟨s, _, rfl⟩ := List.mem_map.mp htoken
  constructor
  · intro pair hpair
    obtain ⟨row, hrow, rfl⟩ := Option.map_eq_some_iff.mp hpair
    exact columnValue_nonneg (h row (mem_of_byId hrow)).price_value
  · intro pair hpair
    obtain ⟨row, hrow, rfl⟩ := Option.map_eq_some_iff.mp hpair
    exact columnValue_nonneg (h row (mem_of_byId hrow)).price_value

/-- One chunk of a sound state. -/
theorem job_sane {job : Job} {s : State} (h : Sound s) {targetTokens : List PairEntity}
    (hloaded : ∀ token ∈ targetTokens, token ∈ s.tokens) {params : List UpdateParam}
    (hcrawl : job.crawlTokenSupplyAndPrice s.table targetTokens = .ok params) :
    ∀ param ∈ params, SaneParam param := by
  cases job with
  | multiAMM node =>
    exact multi_crawl_sane (fun token htoken => h.tokens token (hloaded token htoken)) hcrawl
  | singleAMM node network_status =>
    exact single_crawl_sane (nonnegPrices_loaded h.rows network_status) hcrawl
  | chainLink supplies feeds => exact chainLink_crawl_sane hcrawl

theorem inRange_updateToken {t : PricedTokens} (h : ∀ row ∈ t.rows, InRangeRow row.row)
    {param : UpdateParam} (hparam : SaneParam param) :
    ∀ row ∈ (updateToken param.id (written param.price_value)
      (written param.total_supply) t).rows, InRangeRow row.row := by
  intro row hrow
  obtain ⟨old, hold, rfl⟩ := List.mem_map.mp hrow
  by_cases hid : old.id = param.id
  · rw [Stored.updated, if_pos hid]
    exact ⟨inRange_decimalColumn (inRange_written hparam.price_value),
      inRange_decimalColumn (inRange_written hparam.total_supply)⟩
  · rw [Stored.updated, if_neg hid]
    exact h old hold

theorem inRange_applied {params : List UpdateParam} (hparams : ∀ param ∈ params, SaneParam param) :
    ∀ {t : PricedTokens}, (∀ row ∈ t.rows, InRangeRow row.row) →
      ∀ row ∈ (applied params t).rows, InRangeRow row.row := by
  induction params with
  | nil => exact fun h => h
  | cons param params ih =>
    intro t h
    exact ih (fun p hp => hparams p (List.mem_cons_of_mem _ hp))
      (inRange_updateToken h (hparams param List.mem_cons_self))

theorem sound_of_reachable {s : State} (h : Reachable s) : Sound s := by
  induction h with
  | start => exact ⟨fun row hrow => absurd hrow List.not_mem_nil,
      fun token htoken => absurd htoken List.not_mem_nil⟩
  | @insert s row _ inRange ih =>
    refine ⟨fun stored hstored => ?_, ih.tokens⟩
    rcases Table.insertIgnore_rows s.table row with hsame | hnew
    · rw [hsame] at hstored
      exact ih.rows stored hstored
    · rw [hnew] at hstored
      rcases List.mem_append.mp hstored with hold | hnew
      · exact ih.rows stored hold
      · rw [List.mem_singleton.mp hnew]
        exact inRange
  | load network_status _ ih =>
    refine ⟨ih.rows, fun token htoken => ?_⟩
    rcases List.mem_append.mp htoken with hold | hnew
    · exact ih.tokens token hold
    · exact nonnegPrices_loaded ih.rows network_status token hnew
  | update job targetTokens params _ hloaded hcrawl ih =>
    exact ⟨inRange_applied (job_sane ih hloaded hcrawl) ih.rows, ih.tokens⟩

/-- **Range.** Whatever a chunk's crawl gives, in any state of the table, is
written as numbers in the range of the columns. -/
theorem written_in_range {s : State} (hreachable : Reachable s) (job : Job)
    {targetTokens : List PairEntity} (hloaded : ∀ token ∈ targetTokens, token ∈ s.tokens)
    {params : List UpdateParam}
    (hcrawl : job.crawlTokenSupplyAndPrice s.table targetTokens = .ok params) :
    ∀ param ∈ params,
      InRange (written param.price_value) ∧ InRange (written param.total_supply) := by
  intro param hparam
  have hsane := job_sane (sound_of_reachable hreachable) hloaded hcrawl param hparam
  exact ⟨inRange_written hsane.price_value, inRange_written hsane.total_supply⟩

/-! ### A feed of eight decimals -/

def feedRow : PricedRow where
  token := ⟨1, .SINGLE, "Ether", "ETH", "0xe7", 18, none, none, true⟩
  price_address := some "0xfeed"
  price_value := .finite 0
  total_supply := .finite 0

def feedState : State :=
  ⟨Table.empty.insertIgnore feedRow, loaded (fun _ => true) (Table.empty.insertIgnore feedRow)⟩

theorem feedState_reachable : Reachable feedState :=
  .load (fun _ => true) (.insert feedRow .start ⟨inRange_zero, inRange_zero⟩)

/-- The supply is too large for the column, and is written as zero. -/
def feedJob : Job := .chainLink (fun _ => .ok [10 ^ 60]) fun _ => .ok [⟨3000 * 10 ^ 8, 8⟩]

theorem feed_in_range : ∃ params,
    feedJob.crawlTokenSupplyAndPrice feedState.table feedState.tokens = .ok params ∧
      params.length = 1 ∧
      ∀ param ∈ params, InRange (written param.price_value) ∧ InRange (written param.total_supply) :=
  ⟨_, rfl, rfl, written_in_range feedState_reachable feedJob (fun _ h => h) rfl⟩

end BlockchainTask.SchedulerJob.PriceRange

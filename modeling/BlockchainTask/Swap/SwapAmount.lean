import BlockchainTask.Swap.ChainIndependence

/-! # When a search returns

A search throws wherever something it uses does: the amount has to be an integer
of raw units that the SDK accepts, every protocol of the chain needs a pool for
one of the pairs that are looked for, since the router refuses an empty list of
pairs, and the node has to answer with reserves. Nothing in the search asks for
any of it. Where it returns, the raw amount is the exact one. -/
namespace BlockchainTask.Swap.SwapAmount
open BlockchainTask.Common.Exception BlockchainTask.Helper BlockchainTask.Library.Effect
open BlockchainTask.Library.Decimal BlockchainTask.Helper.Decimals
open BlockchainTask.Helper.NumericText BlockchainTask.Swap.SwapService
open BlockchainTask.Swap.RoutedPairs BlockchainTask.Swap.ChainIndependence

variable {env : Environment} {router : Router} {node : Network → Node} {db : Db}
variable {entries factories : List ProtocolService} {chainId : Nat} {network : Network}
variable {inputToken outputToken : Token} {amount : NumberString} {a b : TokenInstance}

/-! ## The raw amount -/

/-- The amount in raw units. -/
def rawUnits (amount : NumberString) (decimals : Nat) : ℚ := amount.value * 10 ^ decimals

/-- The amount that the router is given. -/
def givenAmount (currency : TokenInstance) (amount : NumberString) (decimals : Nat) :
    Except Thrown CurrencyAmount :=
  fromRawAmount currency (multiplyDecimals (.finite amount.value) decimals)

theorem givenAmount_eq (currency : TokenInstance) (decimals : Nat) :
    givenAmount currency amount decimals =
      fromRawAmount currency (.finite (rawUnits amount decimals)) := by
  rw [givenAmount, multiplyDecimals_finite, rawUnits]

/-- An amount is accepted as it is. -/
theorem fromRawAmount_ok {currency : TokenInstance} {q : ℚ} {given : CurrencyAmount}
    (h : fromRawAmount currency (.finite q) = .ok given) :
    (given.quotient : ℚ) = q ∧ given.quotient ≤ MaxUint256 ∧ given.currency = currency := by
  simp only [fromRawAmount] at h
  split at h
  · rename_i hinteger
    split at h
    · rename_i hmax
      cases h
      exact ⟨(Rat.den_eq_one_iff q).mp hinteger.1, hmax, rfl⟩
    · cases h
  · cases h

theorem fromRawAmount_natCast (currency : TokenInstance) {n : ℕ} (h : n ≤ MaxUint256) :
    fromRawAmount currency (.finite n) = .ok ⟨currency, n⟩ := by
  have hsmall : |(n : ℚ)| < 10 ^ EXPONENTIAL_AT := by
    rw [Nat.abs_cast]
    have hdigits : MaxUint256 < 10 ^ EXPONENTIAL_AT := by decide
    exact_mod_cast lt_of_le_of_lt h hdigits
  have hbound : ((n : ℚ).num : ℤ) ≤ MaxUint256 := by
    rw [Rat.num_natCast]
    exact_mod_cast h
  simp only [fromRawAmount]
  rw [if_pos ⟨Rat.den_natCast n, hsmall⟩, if_pos hbound, Rat.num_natCast]

/-! ## The tokens -/

/-- The SDK accepts a token. -/
def Accepted (env : Environment) (token : TokenColumns) : Prop :=
  token.decimals < 255 ∧ (env.getAddress token.address).isSome

instance (env : Environment) (token : TokenColumns) : Decidable (Accepted env token) :=
  inferInstanceAs (Decidable (_ ∧ _))

/-- The token of the SDK. -/
def instanceOf (env : Environment) (chainId : Nat) (token : TokenColumns) : TokenInstance :=
  ⟨chainId, (env.getAddress token.address).getD token.address, token.decimals, token.symbol,
    token.name⟩

/-- The token that is traded, when it is there. -/
def tradedToken (token : Token) : Option TokenColumns :=
  if isZeroAddress token.address then token.wrapped else some token.toTokenColumns

/-- The base tokens of the SDK. -/
def commonPath (env : Environment) (db : Db) (chainId : Nat) : List TokenInstance :=
  (baseSwapTokens db).map fun token => instanceOf env chainId token.toTokenColumns

theorem tokenInstance_ok_iff {token : TokenColumns} {t : TokenInstance} :
    tokenInstance env chainId token = .ok t ↔
      Accepted env token ∧ t = instanceOf env chainId token := by
  unfold tokenInstance Accepted instanceOf
  by_cases hdecimals : token.decimals < 255
  · rw [if_pos hdecimals]
    cases env.getAddress token.address with
    | none => simp
    | some address => simp [hdecimals, eq_comm]
  · rw [if_neg hdecimals]
    constructor
    · intro h
      cases h
    · intro h
      exact absurd h.1.1 hdecimals

theorem traded_ok_iff {token : Token} {x : TokenColumns} :
    traded token = .ok x ↔ tradedToken token = some x := by
  unfold traded tradedToken
  by_cases hnative : isZeroAddress token.address = true
  · rw [if_pos hnative, if_pos hnative]
    cases token.wrapped with
    | none => simp
    | some wrapped => simp
  · rw [if_neg hnative, if_neg hnative]
    simp

theorem instances_ok_iff :
    getInOutPutTokenInstances env chainId inputToken outputToken = .ok (a, b) ↔
    ∃ x y, tradedToken inputToken = some x ∧ Accepted env x ∧ tradedToken outputToken = some y ∧
      Accepted env y ∧ a = instanceOf env chainId x ∧ b = instanceOf env chainId y := by
  constructor
  · intro h
    obtain ⟨x, hx, h⟩ := Eff.except_bind_eq_ok.mp h
    obtain ⟨a', ha, h⟩ := Eff.except_bind_eq_ok.mp h
    obtain ⟨y, hy, h⟩ := Eff.except_bind_eq_ok.mp h
    obtain ⟨b', hb, h⟩ := Eff.except_bind_eq_ok.mp h
    cases h
    obtain ⟨hax, rfl⟩ := tokenInstance_ok_iff.mp ha
    obtain ⟨hby, rfl⟩ := tokenInstance_ok_iff.mp hb
    exact ⟨x, y, traded_ok_iff.mp hx, hax, traded_ok_iff.mp hy, hby, rfl, rfl⟩
  · intro h
    obtain ⟨x, y, hx, hax, hy, hby, rfl, rfl⟩ := h
    unfold getInOutPutTokenInstances
    rw [traded_ok_iff.mpr hx, traded_ok_iff.mpr hy]
    show (tokenInstance env chainId x >>= fun input => tokenInstance env chainId y >>= fun output =>
      pure (input, output)) = _
    rw [tokenInstance_ok_iff.mpr ⟨hax, rfl⟩, tokenInstance_ok_iff.mpr ⟨hby, rfl⟩]
    rfl

theorem getCommonPathTokenInstances_ok
    (h : ∀ base ∈ baseSwapTokens db, Accepted env base.toTokenColumns) :
    getCommonPathTokenInstances env db chainId = .ok (commonPath env db chainId) :=
  Eff.except_mapM_of_ok fun base hbase => tokenInstance_ok_iff.mpr ⟨h base hbase, rfl⟩

theorem accepted_of_getCommonPathTokenInstances {path : List TokenInstance}
    (h : getCommonPathTokenInstances env db chainId = .ok path) :
    ∀ base ∈ baseSwapTokens db, Accepted env base.toTokenColumns := by
  intro base hbase
  obtain ⟨t, ht⟩ := Eff.except_mapM_ok_iff.mp ⟨path, h⟩ base hbase
  exact (tokenInstance_ok_iff.mp ht).1

/-! ## The pools -/

/-- The pairs that are looked for. -/
def candidates (a b : TokenInstance) (path : List TokenInstance) :
    List (TokenInstance × TokenInstance) :=
  (combinations a b (otherBases a b path)).map sorted

/-- What the node answers for a pair of a protocol. -/
def poolAnswer (env : Environment) (node : Node) (factory : ProtocolService)
    (p : TokenInstance × TokenInstance) : Result := node.answer (pairAddress env factory p)

/-- The pool of a pair, when it exists. -/
def pool (p : TokenInstance × TokenInstance) (result : Result) : Option Pair :=
  match result.success, result.returnData with
  | true, .reserves reserve0 reserve1 => some ⟨p.1, p.2, reserve0, reserve1⟩
  | _, _ => none

/-- The pools of a protocol. -/
def pools (env : Environment) (node : Node) (factory : ProtocolService)
    (ps : List (TokenInstance × TokenInstance)) : List Pair :=
  ps.filterMap fun p => pool p (poolAnswer env node factory p)

def Decodes (result : Result) : Prop := result.success = true → result.returnData ≠ .malformed

instance (result : Result) : Decidable (Decodes result) := inferInstanceAs (Decidable (_ → _))

theorem pairOf_ok_iff {p : TokenInstance × TokenInstance} {result : Result} :
    (∃ found, pairOf p result = .ok found) ↔ Decodes result := by
  obtain ⟨success, returnData⟩ := result
  cases success with
  | false => simp [pairOf, Decodes]
  | true =>
    cases returnData with
    | null => simp [pairOf, Decodes]
    | reserves r0 r1 => simp [pairOf, Decodes]
    | malformed => simp [pairOf, Decodes]

theorem pairOf_eq {p : TokenInstance × TokenInstance} {result : Result} (h : Decodes result) :
    pairOf p result = .ok (pool p result) := by
  obtain ⟨success, returnData⟩ := result
  cases success with
  | false => rfl
  | true =>
    cases returnData with
    | null => rfl
    | reserves r0 r1 => rfl
    | malformed => exact absurd rfl (h rfl)

variable {answering : Node} {ps : List (TokenInstance × TokenInstance)}

/-- A protocol is given its pools where every answer decodes. -/
theorem protocolPairs_ok {factory : ProtocolService}
    (h : ∀ p ∈ ps, Decodes (poolAnswer env answering factory p)) :
    protocolPairs env answering ps factory =
      .ok (factory.protocol, pools env answering factory ps) := by
  have hpairs := pairList_eq fun p hp => pairOf_eq (h p hp)
  unfold protocolPairs
  show (pairList ps (some (ps.map (poolAnswer env answering factory))) >>= _) = _
  rw [hpairs]
  rfl

theorem decodes_of_protocolPairs {factory : ProtocolService} {found : Protocol × List Pair}
    (h : protocolPairs env answering ps factory = .ok found) :
    ∀ p ∈ ps, Decodes (poolAnswer env answering factory p) := by
  obtain ⟨pairs, hpairs, _⟩ := Eff.except_bind_eq_ok.mp h
  obtain ⟨results, hresults, _⟩ := Eff.except_bind_eq_ok.mp hpairs
  intro p hp
  have hmem : (p, poolAnswer env answering factory p) ∈
      ps.zip (ps.map fun p => answering.answer (pairAddress env factory p)) := by
    rw [zip_map_right_self]
    exact List.mem_map.mpr ⟨p, hp, rfl⟩
  exact pairOf_ok_iff.mp (Eff.except_mapM_ok_iff.mp ⟨results, hresults⟩ _ hmem)

/-! ## The router -/

/-- The router answers for a list of pairs, at every number of hops. -/
def Routes (router : Router) (pairs : List Pair) (given : CurrencyAmount) (out : TokenInstance) :
    Prop :=
  ∀ hops ∈ List.range' 1 maxHops, ∃ trades, router pairs given out hops = .ok trades

theorem bestOf_ok_iff {currentTrades : List (Except Thrown (List Trade))} {best : Option Trade} :
    (∃ trade, bestOf currentTrades best = .ok trade) ↔
      ∀ current ∈ currentTrades, ∃ trades, current = .ok trades := by
  induction currentTrades generalizing best with
  | nil => simp [bestOf]
  | cons current rest ih =>
    rw [List.forall_mem_cons]
    cases current with
    | error e =>
      constructor
      · intro h
        obtain ⟨trade, htrade⟩ := h
        cases htrade
      · intro h
        obtain ⟨trades, htrades⟩ := h.1
        cases htrades
    | ok trades =>
      rw [bestOf_ok, ih]
      exact ⟨fun h => ⟨⟨trades, rfl⟩, h⟩, fun h => h.2⟩

theorem protocolItem_ok_iff {allowed : Protocol × List Pair} :
    (∃ item, protocolItem router a b inputToken outputToken amount allowed = .ok item) ↔
      ∃ given, givenAmount a amount inputToken.decimals = .ok given ∧
        Routes router allowed.2 given b := by
  have hitem : protocolItem router a b inputToken outputToken amount allowed =
      givenAmount a amount inputToken.decimals >>= fun given =>
        bestOf ((List.range' 1 maxHops).map fun hops => router allowed.2 given b hops) none >>=
          fun bestTrade => pure (bestTrade.map fun trade =>
            ⟨allowed.1, inputToken, outputToken, amount.text, trade.outputAmount⟩) := by
    show (fromRawAmount a (multiplyDecimals (.finite amount.value) inputToken.decimals) >>= _) >>=
      _ = _
    rw [bind_assoc]
    rfl
  have hroutes : ∀ given, Routes router allowed.2 given b ↔
      ∃ trade, bestOf ((List.range' 1 maxHops).map fun hops => router allowed.2 given b hops) none =
        .ok trade := by
    intro given
    rw [bestOf_ok_iff, Routes, List.forall_mem_map]
  rw [hitem]
  constructor
  · intro h
    obtain ⟨item, hitem⟩ := h
    obtain ⟨given, hgiven, hrest⟩ := Eff.except_bind_eq_ok.mp hitem
    obtain ⟨trade, htrade, _⟩ := Eff.except_bind_eq_ok.mp hrest
    exact ⟨given, hgiven, (hroutes given).mpr ⟨trade, htrade⟩⟩
  · intro h
    obtain ⟨given, hgiven, hroute⟩ := h
    obtain ⟨trade, htrade⟩ := (hroutes given).mp hroute
    exact ⟨_, Eff.except_bind_eq_ok.mpr
      ⟨given, hgiven, Eff.except_bind_eq_ok.mpr ⟨trade, htrade, rfl⟩⟩⟩

/-! ## The search -/

/-- The search returns a list, and gives the router the amount in raw units,
rounded down at most. -/
structure Meets (env : Environment) (router : Router) (node : Network → Node) (db : Db)
    (entries : List ProtocolService) (chainId : Nat) (inputToken outputToken : Token)
    (amount : NumberString) : Prop where
  returns : ∃ items,
    search env router node db entries chainId inputToken outputToken amount = .ok items
  raw : ∃ n : ℤ, (∀ currency, givenAmount currency amount inputToken.decimals = .ok ⟨currency, n⟩) ∧
    0 ≤ n ∧ (n : ℚ) ≤ rawUnits amount inputToken.decimals ∧
      rawUnits amount inputToken.decimals < n + 1

/-- The node answers for the pairs that are looked for, each protocol has a pool
for one of them, and the router answers for the pools of each. -/
structure Routable (env : Environment) (router : Router) (answering : Node)
    (factories : List ProtocolService) (given : CurrencyAmount) (out : TokenInstance)
    (ps : List (TokenInstance × TokenInstance)) : Prop where
  answered : answering.fault = none
  decodes : ∀ factory ∈ factories, ∀ p ∈ ps, Decodes (poolAnswer env answering factory p)
  exist : ∀ factory ∈ factories, pools env answering factory ps ≠ []
  routes : ∀ factory ∈ factories, Routes router (pools env answering factory ps) given out

/-- The amount is a number of raw units that the SDK accepts, the tokens that are
traded are there, the SDK accepts them and every base token, and the pairs of
these can be routed. -/
structure Tradable (env : Environment) (router : Router) (node : Network → Node) (db : Db)
    (entries : List ProtocolService) (chainId : Nat) (inputToken outputToken : Token)
    (amount : NumberString) : Prop where
  bases : ∀ base ∈ baseSwapTokens db, Accepted env base.toTokenColumns
  routable : ∃ (n : ℕ) (x y : TokenColumns) (factories : List ProtocolService) (network : Network),
    rawUnits amount inputToken.decimals = n ∧ n ≤ MaxUint256 ∧
      tradedToken inputToken = some x ∧ Accepted env x ∧
      tradedToken outputToken = some y ∧ Accepted env y ∧
      getProtocolWithService entries chainId = some factories ∧
      networkByChainId db chainId = some network ∧
      Routable env router (node network) factories ⟨instanceOf env chainId x, n⟩
        (instanceOf env chainId y)
        (candidates (instanceOf env chainId x) (instanceOf env chainId y)
          (commonPath env db chainId))

theorem instances_of_search {items : List Item}
    (h : search env router node db entries chainId inputToken outputToken amount = .ok items) :
    ∃ a b, getInOutPutTokenInstances env chainId inputToken outputToken = .ok (a, b) := by
  cases hinstances : getInOutPutTokenInstances env chainId inputToken outputToken with
  | error e =>
    unfold search at h
    rw [hinstances] at h
    cases h
  | ok tokens => exact ⟨tokens.1, tokens.2, rfl⟩

/-- A batch that was read from was answered, and was no empty one. -/
theorem answered_of_getProtocolPairs {allowed : List (Protocol × List Pair)}
    (hfactories : getProtocolWithService entries chainId = some factories)
    (hnetwork : networkByChainId db chainId = some network)
    (h : getProtocolPairs env node db entries chainId ps = .ok allowed) :
    (node network).fault = none ∧ ps ≠ [] := by
  have hanswered : (node network).fault = none := by
    unfold getProtocolPairs at h
    rw [hfactories, hnetwork] at h
    obtain ⟨_, _, h⟩ := Eff.except_bind_eq_ok.mp h
    obtain ⟨found, hfound, h⟩ := Eff.except_bind_eq_ok.mp h
    obtain ⟨results, hresults, _⟩ := Eff.except_bind_eq_ok.mp h
    cases hfound
    unfold getBatchStaticAggregator at hresults
    cases hfault : (node network).fault with
    | none => rfl
    | some e =>
      rw [hfault] at hresults
      cases hresults
  refine ⟨hanswered, fun hnil => ?_⟩
  rw [hnil, getProtocolPairs_nil hfactories hnetwork hanswered] at h
  cases h

theorem getProtocolPairs_ok (hfactories : getProtocolWithService entries chainId = some factories)
    (hnetwork : networkByChainId db chainId = some network)
    (hanswered : (node network).fault = none) (hne : ps ≠ [])
    (hdecodes : ∀ factory ∈ factories, ∀ p ∈ ps,
      Decodes (poolAnswer env (node network) factory p)) :
    getProtocolPairs env node db entries chainId ps =
      .ok (factories.map fun factory =>
        (factory.protocol, pools env (node network) factory ps)) := by
  rw [getProtocolPairs_eq hfactories hnetwork hanswered hne]
  exact Eff.except_mapM_of_ok fun factory hfactory => protocolPairs_ok (hdecodes factory hfactory)

/-- A search that returned found the protocols and the network of the chain. -/
theorem chain_of_searchAmong {items : List Item}
    (h : searchAmong env router node db entries chainId inputToken outputToken amount a b ps =
      .ok items) :
    ∃ factories, getProtocolWithService entries chainId = some factories ∧
      ∃ network, networkByChainId db chainId = some network := by
  obtain ⟨allowed, hallowed, _⟩ := Eff.except_bind_eq_ok.mp h
  obtain ⟨factories, hfactories, hallowed⟩ := Eff.except_bind_eq_ok.mp hallowed
  obtain ⟨network, hnetwork, _⟩ := Eff.except_bind_eq_ok.mp hallowed
  exact ⟨factories, Eff.eq_some_of_elim hfactories, network, Eff.eq_some_of_elim hnetwork⟩

theorem protocolItem_given_iff {given : CurrencyAmount}
    (hgiven : givenAmount a amount inputToken.decimals = .ok given)
    (pairs : Protocol × List Pair) :
    (∃ item, protocolItem router a b inputToken outputToken amount pairs = .ok item) ↔
      Routes router pairs.2 given b := by
  rw [protocolItem_ok_iff]
  constructor
  · intro h
    obtain ⟨given', hgiven', hroutes⟩ := h
    rw [hgiven, Except.ok.injEq] at hgiven'
    rw [hgiven']
    exact hroutes
  · exact fun h => ⟨given, hgiven, h⟩

/-- What a search among pairs that returned was answered. -/
theorem routable_of_searchAmong
    (hrefuses : ∀ given out hops, ∃ e, router [] given out hops = .error e)
    (hfactories : getProtocolWithService entries chainId = some factories)
    (hnetwork : networkByChainId db chainId = some network) {given : CurrencyAmount}
    (hgiven : givenAmount a amount inputToken.decimals = .ok given) {items : List Item}
    (h : searchAmong env router node db entries chainId inputToken outputToken amount a b ps =
      .ok items) :
    Routable env router (node network) factories given b ps := by
  obtain ⟨allowed, hallowed, hrest⟩ := Eff.except_bind_eq_ok.mp h
  obtain ⟨results, hresults, _⟩ := Eff.except_bind_eq_ok.mp hrest
  obtain ⟨hanswered, hne⟩ := answered_of_getProtocolPairs hfactories hnetwork hallowed
  have hdecodes : ∀ factory ∈ factories, ∀ p ∈ ps,
      Decodes (poolAnswer env (node network) factory p) := by
    rw [getProtocolPairs_eq hfactories hnetwork hanswered hne] at hallowed
    intro factory hfactory
    obtain ⟨found, hfound⟩ := Eff.except_mapM_ok_iff.mp ⟨allowed, hallowed⟩ factory hfactory
    exact decodes_of_protocolPairs hfound
  rw [getProtocolPairs_ok hfactories hnetwork hanswered hne hdecodes, Except.ok.injEq] at hallowed
  have hroutes : ∀ factory ∈ factories,
      Routes router (pools env (node network) factory ps) given b := by
    intro factory hfactory
    have hmem : (factory.protocol, pools env (node network) factory ps) ∈ allowed := by
      rw [← hallowed]
      exact List.mem_map.mpr ⟨factory, hfactory, rfl⟩
    exact (protocolItem_given_iff hgiven _).mp
      (Eff.except_mapM_ok_iff.mp ⟨results, hresults⟩ _ hmem)
  refine ⟨hanswered, hdecodes, fun factory hfactory hnil => ?_, hroutes⟩
  -- the router was asked for the pools, and refuses to go through none
  obtain ⟨trades, htrades⟩ := hroutes factory hfactory 1 (by decide)
  obtain ⟨e, herror⟩ := hrefuses given b 1
  rw [hnil, herror] at htrades
  cases htrades

/-- Pairs that can be routed make a search among them return. -/
theorem searchAmong_ok (hfactories : getProtocolWithService entries chainId = some factories)
    (hnetwork : networkByChainId db chainId = some network) {given : CurrencyAmount}
    (hgiven : givenAmount a amount inputToken.decimals = .ok given)
    (h : Routable env router (node network) factories given b ps) :
    ∃ items, searchAmong env router node db entries chainId inputToken outputToken amount a b ps =
      .ok items := by
  have hne : ps ≠ [] := by
    intro hnil
    obtain ⟨factory, hfactory⟩ := List.exists_mem_of_ne_nil _ (factories_ne_nil hfactories)
    exact h.exist factory hfactory (by rw [hnil]; rfl)
  have hpairs := getProtocolPairs_ok hfactories hnetwork h.answered hne h.decodes
  have hitems : ∀ allowed ∈ factories.map (fun factory =>
      (factory.protocol, pools env (node network) factory ps)),
      ∃ item, protocolItem router a b inputToken outputToken amount allowed = .ok item := by
    intro allowed hallowed
    obtain ⟨factory, hfactory, rfl⟩ := List.mem_map.mp hallowed
    exact (protocolItem_given_iff hgiven _).mpr (h.routes factory hfactory)
  obtain ⟨results, hresults⟩ := Eff.except_mapM_ok_iff.mpr hitems
  exact ⟨_, Eff.except_bind_eq_ok.mpr ⟨_, hpairs, Eff.except_bind_eq_ok.mpr ⟨_, hresults, rfl⟩⟩⟩

/-- A search of two tokens meets its contract exactly when the amount is a number
of raw units that the SDK accepts, the tokens are accepted, every protocol of the
chain has a pool, and the node and the router answer. -/
theorem meets_iff_tradable
    (hrefuses : ∀ given out hops, ∃ e, router [] given out hops = .error e) :
    Meets env router node db entries chainId inputToken outputToken amount ↔
      Tradable env router node db entries chainId inputToken outputToken amount := by
  constructor
  · intro h
    obtain ⟨items, hitems⟩ := h.returns
    obtain ⟨n, hgiven, hnonneg, _, _⟩ := h.raw
    obtain ⟨a, b, hinstances⟩ := instances_of_search hitems
    rw [search_eq _ _ _ _ hinstances] at hitems
    obtain ⟨path, hpath, hamong⟩ := Eff.except_bind_eq_ok.mp hitems
    have hbases := accepted_of_getCommonPathTokenInstances hpath
    rw [getCommonPathTokenInstances_ok hbases, Except.ok.injEq] at hpath
    obtain ⟨factories, hfactories, network, hnetwork⟩ := chain_of_searchAmong hamong
    rw [getAllCurrencyCombinations_eq, ← hpath] at hamong
    have hroutable := routable_of_searchAmong hrefuses hfactories hnetwork (hgiven a) hamong
    have hraw := hgiven a
    rw [givenAmount_eq] at hraw
    obtain ⟨hvalue, hmax, _⟩ := fromRawAmount_ok hraw
    obtain ⟨m, rfl⟩ := Int.eq_ofNat_of_zero_le hnonneg
    have hbound : (m : ℤ) ≤ MaxUint256 := hmax
    have hunits : rawUnits amount inputToken.decimals = m := by
      rw [← hvalue]
      exact Int.cast_natCast m
    obtain ⟨x, y, hx, hax, hy, hby, rfl, rfl⟩ := instances_ok_iff.mp hinstances
    exact ⟨hbases, m, x, y, factories, network, hunits, by exact_mod_cast hbound, hx, hax, hy, hby,
      hfactories, hnetwork, hroutable⟩
  · intro h
    obtain ⟨n, x, y, factories, network, hraw, hmax, hx, hax, hy, hby, hfactories, hnetwork,
      hroutable⟩ := h.routable
    have hinstances : getInOutPutTokenInstances env chainId inputToken outputToken =
        .ok (instanceOf env chainId x, instanceOf env chainId y) :=
      instances_ok_iff.mpr ⟨x, y, hx, hax, hy, hby, rfl, rfl⟩
    have hgiven : ∀ currency, givenAmount currency amount inputToken.decimals =
        .ok ⟨currency, n⟩ := by
      intro currency
      rw [givenAmount_eq, hraw]
      exact fromRawAmount_natCast currency hmax
    constructor
    · rw [search_eq _ _ _ _ hinstances, getCommonPathTokenInstances_ok h.bases]
      obtain ⟨items, hitems⟩ := searchAmong_ok hfactories hnetwork (hgiven _) hroutable
      refine ⟨items, ?_⟩
      rw [← hitems, candidates, ← getAllCurrencyCombinations_eq]
      rfl
    · refine ⟨n, hgiven, Int.natCast_nonneg n, ?_, ?_⟩
      · rw [hraw, Int.cast_natCast]
      · rw [hraw, Int.cast_natCast]
        exact lt_add_one _

/-! ## The request -/

/-- A request for two tokens of a chain with protocols is answered with what the
search returns, and whatever it throws becomes the error of the missing list. -/
theorem getTokenSwapList_eq {i j : Nat} (hinput : searchById db i = some inputToken)
    (houtput : searchById db j = some outputToken) (hchain : inputToken.network.chain_id = chainId)
    (hsame : outputToken.network.chain_id = chainId)
    (hamm : getProtocolWithService entries chainId = some factories) :
    getTokenSwapList env router node db entries i j amount =
      (search env router node db entries chainId (unwrapped inputToken) (unwrapped outputToken)
        amount).toOption.elim (.error typeError) fun items => .ok (items.length, items) := by
  unfold getTokenSwapList
  rw [hinput, houtput]
  simp only [hchain, hsame, hamm, ne_eq, not_true_eq_false, if_false, Option.isNone_some,
    Bool.false_eq_true]
  cases search env router node db entries chainId (unwrapped inputToken) (unwrapped outputToken)
    amount with
  | ok items => rfl
  | error e => rfl

/-! ## A chain with two pools

The base token of `withX` moved to the searched chain: the pools of it with both
tokens make a trade possible. -/

def pooled : Db := exampleDb [tokenA, tokenB, ⟨{ tokenX.toTokenColumns with network := bsc }, none⟩]
  (by decide)

theorem exampleRouter_refuses : ∀ given out hops, ∃ e, exampleRouter [] given out hops = .error e :=
  fun _ _ _ => ⟨_, rfl⟩

theorem exampleRouter_routes {pairs : List Pair} {given : CurrencyAmount} {out : TokenInstance}
    (h : pairs ≠ []) : Routes exampleRouter pairs given out := by
  intro hops _
  unfold exampleRouter
  rw [if_neg h]
  exact ⟨_, rfl⟩

/-- A search for a whole number of units. -/
theorem thousand_met : Meets exampleEnv exampleRouter exampleNode pooled exampleEntries 56 tokenA
    tokenB thousand := by
  rw [meets_iff_tradable exampleRouter_refuses]
  refine ⟨by decide, 1000, tokenA.toTokenColumns, tokenB.toTokenColumns, exampleEntries, bsc,
    by decide +kernel, by decide, rfl, by decide, rfl, by decide, rfl, rfl, ?_⟩
  have hexist : ∀ factory ∈ exampleEntries, pools exampleEnv (exampleNode bsc) factory
      (candidates (instanceOf exampleEnv 56 tokenA.toTokenColumns)
        (instanceOf exampleEnv 56 tokenB.toTokenColumns)
        (commonPath exampleEnv pooled 56)) ≠ [] := by
    decide
  exact ⟨rfl, by decide, hexist, fun factory hfactory =>
    exampleRouter_routes (hexist factory hfactory)⟩

def half : NumberString := ⟨"0.5", by decide⟩

theorem not_meets_of_throws
    (h : (search env router node db entries chainId inputToken outputToken
      amount).toOption = none) :
    ¬ Meets env router node db entries chainId inputToken outputToken amount := by
  intro hmeets
  obtain ⟨items, hitems⟩ := hmeets.returns
  rw [hitems] at h
  cases h

/-- No search for half a unit returns, nor does one of a token for itself on a
chain without base tokens. The request for the first is answered with the error
of the missing list. -/
theorem half_not_met :
    OnChain pooled 56 tokenA ∧ OnChain pooled 56 tokenB ∧
      onApplicationBootstrap exampleEnv pooled = .ok exampleEntries ∧
      ¬ Meets exampleEnv exampleRouter exampleNode pooled exampleEntries 56 tokenA tokenB half ∧
      getTokenSwapList exampleEnv exampleRouter exampleNode pooled exampleEntries 1 2 half =
        .error typeError ∧
      OnChain withoutX 56 tokenA ∧
      ¬ Meets exampleEnv exampleRouter exampleNode withoutX exampleEntries 56 tokenA tokenA
        thousand := by
  have hA : ∀ db : Db, tokenA ∈ db.tokens → OnChain db 56 tokenA :=
    fun db h => ⟨⟨tokenA, h, rfl⟩, rfl, fun w hw => by cases hw⟩
  have hB : OnChain pooled 56 tokenB := ⟨⟨tokenB, by decide, rfl⟩, rfl, fun w hw => by cases hw⟩
  have hhalf : (search exampleEnv exampleRouter exampleNode pooled exampleEntries 56 tokenA tokenB
      half).toOption = none := by decide +kernel
  have hsame : (search exampleEnv exampleRouter exampleNode withoutX exampleEntries 56 tokenA tokenA
      thousand).toOption = none := by decide +kernel
  refine ⟨hA pooled (by decide), hB, rfl, not_meets_of_throws hhalf, ?_, hA withoutX (by decide),
    not_meets_of_throws hsame⟩
  have hinput : searchById pooled 1 = some tokenA := rfl
  have houtput : searchById pooled 2 = some tokenB := rfl
  have hamm : getProtocolWithService exampleEntries 56 = some exampleEntries := rfl
  rw [getTokenSwapList_eq hinput houtput rfl rfl hamm]
  show Option.elim (search exampleEnv exampleRouter exampleNode pooled exampleEntries 56 tokenA
    tokenB half).toOption _ _ = _
  rw [hhalf]
  rfl

end BlockchainTask.Swap.SwapAmount

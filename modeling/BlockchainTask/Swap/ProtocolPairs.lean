import BlockchainTask.Swap.RoutedPairs

/-! # Whose reserves a pair is given

`getProtocolPairs` asks for the reserves of every combination at every protocol
in one batch and takes the results apart again by their position. Whatever the
batch returns, each protocol is given the pairs of its own part, in the order of
the combinations, and each pair the reserves found at its own address. -/
namespace BlockchainTask.Swap.ProtocolPairs
open BlockchainTask.Common.Exception BlockchainTask.Helper BlockchainTask.Library.Effect
open BlockchainTask.Swap.SwapService BlockchainTask.Swap.RoutedPairs

/-- `pack` writes the bytes of an address, whatever the letter case of its text. -/
def PacksBytes (env : Environment) : Prop :=
  ∀ factory hash a b a' b', sameText a a' → sameText b b' →
    env.getCreate2Address factory (a, b) hash = env.getCreate2Address factory (a', b') hash

section
variable (env : Environment)

/-- The addresses of the batch: those of the first protocol, of the second one,
and so on. -/
def pairAddresses (protocolWithFactories : List ProtocolService)
    (tokens : List (TokenInstance × TokenInstance)) : List String :=
  (protocolWithFactories.map fun factory => tokens.map fun p => pairAddress env factory p).flatten

/-- What is made of the results of the batch. -/
def pairsOfResults (protocolWithFactories : List ProtocolService)
    (tokens : List (TokenInstance × TokenInstance)) (reserveInfoBatchCall : List Result) :
    Except Thrown (List (Protocol × List Pair)) :=
  protocolWithFactories.zipIdx.mapM fun p => do
    let pairs ← pairList tokens (toSplitWithChunkSize reserveInfoBatchCall tokens.length)[p.2]?
    pure (p.1.protocol, pairs)

/-- `getProtocolPairs` for a batch that may return anything for a list of calls. -/
def getProtocolPairsBy (batch : Network → List String → Except Thrown (List Result)) (db : Db)
    (entries : List ProtocolService) (chainId : Nat)
    (tokens : List (TokenInstance × TokenInstance)) :
    Except Thrown (List (Protocol × List Pair)) := do
  let protocolWithFactories ← (getProtocolWithService entries chainId).elim (.error typeError) .ok
  let network ← (networkByChainId db chainId).elim (.error typeError) .ok
  let reserveInfoBatchCall ← batch network (pairAddresses env protocolWithFactories tokens)
  pairsOfResults protocolWithFactories tokens reserveInfoBatchCall

theorem getProtocolPairs_eq_by (node : Network → Node) (db : Db) (entries : List ProtocolService)
    (chainId : Nat) (tokens : List (TokenInstance × TokenInstance)) :
    getProtocolPairs env node db entries chainId tokens =
      getProtocolPairsBy env (fun network => getBatchStaticAggregator (node network)) db entries
        chainId tokens := rfl

end

/-! ## The address of a pair -/

variable {env : Environment}

/-- A pair has one address, in whatever order and letter case its tokens are given. -/
theorem computePairAddress_congr (hpacks : PacksBytes env) (factory hash : String)
    {a b a' b' : String} (h : sameText a a' ∧ sameText b b' ∨ sameText a b' ∧ sameText b a') :
    computePairAddress env factory hash a b = computePairAddress env factory hash a' b' := by
  unfold computePairAddress
  unfold sameText at h
  rcases h with ⟨ha, hb⟩ | ⟨ha, hb⟩
  · rw [ha, hb]
    split
    · exact hpacks factory hash a b a' b' ha hb
    · exact hpacks factory hash b a b' a' hb ha
  · rw [ha, hb]
    by_cases hbefore : toLowerCase b' < toLowerCase a'
    · rw [if_pos hbefore, if_neg (String.lt_asymm hbefore)]
      exact hpacks factory hash a b b' a' ha hb
    · rw [if_neg hbefore]
      split
      · exact hpacks factory hash b a a' b' hb ha
      · -- the addresses are one text up to letter case
        rename_i hafter
        have hsame : toLowerCase a' = toLowerCase b' :=
          String.le_antisymm (String.not_lt.mp hbefore) (String.not_lt.mp hafter)
        exact hpacks factory hash b a b' a' (hb.trans hsame) (ha.trans hsame.symm)

/-! ## The positions -/

variable {factories : List ProtocolService} {tokens : List (TokenInstance × TokenInstance)}

/-- Where in the batch the address of a protocol's combination is. -/
theorem getElem?_pairAddresses {i j : Nat} {factory : ProtocolService}
    {p : TokenInstance × TokenInstance} (hi : factories[i]? = some factory)
    (hj : tokens[j]? = some p) :
    (pairAddresses env factories tokens)[i * tokens.length + j]? =
      some (pairAddress env factory p) := by
  obtain ⟨hlt, _⟩ := List.getElem?_eq_some_iff.mp hj
  have hpieces : toSplitWithChunkSize (pairAddresses env factories tokens) tokens.length =
      factories.map fun factory => tokens.map fun p => pairAddress env factory p := by
    refine toSplitWithChunkSize_flatten (by omega) fun piece hpiece => ?_
    obtain ⟨_, _, rfl⟩ := List.mem_map.mp hpiece
    rw [List.length_map]
  have hpiece : (toSplitWithChunkSize (pairAddresses env factories tokens) tokens.length)[i]? =
      some (tokens.map fun p => pairAddress env factory p) := by
    rw [hpieces, List.getElem?_map, hi]
    rfl
  have hhere : (tokens.map fun p => pairAddress env factory p)[j]? =
      some (pairAddress env factory p) := by
    rw [List.getElem?_map, hj]
    rfl
  rw [getElem?_toSplitWithChunkSize hpiece, List.getElem?_take_of_lt hlt,
    List.getElem?_drop] at hhere
  exact hhere

/-! ## The pairs of one protocol -/

/-- The call succeeded with data. -/
def answered (result : Result) : Bool := result.success && result.returnData != .null

/-- A pair with the tokens of a combination and the reserves of its result. -/
def HoldsReserves (call : (TokenInstance × TokenInstance) × Result) (pair : Pair) : Prop :=
  pair.token0 = call.1.1 ∧ pair.token1 = call.1.2 ∧
    call.2.returnData = .reserves pair.reserve0 pair.reserve1

theorem pairOf_eq_ok {p : TokenInstance × TokenInstance} {result : Result} {found : Option Pair}
    (h : pairOf p result = .ok found) :
    (answered result = false ∧ found = none) ∨
      (answered result = true ∧ ∃ pair, found = some pair ∧ HoldsReserves (p, result) pair) := by
  unfold pairOf at h
  split at h
  · rename_i hanswered
    split at h
    · rename_i reserve0 reserve1 hdata
      cases h
      exact Or.inr ⟨hanswered, _, rfl, rfl, rfl, hdata⟩
    · cases h
  · rename_i hanswered
    cases h
    exact Or.inl ⟨Bool.not_eq_true _ ▸ hanswered, rfl⟩

theorem forall₂_pairs {calls : List ((TokenInstance × TokenInstance) × Result)}
    {found : List (Option Pair)}
    (h : List.Forall₂ (fun call pair => pairOf call.1 call.2 = .ok pair) calls found) :
    List.Forall₂ HoldsReserves (calls.filter fun call => answered call.2)
      (found.filterMap id) := by
  induction h with
  | nil => exact .nil
  | @cons call pair calls found hcall _ ih =>
    rcases pairOf_eq_ok hcall with ⟨hnot, rfl⟩ | ⟨hanswered, pair, rfl, hholds⟩
    · rw [List.filter_cons_of_neg (by simp [hnot])]
      exact ih
    · rw [List.filter_cons_of_pos (by simp [hanswered])]
      exact .cons hholds ih

/-- The results that are a protocol's, by its position. -/
def resultsOf (tokens : List (TokenInstance × TokenInstance)) (results : List Result) (i : Nat) :
    List Result := (results.drop (i * tokens.length)).take tokens.length

theorem pairList_eq_ok {results : List Result} {i : Nat} {pairs : List Pair}
    (h : pairList tokens (toSplitWithChunkSize results tokens.length)[i]? = .ok pairs) :
    List.Forall₂ HoldsReserves
      ((tokens.zip (resultsOf tokens results i)).filter fun call => answered call.2) pairs := by
  cases hpiece : (toSplitWithChunkSize results tokens.length)[i]? with
  | none =>
    rw [hpiece] at h
    cases h
  | some piece =>
    rw [hpiece] at h
    obtain ⟨found, hfound, hpairs⟩ := Eff.except_bind_eq_ok.mp h
    cases hpairs
    rw [resultsOf, ← getElem?_toSplitWithChunkSize hpiece]
    exact forall₂_pairs (Eff.forall₂_of_mapM hfound)

/-! ## The pairs of every protocol -/

theorem pairsOfResults_eq_ok {results : List Result} {found : List (Protocol × List Pair)}
    (h : pairsOfResults factories tokens results = .ok found) :
    found.map Prod.fst = factories.map ProtocolService.protocol ∧
    ∀ i protocol pairs, found[i]? = some (protocol, pairs) →
      List.Forall₂ HoldsReserves
        ((tokens.zip (resultsOf tokens results i)).filter fun call => answered call.2) pairs := by
  have hrows := Eff.forall₂_of_mapM h
  have heach : List.Forall₂ (fun (p : ProtocolService × Nat) (row : Protocol × List Pair) =>
      row.1 = p.1.protocol ∧ List.Forall₂ HoldsReserves
        ((tokens.zip (resultsOf tokens results p.2)).filter fun call => answered call.2) row.2)
      factories.zipIdx found := by
    refine hrows.imp fun p row hrow => ?_
    obtain ⟨pairs, hpairs, hrow⟩ := Eff.except_bind_eq_ok.mp hrow
    cases hrow
    exact ⟨rfl, pairList_eq_ok hpairs⟩
  obtain ⟨hlength, hget⟩ := List.forall₂_iff_get.mp heach
  rw [List.length_zipIdx] at hlength
  refine ⟨?_, fun i protocol pairs hi => ?_⟩
  · refine List.ext_getElem (by simp [hlength]) fun i h1 h2 => ?_
    rw [List.length_map] at h1 h2
    have hrow := (hget i (by rw [List.length_zipIdx]; exact h2) h1).1
    simpa using hrow
  · obtain ⟨hlt, hrow⟩ := List.getElem?_eq_some_iff.mp hi
    have hpairs := (hget i (by rw [List.length_zipIdx]; omega) hlt).2
    rw [List.get_eq_getElem, List.get_eq_getElem, hrow, List.getElem_zipIdx, Nat.zero_add] at hpairs
    exact hpairs

/-- For every batch, whenever `getProtocolPairs` returns: its entries are the
protocols of the chain, in order; the result with the number `i * n + j` answers
the call at the address of the `j`-th of `n` combinations at the `i`-th protocol;
and an entry has one pair for each of its protocol's calls that succeeded with
data, in order, with the reserves on their tokens. The address does not depend on
the order or the letter case of the tokens' addresses. -/
theorem protocolPairs_aligned {db : Db} {entries : List ProtocolService} {chainId : Nat}
    {batch : Network → List String → Except Thrown (List Result)}
    {found : List (Protocol × List Pair)} (hpacks : PacksBytes env)
    (h : getProtocolPairsBy env batch db entries chainId tokens = .ok found) :
    (∃ factories network results,
      getProtocolWithService entries chainId = some factories ∧
      networkByChainId db chainId = some network ∧
      batch network (pairAddresses env factories tokens) = .ok results ∧
      found.map Prod.fst = factories.map ProtocolService.protocol ∧
      (∀ i j factory p, factories[i]? = some factory → tokens[j]? = some p →
        (pairAddresses env factories tokens)[i * tokens.length + j]? =
          some (computePairAddress env factory.ammFactoryAddress factory.ammFactoryInitCodeHash
            p.1.address p.2.address)) ∧
      (∀ i j, j < tokens.length →
        (resultsOf tokens results i)[j]? = results[i * tokens.length + j]?) ∧
      ∀ i protocol pairs, found[i]? = some (protocol, pairs) →
        List.Forall₂ HoldsReserves
          ((tokens.zip (resultsOf tokens results i)).filter fun call => answered call.2) pairs) ∧
    ∀ factory hash a b a' b', sameText a a' ∧ sameText b b' ∨ sameText a b' ∧ sameText b a' →
      computePairAddress env factory hash a b = computePairAddress env factory hash a' b' := by
  refine ⟨?positions, fun factory hash a b a' b' hsame =>
    computePairAddress_congr hpacks factory hash hsame⟩
  case positions =>
    obtain ⟨factories, hfactories, h⟩ := Eff.except_bind_eq_ok.mp h
    obtain ⟨network, hnetwork, h⟩ := Eff.except_bind_eq_ok.mp h
    obtain ⟨results, hresults, h⟩ := Eff.except_bind_eq_ok.mp h
    obtain ⟨hprotocols, hpairs⟩ := pairsOfResults_eq_ok h
    refine ⟨factories, network, results, Eff.eq_some_of_elim hfactories,
      Eff.eq_some_of_elim hnetwork, hresults, hprotocols, ?_, ?_, hpairs⟩
    · exact fun i j factory p hi hj => getElem?_pairAddresses hi hj
    · intro i j hj
      rw [resultsOf, List.getElem?_take_of_lt hj, List.getElem?_drop]

/-! ## Three tokens at two protocols -/

def cake : String := "0x0E09FaBB73Bd3Ade0a17ECC321fD13a19e81cE82"
def wbnb : String := "0xbb4CdB9CBd36B01bD1cBaEBF2De08d9173bc095c"
def busd : String := "0xe9e7CEA3DedcA5984780Bafc599bD69ADd087D56"

def pancakeSwapFactory : String := "0xcA143Ce32Fe78f1f7019d7d551a6402fC5350c73"
def biSwapFactory : String := "0x858E3312ed3A876947EA49d572A7C42DE08af7EE"

def pancakeSwapInitCodeHash : String :=
  "0x00fb7f630766e6a796048ea87d01acd3068e8ff67d078148a3fa3f4a84f69bd5"

def biSwapInitCodeHash : String :=
  "0xfea293c909d87cd4153593f077b76bb7e94340200f4ee84211ae8e4f9bd7ffdf"

/-- The pools, with the addresses that they are created at. -/
def createdPools : List ((String × String × String) × String) :=
  [((pancakeSwapFactory, cake, wbnb), "0x0eD7e52944161450477ee417DE9Cd3a859b14fD0"),
    ((pancakeSwapFactory, cake, busd), "0x804678fa97d91B974ec2af3c843270886528a9E6"),
    ((biSwapFactory, cake, wbnb), "0x3d94d03eb9ea2D4726886aB8Ac9fc0F18355Fd13"),
    ((biSwapFactory, cake, busd), "0x829328ec4091E6A50475917371c7427A2167E8C9")]

/-- `getAddress` and the address of a pool, for these addresses in any letter case. -/
def threeTokens : Environment where
  getAddress text := [cake, wbnb, busd, pancakeSwapFactory, biSwapFactory].find? fun address =>
    toLowerCase address = toLowerCase text
  isBytesLike _ := true
  getCreate2Address factory tokens _ :=
    ((createdPools.find? fun pool => pool.1.1 = factory ∧
      toLowerCase pool.1.2.1 = toLowerCase tokens.1 ∧
        toLowerCase pool.1.2.2 = toLowerCase tokens.2).map Prod.snd).getD ""
  services := []

def chain : Network := ⟨1, 56, "0x0000000000000000000000000000000000000301", true⟩

def firstProtocol : Protocol := ⟨1, "PancakeSwap", chain, true, true⟩

def secondProtocol : Protocol := ⟨2, "BiSwap", chain, true, true⟩

def twoProtocols : List ProtocolService :=
  [⟨firstProtocol, 56, pancakeSwapFactory, pancakeSwapInitCodeHash⟩,
    ⟨secondProtocol, 56, biSwapFactory, biSwapInitCodeHash⟩]

def twoProtocolsDb : Db where
  networks := [chain]
  tokens := []
  protocols := [firstProtocol, secondProtocol]
  network_id := by decide
  protocol_id := by decide
  token_network := by decide
  protocol_network := by decide

def tokenOf (address : String) : TokenInstance := ⟨56, address, 18, "T", "Token"⟩

def twoCombinations : List (TokenInstance × TokenInstance) :=
  [(tokenOf cake, tokenOf wbnb), (tokenOf cake, tokenOf busd)]

/-- Of four calls the second one and the third one found reserves. -/
def twoFound (_ : Network) (_ : List String) : Except Thrown (List Result) :=
  .ok [⟨false, .null⟩, ⟨true, .reserves 3 4⟩, ⟨true, .reserves 5 6⟩, ⟨true, .null⟩]

/-- A pair at each protocol, though the pools that exist are not the same. -/
def foundPairs : List (Protocol × List Pair) :=
  [(firstProtocol, [⟨tokenOf cake, tokenOf busd, 3, 4⟩]),
    (secondProtocol, [⟨tokenOf cake, tokenOf wbnb, 5, 6⟩])]

theorem threeTokens_packs : PacksBytes threeTokens := by
  intro factory hash a b a' b' ha hb
  unfold sameText at ha hb
  simp only [threeTokens, ha, hb]

theorem two_protocols_aligned :
    getProtocolPairsBy threeTokens twoFound twoProtocolsDb twoProtocols 56 twoCombinations =
        .ok foundPairs ∧
      (∃ factories network results,
        getProtocolWithService twoProtocols 56 = some factories ∧
        twoFound network (pairAddresses threeTokens factories twoCombinations) = .ok results ∧
        foundPairs.map Prod.fst = factories.map ProtocolService.protocol ∧
        (pairAddresses threeTokens factories twoCombinations)[1 * 2 + 0]? =
          some "0x3d94d03eb9ea2D4726886aB8Ac9fc0F18355Fd13" ∧
        ∀ i protocol pairs, foundPairs[i]? = some (protocol, pairs) →
          List.Forall₂ HoldsReserves
            ((twoCombinations.zip (resultsOf twoCombinations results i)).filter
              fun call => answered call.2) pairs) ∧
      computePairAddress threeTokens pancakeSwapFactory pancakeSwapInitCodeHash cake wbnb =
        computePairAddress threeTokens pancakeSwapFactory pancakeSwapInitCodeHash
          (toLowerCase wbnb) (toLowerCase cake) := by
  have hreturns : getProtocolPairsBy threeTokens twoFound twoProtocolsDb twoProtocols 56
      twoCombinations = .ok foundPairs := rfl
  obtain ⟨⟨factories, network, results, hfactories, _, hresults, hprotocols, haddresses, _,
    hpairs⟩, hsame⟩ := protocolPairs_aligned threeTokens_packs hreturns
  obtain rfl : twoProtocols = factories := Option.some.inj hfactories
  refine ⟨hreturns, ⟨_, network, results, hfactories, hresults, hprotocols, ?_, hpairs⟩,
    hsame _ _ _ _ _ _ (Or.inr (by decide +kernel))⟩
  exact (haddresses 1 0 _ _ rfl rfl).trans (by decide +kernel)

end BlockchainTask.Swap.ProtocolPairs

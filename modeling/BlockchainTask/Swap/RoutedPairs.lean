import Mathlib.Data.Sym.Sym2
import BlockchainTask.Library.Effect
import BlockchainTask.Swap.SwapService

/-! # The pairs a search looks for

`getAllCurrencyCombinations` in closed form: the two tokens, each of them with
every other base, and the other bases with each other. Of the bases only the
other ones count, each address once, and from the combinations they can be read
back, in their order. -/
namespace BlockchainTask.Swap.RoutedPairs
open BlockchainTask.Common.Exception BlockchainTask.Helper BlockchainTask.Library.Effect
open BlockchainTask.Library.Distinct BlockchainTask.Swap.SwapService

/-- What `equals` compares. -/
def identity (t : TokenInstance) : Nat × String := (t.chainId, t.address)

def pairIdentity (p : TokenInstance × TokenInstance) : Sym2 (Nat × String) :=
  s(identity p.1, identity p.2)

theorem equals_iff {a b : TokenInstance} : a.equals b = true ↔ identity a = identity b := by
  rw [TokenInstance.equals, Bool.and_eq_true, beq_iff_eq, beq_iff_eq, identity, identity,
    Prod.mk.injEq]

theorem samePair_iff (p q : TokenInstance × TokenInstance) :
    samePair p q = true ↔ pairIdentity p = pairIdentity q := by
  rw [samePair, Bool.or_eq_true, Bool.and_eq_true, Bool.and_eq_true, equals_iff, equals_iff,
    equals_iff, equals_iff, pairIdentity, pairIdentity, Sym2.eq_iff]

/-- Two tokens that differ. -/
def distinctTokens (p : TokenInstance × TokenInstance) : Bool := !p.1.equals p.2

theorem distinctTokens_iff {p : TokenInstance × TokenInstance} :
    distinctTokens p = true ↔ identity p.1 ≠ identity p.2 := by
  rw [distinctTokens, Bool.not_eq_true', ← Bool.not_eq_true, equals_iff]

theorem distinctTokens_congr (p q : TokenInstance × TokenInstance)
    (h : pairIdentity p = pairIdentity q) : distinctTokens p = distinctTokens q := by
  rw [Bool.eq_iff_iff, distinctTokens_iff, distinctTokens_iff]
  rw [pairIdentity, pairIdentity, Sym2.eq_iff] at h
  rcases h with ⟨h1, h2⟩ | ⟨h1, h2⟩
  · rw [h1, h2]
  · rw [h1, h2, ne_comm]

section
variable (a b : TokenInstance)

/-- A token that is none of the two traded ones. -/
def isOther (t : TokenInstance) : Bool := !t.equals a && !t.equals b

/-- The bases that count: each address once, without the traded tokens. -/
def otherBases (bases : List TokenInstance) : List TokenInstance :=
  (distinctOn identity bases).filter (isOther a b)

/-- The combinations before they are sorted. -/
def combinations (others : List TokenInstance) : List (TokenInstance × TokenInstance) :=
  [(a, b)].filter distinctTokens ++ others.map (fun t => (a, t)) ++
    (if identity a = identity b then [] else others.map fun t => (b, t)) ++
    (distinctOn pairIdentity (others ×ˢ others)).filter distinctTokens

end

theorem isOther_iff {a b t : TokenInstance} :
    isOther a b t = true ↔ identity t ≠ identity a ∧ identity t ≠ identity b := by
  rw [isOther, Bool.and_eq_true, Bool.not_eq_true', Bool.not_eq_true', ← Bool.not_eq_true,
    ← Bool.not_eq_true, equals_iff, equals_iff]

theorem isOther_congr {a b : TokenInstance} (t u : TokenInstance) (h : identity t = identity u) :
    isOther a b t = isOther a b u := by
  rw [Bool.eq_iff_iff, isOther_iff, isOther_iff, h]

/-! ## The closed form -/

variable {a b : TokenInstance}

/-- The identities of a token with every base that differs from it. -/
theorem mem_row {bases : List TokenInstance} {c : TokenInstance} {k : Sym2 (Nat × String)} :
    k ∈ ((bases.map fun t => (c, t)).filter distinctTokens).map pairIdentity ↔
      ∃ t ∈ bases, identity c ≠ identity t ∧ s(identity c, identity t) = k := by
  simp only [List.mem_map, List.mem_filter, distinctTokens_iff]
  constructor
  · intro h
    obtain ⟨_, ⟨⟨t, ht, rfl⟩, hne⟩, hk⟩ := h
    exact ⟨t, ht, hne, hk⟩
  · intro h
    obtain ⟨t, ht, hne, hk⟩ := h
    exact ⟨(c, t), ⟨⟨t, ht, rfl⟩, hne⟩, hk⟩

theorem mem_direct {k : Sym2 (Nat × String)} :
    k ∈ ([(a, b)].filter distinctTokens).map pairIdentity ↔
      identity a ≠ identity b ∧ s(identity a, identity b) = k := by
  have h := @mem_row [b] a k
  simpa using h

/-- Of the pairs of the first token, those that are new are with the other bases. -/
theorem first_row (bases : List TokenInstance) :
    ((bases.map fun t => (a, t)).filter distinctTokens).filter (fun p =>
      pairIdentity p ∉ ([(a, b)].filter distinctTokens).map pairIdentity) =
        (bases.filter (isOther a b)).map fun t => (a, t) := by
  rw [List.filter_filter, List.filter_map]
  congr 1
  refine List.filter_congr fun t _ => ?_
  rw [Bool.eq_iff_iff, Function.comp_apply, Bool.and_eq_true, decide_eq_true_eq, mem_direct,
    distinctTokens_iff, isOther_iff, pairIdentity, Sym2.congr_right]
  show ¬(identity a ≠ identity b ∧ identity b = identity t) ∧ identity a ≠ identity t ↔ _
  constructor
  · intro h
    refine ⟨fun hta => h.2 hta.symm, fun htb => h.1 ⟨fun hab => h.2 ?_, htb.symm⟩⟩
    rw [hab, htb]
  · intro h
    exact ⟨fun hab => h.2 hab.2.symm, fun hat => h.1 hat.symm⟩

/-- Those of the second token too, unless it is the first one. -/
theorem second_row (bases : List TokenInstance) :
    ((bases.map fun t => (b, t)).filter distinctTokens).filter (fun p =>
      pairIdentity p ∉ ([(a, b)].filter distinctTokens ++
        (bases.map fun t => (a, t)).filter distinctTokens).map pairIdentity) =
        if identity a = identity b then []
        else (bases.filter (isOther a b)).map fun t => (b, t) := by
  rw [List.filter_filter, List.filter_map]
  by_cases hab : identity a = identity b
  · rw [if_pos hab, List.map_eq_nil_iff, List.filter_eq_nil_iff]
    intro t ht
    rw [Function.comp_apply, Bool.and_eq_true, decide_eq_true_eq, distinctTokens_iff,
      List.map_append, List.mem_append, mem_row]
    intro h
    refine h.1 (Or.inr ⟨t, ht, ?_, ?_⟩)
    · rw [hab]
      exact h.2
    · rw [pairIdentity, hab]
  · rw [if_neg hab]
    congr 1
    refine List.filter_congr fun t ht => ?_
    rw [Bool.eq_iff_iff, Function.comp_apply, Bool.and_eq_true, decide_eq_true_eq,
      distinctTokens_iff, isOther_iff, List.map_append, List.mem_append, mem_row, mem_direct,
      pairIdentity]
    constructor
    · intro h
      refine ⟨fun hta => h.1 (Or.inl ⟨hab, ?_⟩), fun htb => h.2 htb.symm⟩
      rw [hta]
      exact Sym2.eq_swap
    · intro h
      refine ⟨fun hmem => ?_, fun hbt => h.2 hbt.symm⟩
      rcases hmem with ⟨_, hk⟩ | ⟨u, _, _, hk⟩
      · rcases Sym2.eq_iff.mp hk with ⟨h1, _⟩ | ⟨h1, _⟩
        · exact hab h1
        · exact h.1 h1.symm
      · rcases Sym2.eq_iff.mp hk with ⟨h1, _⟩ | ⟨h1, _⟩
        · exact hab h1
        · exact h.1 h1.symm

/-- The pairs of bases that are new are those of other bases. -/
theorem base_pairs (bases : List TokenInstance) :
    ((bases ×ˢ bases).filter distinctTokens).filter (fun p =>
      pairIdentity p ∉ ([(a, b)].filter distinctTokens ++
        (bases.map fun t => (a, t)).filter distinctTokens ++
        (bases.map fun t => (b, t)).filter distinctTokens).map pairIdentity) =
        (bases.filter (isOther a b) ×ˢ bases.filter (isOther a b)).filter distinctTokens := by
  rw [← filter_product, List.filter_filter, List.filter_filter]
  refine List.filter_congr fun p hp => ?_
  obtain ⟨h1, h2⟩ := List.mem_product.mp hp
  rw [Bool.eq_iff_iff, Bool.and_eq_true, Bool.and_eq_true, Bool.and_eq_true, decide_eq_true_eq,
    distinctTokens_iff, isOther_iff, isOther_iff, List.map_append, List.map_append,
    List.mem_append, List.mem_append, mem_row, mem_row, mem_direct]
  constructor
  · intro h
    obtain ⟨hnew, hne⟩ := h
    refine ⟨hne, ⟨fun ha => hnew ?_, fun hb => hnew ?_⟩, fun ha => hnew ?_, fun hb => hnew ?_⟩
    · exact Or.inl (Or.inr ⟨p.2, h2, ha ▸ hne, by rw [pairIdentity, ha]⟩)
    · exact Or.inr ⟨p.2, h2, hb ▸ hne, by rw [pairIdentity, hb]⟩
    · exact Or.inl (Or.inr ⟨p.1, h1, ha ▸ hne.symm, by rw [pairIdentity, ha, Sym2.eq_swap]⟩)
    · exact Or.inr ⟨p.1, h1, hb ▸ hne.symm, by rw [pairIdentity, hb, Sym2.eq_swap]⟩
  · intro h
    obtain ⟨hne, ⟨h1a, h1b⟩, h2a, h2b⟩ := h
    refine ⟨fun hmem => ?_, hne⟩
    rcases hmem with (⟨_, hk⟩ | ⟨t, _, _, hk⟩) | ⟨t, _, _, hk⟩ <;>
      rcases Sym2.eq_iff.mp hk with ⟨hl, hr⟩ | ⟨hl, hr⟩
    · exact h1a hl.symm
    · exact h2a hl.symm
    · exact h1a hl.symm
    · exact h2a hl.symm
    · exact h1b hl.symm
    · exact h2b hl.symm

theorem getAllCurrencyCombinations_eq (bases : List TokenInstance) :
    getAllCurrencyCombinations a b bases =
      (combinations a b (otherBases a b bases)).map sorted := by
  have hothers : otherBases a b bases = distinctOn identity (bases.filter (isOther a b)) :=
    (distinctOn_filter isOther_congr bases).symm
  have hbasePairs : (bases.flatMap fun base => bases.map fun otherBase => (base, otherBase)) =
      bases ×ˢ bases := rfl
  have htwice : ∀ ps : List (TokenInstance × TokenInstance),
      (ps.filter distinctTokens).filter distinctTokens = ps.filter distinctTokens := by
    intro ps
    rw [List.filter_filter]
    simp only [Bool.and_self]
  show (filterFirstIndex samePair (List.filter distinctTokens
    ([(a, b)] ++ bases.map (fun base => (a, base)) ++ bases.map (fun base => (b, base)) ++
      List.filter distinctTokens
        (bases.flatMap fun base => bases.map fun otherBase => (base, otherBase))))).map sorted = _
  rw [filterFirstIndex_eq samePair_iff, List.filter_append, List.filter_append,
    List.filter_append, htwice, hbasePairs, distinctOn_append, distinctOn_append,
    distinctOn_append, first_row, second_row, base_pairs]
  have hdirect : distinctOn pairIdentity ([(a, b)].filter distinctTokens) =
      [(a, b)].filter distinctTokens := by
    cases hab : distinctTokens (a, b) <;> simp [hab, distinctOn_cons, distinctOn_nil]
  have hrow : ∀ c : TokenInstance, distinctOn pairIdentity
      ((bases.filter (isOther a b)).map fun t => (c, t)) =
        (otherBases a b bases).map fun t => (c, t) := by
    intro c
    rw [hothers]
    have hinjective : ∀ t u : TokenInstance,
        pairIdentity (c, t) = pairIdentity (c, u) ↔ identity t = identity u :=
      fun t u => Sym2.congr_right
    exact distinctOn_map (fun t => (c, t)) hinjective _
  have hproduct : distinctOn pairIdentity
      (bases.filter (isOther a b) ×ˢ bases.filter (isOther a b)) =
        distinctOn pairIdentity (otherBases a b bases ×ˢ otherBases a b bases) := by
    have hfiner : ∀ p q : TokenInstance × TokenInstance,
        (identity p.1, identity p.2) = (identity q.1, identity q.2) →
          pairIdentity p = pairIdentity q := by
      intro p q h
      rw [pairIdentity, pairIdentity, (Prod.mk.inj h).1, (Prod.mk.inj h).2]
    rw [hothers, ← distinctOn_product, distinctOn_distinctOn hfiner]
  have hsecond : distinctOn pairIdentity (if identity a = identity b then []
      else (bases.filter (isOther a b)).map fun t => (b, t)) =
        if identity a = identity b then [] else (otherBases a b bases).map fun t => (b, t) := by
    by_cases hab : identity a = identity b
    · rw [if_pos hab, if_pos hab, distinctOn_nil]
    · rw [if_neg hab, if_neg hab, hrow b]
  rw [hdirect, hrow a, hsecond, distinctOn_filter distinctTokens_congr, hproduct]
  rfl

/-! ## Reading the bases back -/

/-- The other base that a pair holds with the first traded token. -/
def partner (a b : TokenInstance) (p : TokenInstance × TokenInstance) : Option TokenInstance :=
  if identity p.1 = identity a then (if isOther a b p.2 then some p.2 else none)
  else if identity p.2 = identity a then (if isOther a b p.1 then some p.1 else none)
  else none

theorem partner_sorted {p : TokenInstance × TokenInstance} (h : identity p.1 ≠ identity p.2) :
    partner a b (sorted p) = partner a b p := by
  unfold sorted
  by_cases hsorted : p.1.sortsBefore p.2 = true
  · rw [if_pos hsorted]
  · rw [if_neg hsorted, partner, partner]
    by_cases h1 : identity p.1 = identity a
    · rw [if_pos h1, if_neg fun h2 => h (h1.trans h2.symm), if_pos h1]
    · rw [if_neg h1]
      by_cases h2 : identity p.2 = identity a
      · rw [if_pos h2, if_neg h1]
      · rw [if_neg h2, if_neg h1]

/-- Of a list of pairs of tokens that differ, the partners are those before sorting. -/
theorem filterMap_partner_sorted {ps : List (TokenInstance × TokenInstance)}
    (h : ∀ p ∈ ps, identity p.1 ≠ identity p.2) :
    (ps.map sorted).filterMap (partner a b) = ps.filterMap (partner a b) := by
  rw [List.filterMap_map]
  refine List.filterMap_congr fun p hp => ?_
  rw [Function.comp_apply, partner_sorted (h p hp)]

theorem distinct_of_mem_combinations {others : List TokenInstance}
    (h : ∀ t ∈ others, isOther a b t = true) {p : TokenInstance × TokenInstance}
    (hp : p ∈ combinations a b others) : identity p.1 ≠ identity p.2 := by
  simp only [combinations, List.mem_append, List.mem_filter] at hp
  rcases hp with ((⟨_, hne⟩ | hp) | hp) | ⟨_, hne⟩
  · exact distinctTokens_iff.mp hne
  · obtain ⟨t, ht, rfl⟩ := List.mem_map.mp hp
    exact (isOther_iff.mp (h t ht)).1.symm
  · split at hp
    · cases hp
    · obtain ⟨t, ht, rfl⟩ := List.mem_map.mp hp
      exact (isOther_iff.mp (h t ht)).2.symm
  · exact distinctTokens_iff.mp hne

theorem filterMap_partner_combinations {others : List TokenInstance}
    (h : ∀ t ∈ others, isOther a b t = true) :
    (combinations a b others).filterMap (partner a b) = others := by
  have hdirect : ([(a, b)].filter distinctTokens).filterMap (partner a b) = [] := by
    rw [List.filterMap_eq_nil_iff]
    intro p hp
    rw [List.mem_singleton.mp (List.mem_filter.mp hp).1, partner, if_pos rfl, if_neg]
    intro hb
    exact (isOther_iff.mp hb).2 rfl
  have hfirst : (others.map fun t => (a, t)).filterMap (partner a b) = others := by
    rw [List.filterMap_map]
    refine (List.filterMap_congr fun t ht => ?_).trans (List.filterMap_some)
    rw [Function.comp_apply, partner, if_pos rfl, if_pos (h t ht)]
  have hsecond : (if identity a = identity b then []
      else others.map fun t => (b, t)).filterMap (partner a b) = [] := by
    rw [List.filterMap_eq_nil_iff]
    intro p hp
    by_cases hab : identity a = identity b
    · rw [if_pos hab] at hp
      cases hp
    · rw [if_neg hab] at hp
      obtain ⟨t, ht, rfl⟩ := List.mem_map.mp hp
      rw [partner, if_neg fun hba => hab hba.symm, if_neg (isOther_iff.mp (h t ht)).1]
  have hbases : ((distinctOn pairIdentity (others ×ˢ others)).filter distinctTokens).filterMap
      (partner a b) = [] := by
    rw [List.filterMap_eq_nil_iff]
    intro p hp
    obtain ⟨h1, h2⟩ :=
      List.mem_product.mp (mem_of_mem_distinctOn (List.mem_filter.mp hp).1)
    rw [partner, if_neg (isOther_iff.mp (h _ h1)).1, if_neg (isOther_iff.mp (h _ h2)).1]
  simp only [combinations, List.filterMap_append, hdirect, hfirst, hsecond, hbases,
    List.nil_append, List.append_nil]

theorem isOther_of_mem {bases : List TokenInstance} {t : TokenInstance}
    (h : t ∈ otherBases a b bases) : isOther a b t = true := (List.mem_filter.mp h).2

/-- Two lists of bases give the same pairs exactly when the same bases count. -/
theorem getAllCurrencyCombinations_inj {bases bases' : List TokenInstance} :
    getAllCurrencyCombinations a b bases = getAllCurrencyCombinations a b bases' ↔
      otherBases a b bases = otherBases a b bases' := by
  have hread : ∀ us : List TokenInstance,
      (getAllCurrencyCombinations a b us).filterMap (partner a b) = otherBases a b us := by
    intro us
    rw [getAllCurrencyCombinations_eq, filterMap_partner_sorted fun p hp =>
      distinct_of_mem_combinations (fun t => isOther_of_mem) hp]
    exact filterMap_partner_combinations fun t => isOther_of_mem
  constructor
  · intro h
    rw [← hread bases, ← hread bases', h]
  · intro h
    rw [getAllCurrencyCombinations_eq, getAllCurrencyCombinations_eq, h]

/-- The tokens of the pairs are the traded ones and the bases that count. -/
theorem mem_of_mem_combinations {bases : List TokenInstance} {p : TokenInstance × TokenInstance}
    (hp : p ∈ getAllCurrencyCombinations a b bases) {t : TokenInstance}
    (ht : t = p.1 ∨ t = p.2) : t = a ∨ t = b ∨ t ∈ otherBases a b bases := by
  rw [getAllCurrencyCombinations_eq] at hp
  obtain ⟨q, hq, rfl⟩ := List.mem_map.mp hp
  have ht : t = q.1 ∨ t = q.2 := by
    unfold sorted at ht
    split at ht
    · exact ht
    · exact ht.symm
  simp only [combinations, List.mem_append, List.mem_filter] at hq
  rcases hq with ((⟨hq, _⟩ | hq) | hq) | ⟨hq, _⟩
  · rw [List.mem_singleton.mp hq] at ht
    rcases ht with rfl | rfl
    · exact Or.inl rfl
    · exact Or.inr (Or.inl rfl)
  · obtain ⟨u, hu, rfl⟩ := List.mem_map.mp hq
    rcases ht with rfl | rfl
    · exact Or.inl rfl
    · exact Or.inr (Or.inr hu)
  · split at hq
    · cases hq
    · obtain ⟨u, hu, rfl⟩ := List.mem_map.mp hq
      rcases ht with rfl | rfl
      · exact Or.inr (Or.inl rfl)
      · exact Or.inr (Or.inr hu)
  · obtain ⟨h1, h2⟩ := List.mem_product.mp (mem_of_mem_distinctOn hq)
    rcases ht with rfl | rfl
    · exact Or.inr (Or.inr h1)
    · exact Or.inr (Or.inr h2)

/-- Every base that counts is in a pair with the first token. -/
theorem exists_pair_of_mem {bases : List TokenInstance} {t : TokenInstance}
    (ht : t ∈ otherBases a b bases) :
    ∃ p ∈ getAllCurrencyCombinations a b bases, t = p.1 ∨ t = p.2 := by
  rw [getAllCurrencyCombinations_eq]
  refine ⟨sorted (a, t), List.mem_map.mpr ⟨(a, t), ?_, rfl⟩, ?_⟩
  · simp only [combinations, List.mem_append]
    exact Or.inl (Or.inl (Or.inr (List.mem_map.mpr ⟨t, ht, rfl⟩)))
  · unfold sorted
    split
    · exact Or.inr rfl
    · exact Or.inl rfl

/-! ## The part of a batch that is a protocol's -/

def pairAddress (env : Environment) (factory : ProtocolService)
    (p : TokenInstance × TokenInstance) : String :=
  computePairAddress env factory.ammFactoryAddress factory.ammFactoryInitCodeHash
    p.1.address p.2.address

/-- The pairs of one protocol, from the node's answers for its pair addresses. -/
def protocolPairs (env : Environment) (node : Node) (tokens : List (TokenInstance × TokenInstance))
    (factory : ProtocolService) : Except Thrown (Protocol × List Pair) := do
  let pairs ← pairList tokens (some (tokens.map fun p => node.answer (pairAddress env factory p)))
  pure (factory.protocol, pairs)

theorem zip_map_right_self {α β : Type} (f : α → β) (xs : List α) :
    xs.zip (xs.map f) = xs.map fun x => (x, f x) := by
  have hsame : (xs.map id).zip (xs.map f) = xs.map fun x => (id x, f x) := List.zip_map'
  rw [List.map_id] at hsame
  exact hsame

/-- Where every answer decodes, a protocol has the pairs that exist. -/
theorem pairList_eq {tokens : List (TokenInstance × TokenInstance)}
    {answer : TokenInstance × TokenInstance → Result}
    {pair : TokenInstance × TokenInstance → Option Pair}
    (h : ∀ p ∈ tokens, pairOf p (answer p) = .ok (pair p)) :
    pairList tokens (some (tokens.map answer)) = .ok (tokens.filterMap pair) := by
  have hpairs : (tokens.zip (tokens.map answer)).mapM (fun p => pairOf p.1 p.2) =
      .ok (tokens.map pair) := by
    rw [zip_map_right_self, List.mapM_map]
    exact Eff.except_mapM_of_ok h
  show ((tokens.zip (tokens.map answer)).mapM (fun p => pairOf p.1 p.2) >>= fun pairs =>
    pure (pairs.filterMap id)) = _
  rw [hpairs]
  show Except.ok ((tokens.map pair).filterMap id) = _
  rw [List.filterMap_map]
  rfl

/-- A batch that is answered gives every protocol the reserves of its own pairs. -/
theorem getProtocolPairs_eq {env : Environment} {node : Network → Node} {db : Db}
    {entries factories : List ProtocolService} {chainId : Nat} {network : Network}
    {tokens : List (TokenInstance × TokenInstance)}
    (hfactories : getProtocolWithService entries chainId = some factories)
    (hnetwork : networkByChainId db chainId = some network)
    (hanswered : (node network).fault = none) (hne : tokens ≠ []) :
    getProtocolPairs env node db entries chainId tokens =
      factories.mapM (protocolPairs env (node network) tokens) := by
  have hsplit : toSplitWithChunkSize ((factories.map fun factory =>
      tokens.map fun p => pairAddress env factory p).flatten.map (node network).answer)
        tokens.length =
      factories.map fun factory =>
        tokens.map fun p => (node network).answer (pairAddress env factory p) := by
    rw [List.map_flatten, List.map_map]
    have hpieces : (factories.map ((List.map (node network).answer) ∘ fun factory =>
        tokens.map fun p => pairAddress env factory p)) = factories.map fun factory =>
          tokens.map fun p => (node network).answer (pairAddress env factory p) := by
      refine List.map_congr_left fun factory _ => ?_
      rw [Function.comp_apply, List.map_map]
      rfl
    rw [hpieces]
    refine toSplitWithChunkSize_flatten (List.length_pos_iff.mpr hne) fun piece hpiece => ?_
    obtain ⟨factory, _, rfl⟩ := List.mem_map.mp hpiece
    rw [List.length_map]
  have hbatch : getBatchStaticAggregator (node network) (factories.map fun factory =>
      tokens.map fun p => pairAddress env factory p).flatten =
        .ok ((factories.map fun factory =>
          tokens.map fun p => pairAddress env factory p).flatten.map (node network).answer) := by
    rw [getBatchStaticAggregator, hanswered]
  have hmap : factories.mapM (protocolPairs env (node network) tokens) =
      factories.zipIdx.mapM fun p => protocolPairs env (node network) tokens p.1 := by
    conv_lhs => rw [← List.zipIdx_map_fst 0 factories]
    rw [List.mapM_map]
    rfl
  rw [hmap]
  unfold getProtocolPairs
  rw [hfactories, hnetwork]
  show (getBatchStaticAggregator (node network) (factories.map fun factory =>
    tokens.map fun p => pairAddress env factory p).flatten >>= fun reserveInfoBatchCall => _) = _
  rw [hbatch]
  show factories.zipIdx.mapM _ = _
  rw [hsplit]
  refine Eff.except_mapM_congr fun p hp => ?_
  have hentry : factories[p.2]? = some p.1 :=
    List.getElem?_eq_some_iff.mpr ⟨(List.mem_zipIdx' hp).1, (List.mem_zipIdx' hp).2.symm⟩
  rw [List.getElem?_map, hentry]
  rfl

theorem factories_ne_nil {entries factories : List ProtocolService} {chainId : Nat}
    (h : getProtocolWithService entries chainId = some factories) : factories ≠ [] := by
  unfold getProtocolWithService at h
  split at h
  · cases h
  · cases h
    exact List.cons_ne_nil _ _

/-- Without a pair to look for there is no part of the batch to read from. -/
theorem getProtocolPairs_nil {env : Environment} {node : Network → Node} {db : Db}
    {entries factories : List ProtocolService} {chainId : Nat} {network : Network}
    (hfactories : getProtocolWithService entries chainId = some factories)
    (hnetwork : networkByChainId db chainId = some network)
    (hanswered : (node network).fault = none) :
    getProtocolPairs env node db entries chainId [] = .error typeError := by
  have hbatch : getBatchStaticAggregator (node network)
      (factories.map fun _ => ([] : List String)).flatten = .ok [] := by
    rw [getBatchStaticAggregator, hanswered, List.flatten_eq_nil_iff.mpr]
    · rfl
    · intro piece hpiece
      obtain ⟨_, _, rfl⟩ := List.mem_map.mp hpiece
      rfl
  cases factories with
  | nil => exact absurd rfl (factories_ne_nil hfactories)
  | cons factory rest =>
    unfold getProtocolPairs
    rw [hfactories, hnetwork]
    show (getBatchStaticAggregator (node network) ((factory :: rest).map fun _ =>
      ([] : List String)).flatten >>= fun reserveInfoBatchCall => _) = _
    rw [hbatch]
    rfl

end BlockchainTask.Swap.RoutedPairs

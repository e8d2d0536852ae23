import BlockchainTask.Swap.ChainIndependence

/-! # Every two tokens once

The combinations that a search looks for are the two-element sets of the traded
tokens and the bases: whatever the list of bases repeats, and also when the two
traded tokens are one, every set is there once, with the token first whose
address is the lesser text. -/
namespace BlockchainTask.Swap.CurrencyCombinations
open BlockchainTask.Helper BlockchainTask.Library.Distinct BlockchainTask.Swap.SwapService
open BlockchainTask.Swap.RoutedPairs BlockchainTask.Swap.ChainIndependence

/-- Of the ways to write an address `getAddress` returns one, the one whose letter
case is the checksum. -/
def Checksums (env : Environment) : Prop :=
  ∀ s t x y, env.getAddress s = some x → env.getAddress t = some y →
    toLowerCase x = toLowerCase y → x = y

/-- A token that the SDK has made for a chain. -/
def IsInstance (env : Environment) (chainId : Nat) (t : TokenInstance) : Prop :=
  ∃ columns, tokenInstance env chainId columns = .ok t

variable {a b : TokenInstance} {bases : List TokenInstance}

/-- The combinations before those that repeat another one are dropped. -/
def allPairs (a b : TokenInstance) (bases : List TokenInstance) :
    List (TokenInstance × TokenInstance) :=
  ([(a, b)] ++ bases.map (fun base => (a, base)) ++ bases.map (fun base => (b, base)) ++
    (bases ×ˢ bases).filter distinctTokens).filter distinctTokens

theorem getAllCurrencyCombinations_eq_sorted : getAllCurrencyCombinations a b bases =
    (distinctOn pairIdentity (allPairs a b bases)).map sorted := by
  rw [← filterFirstIndex_eq samePair_iff]
  rfl

@[simp] theorem pairIdentity_sorted (p : TokenInstance × TokenInstance) :
    pairIdentity (sorted p) = pairIdentity p := by
  unfold sorted
  split
  · rfl
  · exact Sym2.eq_swap

theorem map_pairIdentity_sorted (ps : List (TokenInstance × TokenInstance)) :
    (ps.map sorted).map pairIdentity = ps.map pairIdentity := by
  simp [Function.comp_def]

/-! ## Which pairs there are -/

theorem distinct_of_mem_allPairs {p : TokenInstance × TokenInstance}
    (hp : p ∈ allPairs a b bases) : identity p.1 ≠ identity p.2 :=
  distinctTokens_iff.mp (List.mem_filter.mp hp).2

theorem tokens_of_mem_allPairs {p : TokenInstance × TokenInstance}
    (hp : p ∈ allPairs a b bases) : p.1 ∈ a :: b :: bases ∧ p.2 ∈ a :: b :: bases := by
  have hmem := (List.mem_filter.mp hp).1
  simp only [List.mem_append, List.mem_singleton, List.mem_map, List.mem_filter] at hmem
  simp only [List.mem_cons]
  rcases hmem with ((rfl | ⟨t, ht, rfl⟩) | ⟨t, ht, rfl⟩) | ⟨hbases, _⟩
  · exact ⟨Or.inl rfl, Or.inr (Or.inl rfl)⟩
  · exact ⟨Or.inl rfl, Or.inr (Or.inr ht)⟩
  · exact ⟨Or.inr (Or.inl rfl), Or.inr (Or.inr ht)⟩
  · obtain ⟨h1, h2⟩ := List.mem_product.mp hbases
    exact ⟨Or.inr (Or.inr h1), Or.inr (Or.inr h2)⟩

/-- One of the two orders of any two tokens is among the four groups. -/
theorem pair_mem_allPairs {t u : TokenInstance} (ht : t ∈ a :: b :: bases)
    (hu : u ∈ a :: b :: bases) (hne : identity t ≠ identity u) :
    (t, u) ∈ allPairs a b bases ∨ (u, t) ∈ allPairs a b bases := by
  have hforward : distinctTokens (t, u) = true := distinctTokens_iff.mpr hne
  have hback : distinctTokens (u, t) = true := distinctTokens_iff.mpr hne.symm
  simp only [allPairs, List.mem_filter, hforward, hback, and_true, List.mem_append,
    List.mem_singleton, List.mem_map, Prod.mk.injEq]
  rcases List.mem_cons.mp ht with htA | ht'
  · rcases List.mem_cons.mp hu with huA | hu'
    · exact absurd (by rw [htA, huA]) hne
    · rcases List.mem_cons.mp hu' with huB | huBase
      · exact Or.inl (Or.inl (Or.inl (Or.inl ⟨htA, huB⟩)))
      · exact Or.inl (Or.inl (Or.inl (Or.inr ⟨u, huBase, htA.symm, rfl⟩)))
  · rcases List.mem_cons.mp ht' with htB | htBase
    · rcases List.mem_cons.mp hu with huA | hu'
      · exact Or.inr (Or.inl (Or.inl (Or.inl ⟨huA, htB⟩)))
      · rcases List.mem_cons.mp hu' with huB | huBase
        · exact absurd (by rw [htB, huB]) hne
        · exact Or.inl (Or.inl (Or.inr ⟨u, huBase, htB.symm, rfl⟩))
    · rcases List.mem_cons.mp hu with huA | hu'
      · exact Or.inr (Or.inl (Or.inl (Or.inr ⟨t, htBase, huA.symm, rfl⟩)))
      · rcases List.mem_cons.mp hu' with huB | huBase
        · exact Or.inr (Or.inl (Or.inr ⟨t, htBase, huB.symm, rfl⟩))
        · exact Or.inl (Or.inr (List.mem_product.mpr ⟨htBase, huBase⟩))

/-! ## The order of a pair -/

/-- Two tokens of one chain whose addresses differ as lower-case texts are sorted. -/
theorem sortsBefore_sorted {p : TokenInstance × TokenInstance}
    (h : toLowerCase p.1.address ≠ toLowerCase p.2.address) :
    (sorted p).1.sortsBefore (sorted p).2 = true := by
  unfold sorted
  split
  · assumption
  · rename_i hnot
    rw [TokenInstance.sortsBefore, decide_eq_true_eq] at hnot ⊢
    exact String.not_le.mp fun hle => h (String.le_antisymm hle (String.not_lt.mp hnot))

/-- Different tokens of the SDK on one chain have addresses that differ as
lower-case texts. -/
theorem lowerCase_ne_of_distinct {env : Environment} (hchecksums : Checksums env) {chainId : Nat}
    {t u : TokenInstance} (ht : IsInstance env chainId t) (hu : IsInstance env chainId u)
    (hne : identity t ≠ identity u) : toLowerCase t.address ≠ toLowerCase u.address := by
  obtain ⟨_, ht⟩ := ht
  obtain ⟨_, hu⟩ := hu
  obtain ⟨htchain, htaddress⟩ := tokenInstance_ok ht
  obtain ⟨huchain, huaddress⟩ := tokenInstance_ok hu
  intro hlower
  apply hne
  rw [identity, identity, htchain, huchain,
    hchecksums _ _ _ _ htaddress huaddress hlower]

/-! ## The two-element sets -/

/-- The combinations of two tokens with any bases, all made by the SDK for one
chain: no pair is there twice, in either order; every pair is of two different
ones of these tokens, the lesser first; and every two different ones are there. -/
theorem combinations_are_subsets {env : Environment} (hchecksums : Checksums env) {chainId : Nat}
    {tokenA tokenB : TokenInstance} {commonPath : List TokenInstance}
    (htokens : ∀ t ∈ tokenA :: tokenB :: commonPath, IsInstance env chainId t) :
    (getAllCurrencyCombinations tokenA tokenB commonPath).Pairwise
      (fun p q => samePair p q = false) ∧
    (∀ p ∈ getAllCurrencyCombinations tokenA tokenB commonPath,
      p.1 ∈ tokenA :: tokenB :: commonPath ∧ p.2 ∈ tokenA :: tokenB :: commonPath ∧
        p.1.equals p.2 = false ∧ p.1.sortsBefore p.2 = true) ∧
    (∀ t ∈ tokenA :: tokenB :: commonPath, ∀ u ∈ tokenA :: tokenB :: commonPath,
      t.equals u = false →
        ∃ p ∈ getAllCurrencyCombinations tokenA tokenB commonPath, samePair p (t, u) = true) := by
  have hkeys : ((getAllCurrencyCombinations tokenA tokenB commonPath).map pairIdentity).Nodup := by
    rw [getAllCurrencyCombinations_eq_sorted, map_pairIdentity_sorted]
    exact nodup_map_distinctOn _
  refine ⟨?once, ?each, ?all⟩
  case once =>
    refine (List.pairwise_map.mp hkeys).imp fun {p q} hne => ?_
    rw [← Bool.not_eq_true, samePair_iff]
    exact hne
  case each =>
    intro p hp
    rw [getAllCurrencyCombinations_eq_sorted] at hp
    obtain ⟨q, hq, rfl⟩ := List.mem_map.mp hp
    have hq := mem_of_mem_distinctOn hq
    have hne := distinct_of_mem_allPairs hq
    obtain ⟨h1, h2⟩ := tokens_of_mem_allPairs hq
    have hlower := lowerCase_ne_of_distinct hchecksums (htokens _ h1) (htokens _ h2) hne
    have hsides : (sorted q = q ∨ sorted q = (q.2, q.1)) := by
      unfold sorted
      split
      · exact Or.inl rfl
      · exact Or.inr rfl
    have hbefore := sortsBefore_sorted hlower
    rcases hsides with hsame | hswapped
    · rw [hsame] at hbefore ⊢
      refine ⟨h1, h2, ?_, hbefore⟩
      rw [← Bool.not_eq_true, equals_iff]
      exact hne
    · rw [hswapped] at hbefore ⊢
      refine ⟨h2, h1, ?_, hbefore⟩
      rw [← Bool.not_eq_true, equals_iff]
      exact hne.symm
  case all =>
    intro t ht u hu hequals
    rw [← Bool.not_eq_true, equals_iff] at hequals
    have hkey : pairIdentity (t, u) ∈
        (getAllCurrencyCombinations tokenA tokenB commonPath).map pairIdentity := by
      rw [getAllCurrencyCombinations_eq_sorted, map_pairIdentity_sorted, mem_map_distinctOn]
      rcases pair_mem_allPairs ht hu hequals with hmem | hmem
      · exact List.mem_map.mpr ⟨_, hmem, rfl⟩
      · exact List.mem_map.mpr ⟨_, hmem, Sym2.eq_swap⟩
    obtain ⟨p, hp, hsame⟩ := List.mem_map.mp hkey
    exact ⟨p, hp, (samePair_iff _ _).mpr hsame⟩

/-- Addresses without letters are their own checksums. -/
def plainEnvironment : Environment where
  getAddress s := if toLowerCase s = s then some s else none
  isBytesLike _ := true
  getCreate2Address factory _ _ := factory
  services := []

theorem checksums_plainEnvironment : Checksums plainEnvironment := by
  intro s t x y hs ht hlower
  simp only [plainEnvironment, Option.ite_none_right_eq_some, Option.some.injEq] at hs ht
  obtain ⟨hs, rfl⟩ := hs
  obtain ⟨ht, rfl⟩ := ht
  rw [← hs, ← ht, hlower]

def firstToken : TokenInstance :=
  ⟨56, "0x0000000000000000000000000000000000000001", 18, "ONE", "One"⟩

def secondToken : TokenInstance :=
  ⟨56, "0x0000000000000000000000000000000000000002", 6, "TWO", "Two"⟩

theorem isInstance_plain (t : TokenInstance) (hdecimals : t.decimals < 255)
    (hplain : toLowerCase t.address = t.address) :
    IsInstance plainEnvironment t.chainId t := by
  refine ⟨⟨0, ⟨0, 0, "", true⟩, t.address, t.name, t.symbol, t.decimals, true, true⟩, ?_⟩
  unfold tokenInstance
  rw [if_pos hdecimals]
  simp [plainEnvironment, hplain]

/-- One token traded for itself, with bases that repeat it and each other. -/
theorem repeated_bases_subsets :
    (getAllCurrencyCombinations firstToken firstToken
      [secondToken, firstToken, secondToken]).Pairwise (fun p q => samePair p q = false) ∧
    ∃ p ∈ getAllCurrencyCombinations firstToken firstToken [secondToken, firstToken, secondToken],
      samePair p (secondToken, firstToken) = true := by
  have hinstances : ∀ t ∈ [firstToken, firstToken, secondToken, firstToken, secondToken],
      IsInstance plainEnvironment 56 t := by
    have hfirst : IsInstance plainEnvironment 56 firstToken :=
      isInstance_plain firstToken (by decide) (by decide +kernel)
    have hsecond : IsInstance plainEnvironment 56 secondToken :=
      isInstance_plain secondToken (by decide) (by decide +kernel)
    simp [hfirst, hsecond]
  have hsubsets := combinations_are_subsets checksums_plainEnvironment hinstances
  exact ⟨hsubsets.1, hsubsets.2.2 secondToken (by simp) firstToken (by simp) (by decide +kernel)⟩

end BlockchainTask.Swap.CurrencyCombinations

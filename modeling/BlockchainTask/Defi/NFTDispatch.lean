import BlockchainTask.Defi.WalletNFTokens
import BlockchainTask.Library.Effect

/-! # The dispatch on the contracts of a service

The table finds an interaction whatever the letter case of its address and
returns the address as it was stored. A switch that compares lower-case texts
finds the contract again; one that compares the texts themselves does where the
address was stored as the contract is written, and otherwise the request returns
an undefined element in place of the tokens. -/
namespace BlockchainTask.Defi.NFTDispatch
open BlockchainTask.Common.Exception BlockchainTask.Helper BlockchainTask.Helper.AnyArray
open BlockchainTask.Library.Effect BlockchainTask.Library.Store
open BlockchainTask.Interaction.InteractionService
open BlockchainTask.Repository.NFToken BlockchainTask.Defi.WalletNFTokens
open BlockchainTask.SchedulerJob.InteractionTemplate (Interaction Interactions)

variable {Query : Type} {surroundings : Surroundings Query} {protocol network : Nat}
variable {service : NFTService} {interactions : Interactions} {walletAddress : String}
variable {params : Query}

/-! ## The contract of an address -/

/-- The contract that an address is one of, up to letter case. -/
def matching (contracts : List String) (address : String) : Case :=
  contracts.find? fun contract => toLowerCase address = toLowerCase contract

/-- The contracts of a service are told apart in lower case. -/
def Apart (contracts : List String) : Prop := (contracts.map toLowerCase).Nodup

theorem matching_eq_some_iff {contracts : List String} (hapart : Apart contracts)
    {contract : String} (hmem : contract ∈ contracts) (address : String) :
    matching contracts address = some contract ↔ sameText address contract := by
  constructor
  · intro h
    have hsame : toLowerCase address = toLowerCase contract := by
      simpa using List.find?_some h
    exact hsame
  · intro h
    unfold matching
    cases hfind : contracts.find? fun other => toLowerCase address = toLowerCase other with
    | none =>
      have hnone := List.find?_eq_none.mp hfind contract hmem
      exact absurd (decide_eq_true h) hnone
    | some other =>
      have hother := List.mem_of_find?_eq_some hfind
      have hsame : toLowerCase address = toLowerCase other := by
        simpa using List.find?_some hfind
      have heq : toLowerCase other = toLowerCase contract := hsame.symm.trans h
      rw [List.inj_on_of_nodup_map hapart hother hmem heq]

/-- An address that is found is one of the contracts, up to letter case. -/
theorem matching_isSome {address : String}
    (h : address ∈ contractAddresses service interactions network walletAddress) :
    ∃ contract ∈ service.contracts, matching service.contracts address = some contract := by
  obtain ⟨row, hrow, haddress⟩ := List.mem_filterMap.mp h
  obtain ⟨contract, hcontract, hfound⟩ := List.any_eq_true.mp (List.mem_filter.mp hrow).2
  have hsame : sameText address contract := by
    have hto := (Bool.and_eq_true_iff.mp hfound).2
    rw [haddress] at hto
    exact of_decide_eq_true hto
  cases hmatching : matching service.contracts address with
  | none =>
    have hnone := List.find?_eq_none.mp hmatching contract hcontract
    exact absurd (decide_eq_true hsame) hnone
  | some other => exact ⟨other, List.mem_of_find?_eq_some hmatching, rfl⟩

/-! ## The request -/

/-- The stored interactions of a wallet with a contract. -/
def storedWith (interactions : Interactions) (network : Nat) (walletAddress contract : String) :
    List Interaction :=
  interactions.contents.filter (found (some network) walletAddress contract)

/-- A service dispatches on the contracts: its switch runs the function of the
contract that an address is one of, that function once for each stored
interaction, and the request returns the tokens in a flat list, with nothing
undefined in it. -/
structure Dispatches (service : NFTService) (interactions : Interactions) (network : Nat)
    (walletAddress : String) : Prop where
  agrees : ∀ address ∈ contractAddresses service interactions network walletAddress,
    service.switchAddress address = matching service.contracts address
  once : ∀ contract ∈ service.contracts,
    (runs service interactions network walletAddress).count contract =
      (storedWith interactions network walletAddress contract).length
  flat : ∀ {Query : Type} (surroundings : Surroundings Query) (protocol : Nat) (params : Query)
    (info : String → List NFTokenRow),
    (∀ contract ∈ service.contracts,
      getNFTokenWalletInfo surroundings protocol contract walletAddress params =
        .ok (info contract)) →
    getWalletNFTokens surroundings protocol service interactions network walletAddress params =
      .ok (((runs service interactions network walletAddress).flatMap info).map .value)

/-- The address of a row is run for a contract exactly where the row is one of the
interactions with it. -/
theorem matches_row {contracts : List String} (hapart : Apart contracts) {contract : String}
    (hmem : contract ∈ contracts) (row : Interaction) :
    (row.to_address.bind (matching contracts) == some contract &&
      contracts.any fun other => found (some network) walletAddress other row) =
      found (some network) walletAddress contract row := by
  cases haddress : row.to_address with
  | none => simp [found, haddress]
  | some address =>
    have hmatching : (matching contracts address == some contract) =
        decide (sameText address contract) := by
      rw [Bool.eq_iff_iff, beq_iff_eq, decide_eq_true_iff]
      exact matching_eq_some_iff hapart hmem address
    show (matching contracts address == some contract && _) = _
    rw [hmatching]
    by_cases hsame : sameText address contract
    · rw [decide_eq_true hsame, Bool.true_and, Bool.eq_iff_iff, List.any_eq_true]
      constructor
      · intro h
        obtain ⟨other, _, hother⟩ := h
        simp only [found, haddress, Option.any_some, Bool.and_eq_true] at hother ⊢
        exact ⟨hother.1, decide_eq_true hsame⟩
      · exact fun h => ⟨contract, hmem, h⟩
    · rw [decide_eq_false hsame, Bool.false_and]
      simp [found, haddress, hsame]

theorem count_runs (hapart : Apart service.contracts)
    (h : ∀ address ∈ contractAddresses service interactions network walletAddress,
      service.switchAddress address = matching service.contracts address)
    {contract : String} (hmem : contract ∈ service.contracts) :
    (runs service interactions network walletAddress).count contract =
      (storedWith interactions network walletAddress contract).length := by
  have hruns : runs service interactions network walletAddress =
      (contractAddresses service interactions network walletAddress).filterMap
        (matching service.contracts) := List.filterMap_congr h
  rw [hruns, contractAddresses, findInteractionAddresses, List.filterMap_filterMap,
    List.count_filterMap, List.countP_filter, storedWith, ← List.countP_eq_length_filter]
  refine List.countP_congr fun row _ => ?_
  rw [matches_row hapart hmem row]

theorem runCase_ok {contract : String} {tokens : List NFTokenRow}
    (h : getNFTokenWalletInfo surroundings protocol contract walletAddress params = .ok tokens) :
    runCase surroundings protocol walletAddress params (some contract) = .ok (.array tokens) := by
  show (getNFTokenWalletInfo surroundings protocol contract walletAddress params).map _ = _
  rw [h]
  rfl

/-- Where every address has a case, the results are the tokens of the contracts. -/
theorem getWalletNFTokens_ok {info : String → List NFTokenRow}
    (h : ∀ address ∈ contractAddresses service interactions network walletAddress,
      service.switchAddress address = matching service.contracts address)
    (hinfo : ∀ contract ∈ service.contracts,
      getNFTokenWalletInfo surroundings protocol contract walletAddress params =
        .ok (info contract)) :
    getWalletNFTokens surroundings protocol service interactions network walletAddress params =
      .ok (((runs service interactions network walletAddress).flatMap info).map .value) := by
  have hcase : ∀ address ∈ contractAddresses service interactions network walletAddress,
      ∃ contract ∈ service.contracts, service.switchAddress address = some contract := by
    intro address haddress
    rw [h address haddress]
    exact matching_isSome haddress
  unfold getWalletNFTokens runs
  generalize contractAddresses service interactions network walletAddress = addresses at hcase ⊢
  have hresults : addresses.mapM (fun address =>
      runCase surroundings protocol walletAddress params (service.switchAddress address)) =
      .ok (((addresses.filterMap service.switchAddress).map info).map .array) := by
    induction addresses with
    | nil => rfl
    | cons address rest ih =>
      obtain ⟨contract, hcontract, hswitch⟩ := hcase address List.mem_cons_self
      rw [List.mapM_cons, hswitch, runCase_ok (hinfo contract hcontract),
        ih fun other hother => hcase other (List.mem_cons_of_mem _ hother),
        List.filterMap_cons_some hswitch]
      rfl
  by_cases hnone : addresses.length = 0
  · rw [List.eq_nil_of_length_eq_zero hnone]
    rfl
  · show (if addresses.length = 0 then _ else _) = _
    rw [if_neg hnone, hresults]
    show Except.ok (flat _) = _
    rw [flat_arrays, List.flatMap_def]

theorem dispatches_of_agrees (hapart : Apart service.contracts)
    (h : ∀ address ∈ contractAddresses service interactions network walletAddress,
      service.switchAddress address = matching service.contracts address) :
    Dispatches service interactions network walletAddress :=
  ⟨h, fun _ hmem => count_runs hapart h hmem, fun _ _ _ _ hinfo => getWalletNFTokens_ok h hinfo⟩

/-! ## A switch on the texts themselves -/

/-- Every interaction of a wallet with a contract is stored with the address as the
contract is written. -/
def AsWritten (interactions : Interactions) (network : Nat) (walletAddress contract : String) :
    Prop :=
  ∀ row ∈ storedWith interactions network walletAddress contract, row.to_address = some contract

/-- A service of one contract, whose case compares the texts themselves. -/
def exactService (contract : String) : NFTService :=
  ⟨[contract], fun address => if address = contract then some contract else none⟩

theorem mem_contractAddresses_exact {contract address : String} :
    address ∈ contractAddresses (exactService contract) interactions network walletAddress ↔
      ∃ row ∈ storedWith interactions network walletAddress contract,
        row.to_address = some address := by
  rw [contractAddresses, findInteractionAddresses, List.mem_filterMap, storedWith, exactService]
  simp only [List.any_cons, List.any_nil, Bool.or_false]

theorem to_address_of_storedWith {contract : String} {row : Interaction}
    (h : row ∈ storedWith interactions network walletAddress contract) :
    ∃ address, row.to_address = some address ∧ sameText address contract := by
  have hto := (Bool.and_eq_true_iff.mp (List.mem_filter.mp h).2).2
  cases haddress : row.to_address with
  | none =>
    rw [haddress] at hto
    cases hto
  | some address =>
    rw [haddress] at hto
    exact ⟨address, rfl, of_decide_eq_true hto⟩

/-- It dispatches exactly where the addresses are stored as the contract is
written. -/
theorem dispatches_exact_iff (contract : String) :
    Dispatches (exactService contract) interactions network walletAddress ↔
      AsWritten interactions network walletAddress contract := by
  have hapart : Apart (exactService contract).contracts := List.nodup_singleton _
  constructor
  · intro h row hrow
    obtain ⟨address, hto, hsame⟩ := to_address_of_storedWith hrow
    have hswitch := h.agrees address (mem_contractAddresses_exact.mpr ⟨row, hrow, hto⟩)
    rw [(matching_eq_some_iff hapart (List.mem_singleton_self _) address).mpr hsame] at hswitch
    by_cases heq : address = contract
    · rw [hto, heq]
    · have hnone : (exactService contract).switchAddress address = none := if_neg heq
      rw [hnone] at hswitch
      cases hswitch
  · intro h
    refine dispatches_of_agrees hapart fun address haddress => ?_
    obtain ⟨row, hrow, hto⟩ := mem_contractAddresses_exact.mp haddress
    obtain ⟨_, hother, hsame⟩ := to_address_of_storedWith hrow
    have heq : address = contract := by
      rw [h row hrow, Option.some.injEq] at hto
      exact hto.symm
    rw [hto, Option.some.injEq] at hother
    rw [(matching_eq_some_iff hapart (List.mem_singleton_self _) address).mpr (hother ▸ hsame)]
    exact if_pos heq

/-- Otherwise the request still returns, with an undefined element in the place of
the tokens of the contract. -/
theorem undefined_of_not_asWritten {contract : String} {tokens : List NFTokenRow}
    (hinfo : getNFTokenWalletInfo surroundings protocol contract walletAddress params = .ok tokens)
    (h : ¬ AsWritten interactions network walletAddress contract) :
    ∃ result, getWalletNFTokens surroundings protocol (exactService contract) interactions network
      walletAddress params = .ok result ∧ .undefined ∈ result := by
  unfold AsWritten at h
  push Not at h
  obtain ⟨row, hrow, hne⟩ := h
  obtain ⟨address, hto, _⟩ := to_address_of_storedWith hrow
  have hmem := mem_contractAddresses_exact.mpr ⟨row, hrow, hto⟩
  have hother : address ≠ contract := fun he => hne (he ▸ hto)
  unfold getWalletNFTokens
  generalize contractAddresses (exactService contract) interactions network walletAddress =
    addresses at hmem ⊢
  have hresults : addresses.mapM (fun address => runCase surroundings protocol walletAddress params
      ((exactService contract).switchAddress address)) =
      .ok (addresses.map fun address =>
        if address = contract then .array tokens else .undefined) := by
    refine Eff.except_mapM_of_ok fun address _ => ?_
    by_cases heq : address = contract
    · have hswitch : (exactService contract).switchAddress address = some contract := if_pos heq
      rw [hswitch, if_pos heq]
      subst heq
      exact runCase_ok hinfo
    · have hswitch : (exactService contract).switchAddress address = none := if_neg heq
      rw [hswitch, if_neg heq]
      rfl
  refine ⟨flat (addresses.map fun address =>
    if address = contract then .array tokens else .undefined), ?_, ?_⟩
  · show (if addresses.length = 0 then _ else _) = _
    rw [if_neg (List.length_pos_of_mem hmem).ne', hresults]
    rfl
  · exact undefined_mem_flat.mpr (List.mem_map.mpr ⟨address, hmem, if_neg hother⟩)

/-! ## The three services -/

theorem matching_cons (contract : String) (contracts : List String) (address : String) :
    matching (contract :: contracts) address =
      if toLowerCase address = toLowerCase contract then some contract
      else matching contracts address := by
  unfold matching
  rw [List.find?_cons]
  by_cases h : toLowerCase address = toLowerCase contract
  · rw [if_pos h, decide_eq_true h]
  · rw [if_neg h, decide_eq_false h]

/-- The switch in lower case finds the contract of any address. -/
theorem pancakeSwap_switchAddress (address : String) :
    PancakeSwapBSCService.switchAddress address =
      matching PancakeSwapBSCService.service.contracts address := by
  unfold PancakeSwapBSCService.service PancakeSwapBSCService.switchAddress
  simp only [matching_cons]
  rfl

theorem pancakeSwap_dispatches :
    Dispatches PancakeSwapBSCService.service interactions network walletAddress := by
  have hapart : (PancakeSwapBSCService.service.contracts.map toLowerCase).Nodup := by
    decide +kernel
  exact dispatches_of_agrees hapart fun address _ => pancakeSwap_switchAddress address

/-- The three services dispatch alike on the interactions of a wallet exactly when
those with the contracts of AirNFT and ApeSwap are stored as these are written. -/
theorem dispatches_iff_asWritten :
    (Dispatches AirNftBSCService.service interactions network walletAddress ∧
        Dispatches ApeSwapBSCService.service interactions network walletAddress ∧
        Dispatches PancakeSwapBSCService.service interactions network walletAddress) ↔
      AsWritten interactions network walletAddress AirNftBSCService.nfTokenAddress ∧
        AsWritten interactions network walletAddress ApeSwapBSCService.nfTokenAddress := by
  have hair : Dispatches AirNftBSCService.service interactions network walletAddress ↔
      AsWritten interactions network walletAddress AirNftBSCService.nfTokenAddress :=
    dispatches_exact_iff AirNftBSCService.nfTokenAddress
  have hape : Dispatches ApeSwapBSCService.service interactions network walletAddress ↔
      AsWritten interactions network walletAddress ApeSwapBSCService.nfTokenAddress :=
    dispatches_exact_iff ApeSwapBSCService.nfTokenAddress
  constructor
  · exact fun h => ⟨hair.mp h.1, hape.mp h.2.1⟩
  · exact fun h => ⟨hair.mpr h.1, hape.mpr h.2, pancakeSwap_dispatches⟩

/-! ## An interaction as the node returns it -/

def wallet : String := "0x0000000000000000000000000000000000000007"

/-- Two interactions of a wallet, with an NF token of AirNFT and one of PancakeSwap,
in lower case. -/
def exampleInteractions : Interactions := Table.empty.insertAll
  [⟨1, wallet, some "0xf5db804101d8600c26598a1ba465166c33cdaa4b"⟩,
    ⟨1, wallet, some "0xdf7952b35f24acf7fc0487d01c8d5690a60dba07"⟩]

def exampleToken (address : String) : NFTokenRow := ⟨"p", address, 7, none, none⟩

/-- The wallet has one token of every contract. -/
def exampleSurroundings : Surroundings Unit where
  getSafeERC721BalanceOf _ _ := .ok 1
  getBatchStaticAggregator _ _ indexes := .ok (indexes.map fun _ => .index 7)
  search _ _ address _ := .ok [exampleToken address]

/-- PancakeSwap returns its token, AirNFT runs nothing and returns an undefined
element. -/
theorem lowercase_undefined :
    (getWalletNFTokens exampleSurroundings 1 PancakeSwapBSCService.service exampleInteractions 1
        wallet ()).toOption = some [.value (exampleToken PancakeSwapBSCService.nfTokenAddress)] ∧
      (getWalletNFTokens exampleSurroundings 1 AirNftBSCService.service exampleInteractions 1
        wallet ()).toOption = some [.undefined] ∧
      runs AirNftBSCService.service exampleInteractions 1 wallet = [] ∧
      (storedWith exampleInteractions 1 wallet AirNftBSCService.nfTokenAddress).length = 1 ∧
      ¬ Dispatches AirNftBSCService.service exampleInteractions 1 wallet := by
  have hruns : runs AirNftBSCService.service exampleInteractions 1 wallet = [] := by decide +kernel
  have hstored : (storedWith exampleInteractions 1 wallet
      AirNftBSCService.nfTokenAddress).length = 1 := by decide +kernel
  refine ⟨by decide +kernel, by decide +kernel, hruns, hstored, fun h => ?_⟩
  have honce := h.once AirNftBSCService.nfTokenAddress (List.mem_singleton_self _)
  rw [hruns, hstored] at honce
  cases honce

end BlockchainTask.Defi.NFTDispatch

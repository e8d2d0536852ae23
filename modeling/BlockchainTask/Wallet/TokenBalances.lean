import BlockchainTask.Helper.Decimals
import BlockchainTask.Multicalls.BalanceCells
import BlockchainTask.Repository.Token
import BlockchainTask.Wallet.WalletService

/-! # The token balances of a wallet

`WalletService.getWalletTokenBalances` finds the tokens that a wallet interacted
with, asks for their balances in one batch for each chain, and lists those with a
balance. The batches are put together chain by chain, so the list has each token
once, with its own balance. A token whose balance does not decode ends the batch
of its chain, and with it the whole request. -/
namespace BlockchainTask.Wallet.TokenBalances
open BlockchainTask.Common.Exception BlockchainTask.Helper BlockchainTask.Helper.Decimals
open BlockchainTask.Helper.GroupBy BlockchainTask.Library.Decimal BlockchainTask.Library.Effect
open BlockchainTask.Multicalls.BalanceCells BlockchainTask.Multicalls.BatchSafety
open BlockchainTask.Multicalls.MultiCall
open BlockchainTask.Repository.Token (TokenType)
open BlockchainTask.SchedulerJob.InteractionTemplate (Interaction Interactions)

/-- A token that the search finds; `chain_id` is `network.chain_id`. -/
structure Token where
  chain_id : ℕ
  type : TokenType
  name : String
  symbol : String
  address : String
  decimals : ℕ
  deriving DecidableEq

structure WalletBalance where
  balance : Number
  deriving DecidableEq

structure TokenBalanceItem extends Token where
  wallet : WalletBalance
  deriving DecidableEq

/-- A network behind its provider: its chain, and whether a request fails. -/
structure Network where
  chain : Chain
  fault : Option Thrown

/-- What the service reads. -/
structure Sources (Query : Type) where
  interactions : Interactions
  /-- `tokenService.search`, by the query and the addresses. -/
  search : Query → List (Option String) → List Token
  networks : ℕ → Option Network
  /-- How a text is encoded as an address, where it is one. -/
  encodeAddress : String → Except Thrown Address

/-- `findInteractionAddresses({ from_address })`. -/
def findInteractionAddresses (interactions : Interactions) (from_address : String) :
    List (Option String) :=
  (interactions.contents.filter fun row => decide (sameText row.from_address from_address)).map
    Interaction.to_address

section
variable {Query : Type} (sources : Sources Query) (walletAddress : String)

/-- A batch of balances by way of the provider. -/
def getBatchERC20TokenBalances (network : Network) (userAddresses tokenAddresses : List String) :
    Except Thrown (List ℕ) := do
  let users ← userAddresses.mapM sources.encodeAddress
  let tokens ← tokenAddresses.mapM sources.encodeAddress
  match network.fault, getBatchERC20Balances (fun _ _ => network.chain) users tokens with
  | some fault, _ => .error fault
  | none, .error _ => .error (rawError "missing revert data in call exception")
  | none, .ok balances => .ok balances

/-- A token and its balance; a token without a balance is not listed. -/
def format (tokenWithBalance : Option Token × Option ℕ) :
    Except Thrown (Option TokenBalanceItem) :=
  match tokenWithBalance with
  | (_, none) => .error typeError
  | (token, some balance) =>
    if isZero (.finite balance) then .ok none
    else match token with
      | none => .error typeError
      | some token =>
        .ok (some ⟨token, ⟨divideDecimals (.finite balance) token.decimals⟩⟩)

/-- The balances of the tokens of a chain. -/
def chainBalances (groups : Groups Token) (chainId : String) :
    Except Thrown (List TokenBalanceItem) :=
  match sources.networks (number chainId) with
  | none => .error typeError
  | some network => do
    let tokens := groups.property chainId
    let tokenBalances ←
      getBatchERC20TokenBalances sources network [walletAddress] (tokens.map Token.address)
    let output ← (zip tokens tokenBalances).mapM format
    pure (output.filterMap id)

/-- The tokens of a request. -/
def walletTokens (params : Query) : List Token :=
  let interactedWithAddresses := findInteractionAddresses sources.interactions walletAddress
  if interactedWithAddresses.length = 0 then [] else sources.search params interactedWithAddresses

def getWalletTokenBalances (params : Query) : Except Thrown (List TokenBalanceItem) :=
  let items := walletTokens sources walletAddress params
  if items.length = 0 then .ok []
  else do
    let interactedTokensGroupByChainId := groupBy items fun token => token.chain_id.repr
    let result ← (objectKeys interactedTokensGroupByChainId).mapM
      (chainBalances sources walletAddress interactedTokensGroupByChainId)
    pure result.flatten

/-! ## What should be listed -/

/-- The network of a token answers, and the balance of the wallet decodes. -/
def Answers (token : Token) : Prop :=
  ∃ network user address, sources.networks token.chain_id = some network ∧
    network.fault = none ∧ sources.encodeAddress walletAddress = .ok user ∧
      sources.encodeAddress token.address = .ok address ∧
        BalanceDecodes network.chain user address

/-- The balance of the wallet in a token, on the token's own chain. -/
def ownBalance (token : Token) : ℕ :=
  match sources.networks token.chain_id, sources.encodeAddress walletAddress,
    sources.encodeAddress token.address with
  | some network, .ok user, .ok address => userBalance network.chain user address
  | _, _, _ => 0

/-- A token with its balance, by its own decimals. -/
def expected (token : Token) : TokenBalanceItem :=
  ⟨token, ⟨.finite (ownBalance sources walletAddress token / 10 ^ token.decimals)⟩⟩

/-- Every token that has a balance is listed once, and no other one is. -/
def ListsBalances (items : List Token) (result : Except Thrown (List TokenBalanceItem)) : Prop :=
  ∃ output, result = .ok output ∧ output.Perm ((items.filter fun token =>
    ownBalance sources walletAddress token ≠ 0).map (expected sources walletAddress))

end

/-! ## The tokens of a chain -/

section
variable {Query : Type} {sources : Sources Query} {walletAddress : String} {network : Network}

theorem ownBalance_eq {token : Token} {user address : Address}
    (hnetwork : sources.networks token.chain_id = some network)
    (huser : sources.encodeAddress walletAddress = .ok user)
    (haddress : sources.encodeAddress token.address = .ok address) :
    ownBalance sources walletAddress token = userBalance network.chain user address := by
  rw [ownBalance, hnetwork, huser, haddress]

theorem format_some (token : Token) (balance : ℕ) :
    format (some token, some balance) = .ok (if balance = 0 then none
      else some ⟨token, ⟨.finite (balance / 10 ^ token.decimals)⟩⟩) := by
  unfold format
  by_cases hbalance : balance = 0
  · simp [hbalance]
  · simp [hbalance]

/-- The tokens and their balances, formatted. -/
theorem formatted (tokens : List Token) (balance : Token → ℕ) :
    (zip tokens (tokens.map balance)).mapM format = .ok (tokens.map fun token =>
      if balance token = 0 then none
      else some ⟨token, ⟨.finite (balance token / 10 ^ token.decimals)⟩⟩) := by
  rw [zip_of_length_eq (by simp), List.mapM_map, ← List.map_prod_left_eq_zip, List.mapM_map]
  exact Eff.except_mapM_of_ok fun token _ => format_some token (balance token)

/-- The address of a token. -/
def addressOf (sources : Sources Query) (token : Token) : Address :=
  (sources.encodeAddress token.address).toOption.getD 0

/-- What a token that answers has: by its network, and by the address of the wallet. -/
theorem Answers.own {token : Token} {user : Address} (h : Answers sources walletAddress token)
    (hnetwork : sources.networks token.chain_id = some network)
    (huser : sources.encodeAddress walletAddress = .ok user) :
    network.fault = none ∧ sources.encodeAddress token.address = .ok (addressOf sources token) ∧
      BalanceDecodes network.chain user (addressOf sources token) := by
  obtain ⟨_, _, address, hown, hfault, hwallet, haddress, hdecodes⟩ := h
  obtain rfl : network = _ := Option.some.inj (hnetwork.symm.trans hown)
  obtain rfl : user = _ := Except.ok.inj (huser.symm.trans hwallet)
  have hvalue : addressOf sources token = address := by
    rw [addressOf, haddress]
    rfl
  rw [hvalue]
  exact ⟨hfault, haddress, hdecodes⟩

/-- A batch of tokens that all answer. -/
theorem tokenBalances_ok {tokens : List Token} (hnetwork : ∀ token ∈ tokens,
      sources.networks token.chain_id = some network)
    (h : ∀ token ∈ tokens, Answers sources walletAddress token) (hne : tokens ≠ []) :
    getBatchERC20TokenBalances sources network [walletAddress] (tokens.map Token.address) =
      .ok (tokens.map (ownBalance sources walletAddress)) := by
  -- the wallet is the same for all of them
  obtain ⟨first, hfirst⟩ := List.exists_mem_of_ne_nil tokens hne
  obtain ⟨_, user, _, _, _, huser, _⟩ := h first hfirst
  have hown (token : Token) (htoken : token ∈ tokens) :=
    (h token htoken).own (hnetwork token htoken) huser
  have husers : [walletAddress].mapM sources.encodeAddress = .ok [user] := by
    rw [List.mapM_cons, huser]
    rfl
  have haddresses : (tokens.map Token.address).mapM sources.encodeAddress =
      .ok (tokens.map (addressOf sources)) := by
    rw [List.mapM_map]
    exact Eff.except_mapM_of_ok fun token htoken => (hown token htoken).2.1
  have hbalances : getBatchERC20Balances (fun _ _ => network.chain) [user]
      (tokens.map (addressOf sources)) = .ok (tokens.map (ownBalance sources walletAddress)) := by
    rw [balances_of_single, List.map_map]
    · refine congrArg Except.ok (List.map_congr_left fun token htoken => ?_)
      exact (ownBalance_eq (hnetwork token htoken) huser (hown token htoken).2.1).symm
    · intro address hmem
      obtain ⟨token, htoken, rfl⟩ := List.mem_map.mp hmem
      exact (hown token htoken).2.2
  refine Eff.except_bind_eq_ok.mpr ⟨_, husers, Eff.except_bind_eq_ok.mpr ⟨_, haddresses, ?_⟩⟩
  simp only [(hown first hfirst).1, hbalances]

/-- A batch that returns, of tokens that all answered. -/
theorem answers_of_ok {tokens : List Token} {balances : List ℕ} (hnetwork : ∀ token ∈ tokens,
      sources.networks token.chain_id = some network)
    (h : getBatchERC20TokenBalances sources network [walletAddress] (tokens.map Token.address) =
      .ok balances) : ∀ token ∈ tokens, Answers sources walletAddress token := by
  obtain ⟨users, husers, h⟩ := Eff.except_bind_eq_ok.mp h
  obtain ⟨addresses, haddresses, h⟩ := Eff.except_bind_eq_ok.mp h
  cases hfault : network.fault with
  | some fault =>
    rw [hfault] at h
    cases h
  | none =>
    rw [hfault] at h
    cases hbatch : getBatchERC20Balances (fun _ _ => network.chain) users addresses with
    | error e =>
      rw [hbatch] at h
      cases h
    | ok cells =>
      have hdecodes := allDecode_of_ok hbatch
      obtain ⟨user, huser, rfl⟩ : ∃ user, sources.encodeAddress walletAddress = .ok user ∧
          users = [user] := by
        rw [List.mapM_cons] at husers
        obtain ⟨user, huser, husers⟩ := Eff.except_bind_eq_ok.mp husers
        exact ⟨user, huser, (Except.ok.inj husers).symm⟩
      intro token htoken
      have hrows := Eff.forall₂_of_mapM haddresses
      obtain ⟨j, hj, rfl⟩ := List.getElem_of_mem htoken
      have hlength := hrows.length_eq
      rw [List.length_map] at hlength
      have hrow := hrows.get (i := j) (by simpa using hj) (hlength ▸ hj)
      refine ⟨network, user, addresses[j], hnetwork _ htoken, hfault, huser, by simpa using hrow, ?_⟩
      exact hdecodes 0 user rfl j addresses[j] (by simp)

theorem listed_eq (tokens : List Token) :
    (tokens.map fun token => if ownBalance sources walletAddress token = 0 then none
        else some (expected sources walletAddress token)).filterMap id =
      (tokens.filter fun token => ownBalance sources walletAddress token ≠ 0).map
        (expected sources walletAddress) := by
  induction tokens with
  | nil => rfl
  | cons token tokens ih =>
    rw [List.map_cons]
    by_cases hzero : ownBalance sources walletAddress token = 0
    · simpa [hzero] using ih
    · simpa [hzero] using ih

/-! ## All chains -/

/-- The group of a chain: tokens of one network, and at least one of them. -/
theorem group_of_key {items : List Token} {chainId : String}
    (h : chainId ∈ objectKeys (groupBy items fun token => token.chain_id.repr)) :
    ∃ chain_id, chainId = chain_id.repr ∧
      (groupBy items fun token => token.chain_id.repr).property chainId =
        items.filter (fun token => token.chain_id.repr = chainId) ∧
      (∀ token ∈ (groupBy items fun token => token.chain_id.repr).property chainId,
        token.chain_id = chain_id) ∧
      (groupBy items fun token => token.chain_id.repr).property chainId ≠ [] := by
  have hname := (objectKeys_perm _).mem_iff.mp h
  obtain ⟨first, hfirst, rfl⟩ := ((grouped_groupBy items _).names chainId).mp hname
  have hproperty := property_groupBy hname
  refine ⟨first.chain_id, rfl, hproperty, ?_, ?_⟩
  · intro token htoken
    rw [hproperty] at htoken
    have hrepr : token.chain_id.repr = first.chain_id.repr := by
      simpa using (List.mem_filter.mp htoken).2
    rw [← number_repr token.chain_id, hrepr, number_repr]
  · rw [hproperty]
    exact List.ne_nil_of_mem (List.mem_filter.mpr ⟨hfirst, by simp⟩)

/-- A chain is listed exactly when all of its tokens answer. -/
theorem chainBalances_ok {items : List Token} {chainId : String}
    (hkey : chainId ∈ objectKeys (groupBy items fun token => token.chain_id.repr))
    (h : ∀ token ∈ items, Answers sources walletAddress token) :
    chainBalances sources walletAddress (groupBy items fun token => token.chain_id.repr) chainId =
      .ok ((((groupBy items fun token => token.chain_id.repr).property chainId).filter fun token =>
        ownBalance sources walletAddress token ≠ 0).map (expected sources walletAddress)) := by
  obtain ⟨chain_id, rfl, hproperty, hchain, hne⟩ := group_of_key hkey
  have hanswers : ∀ token ∈ (groupBy items fun token => token.chain_id.repr).property
      chain_id.repr, Answers sources walletAddress token := by
    intro token htoken
    rw [hproperty] at htoken
    exact h token (List.mem_filter.mp htoken).1
  obtain ⟨first, hfirst⟩ := List.exists_mem_of_ne_nil _ hne
  obtain ⟨network, _, _, hnetwork, _⟩ := hanswers first hfirst
  rw [hchain first hfirst] at hnetwork
  have hbalances : getBatchERC20TokenBalances sources network [walletAddress] _ = .ok _ :=
    tokenBalances_ok (fun token htoken => hchain token htoken ▸ hnetwork) hanswers hne
  unfold chainBalances
  simp only [number_repr, hnetwork]
  refine Eff.except_bind_eq_ok.mpr ⟨_, hbalances, Eff.except_bind_eq_ok.mpr ⟨_, formatted _ _, ?_⟩⟩
  exact congrArg Except.ok (listed_eq _)

theorem answers_of_chainBalances {items : List Token} {chainId : String}
    {output : List TokenBalanceItem}
    (hkey : chainId ∈ objectKeys (groupBy items fun token => token.chain_id.repr))
    (h : chainBalances sources walletAddress (groupBy items fun token => token.chain_id.repr)
      chainId = .ok output) :
    ∀ token ∈ (groupBy items fun token => token.chain_id.repr).property chainId,
      Answers sources walletAddress token := by
  obtain ⟨chain_id, rfl, _, hchain, _⟩ := group_of_key hkey
  unfold chainBalances at h
  rw [number_repr] at h
  cases hnetwork : sources.networks chain_id with
  | none =>
    rw [hnetwork] at h
    cases h
  | some network =>
    rw [hnetwork] at h
    obtain ⟨balances, hbalances, _⟩ := Eff.except_bind_eq_ok.mp h
    exact answers_of_ok (fun token htoken => hchain token htoken ▸ hnetwork) hbalances

/-- For every set of tokens on any chains: each token with a balance is listed
once, with its own, and no other one, exactly when every token answers. -/
theorem listsBalances_iff (sources : Sources Query) (walletAddress : String) (params : Query) :
    ListsBalances sources walletAddress (walletTokens sources walletAddress params)
        (getWalletTokenBalances sources walletAddress params) ↔
      ∀ token ∈ walletTokens sources walletAddress params,
        Answers sources walletAddress token := by
  unfold getWalletTokenBalances
  generalize walletTokens sources walletAddress params = items
  by_cases hitems : items.length = 0
  · obtain rfl := List.length_eq_zero_iff.mp hitems
    simp [ListsBalances]
  · simp only [hitems, if_false]
    constructor
    · rintro ⟨_, h, _⟩ token htoken
      obtain ⟨result, hresult, _⟩ := Eff.except_bind_eq_ok.mp h
      obtain ⟨chainId, hkey, hgroup⟩ := List.mem_flatMap.mp
        ((groups_perm items fun token => token.chain_id.repr).mem_iff.mpr htoken)
      obtain ⟨output, houtput⟩ := Eff.except_mapM_ok_iff.mp ⟨result, hresult⟩ chainId hkey
      exact answers_of_chainBalances hkey houtput token hgroup
    · intro h
      refine ⟨_, Eff.except_bind_eq_ok.mpr
        ⟨_, Eff.except_mapM_of_ok fun chainId hkey => chainBalances_ok hkey h, rfl⟩, ?_⟩
      rw [← List.flatMap_def, ← List.map_flatMap, ← List.filter_flatMap]
      exact ((groups_perm items fun token => token.chain_id.repr).filter _).map _

end

/-- For all users and tokens the batch has every balance in its cell, each cell
written once, exactly when what is asked of the tokens decodes. For every set of
tokens on any chains, a request lists each token with a balance once, with its own
by its own decimals, and no other one, exactly when every token answers. -/
theorem tokenBalances_iff {Query : Type} (cells : ℕ → ℕ → Chain) (users tokens : List Address)
    (sources : Sources Query) (walletAddress : String) (params : Query) :
    ((∃ balances written, writtenBalances cells users tokens = .ok (balances, written) ∧
        getBatchERC20Balances cells users tokens = .ok balances ∧
          Filled cells users tokens balances written) ↔ AllDecode cells users tokens) ∧
    (ListsBalances sources walletAddress (walletTokens sources walletAddress params)
        (getWalletTokenBalances sources walletAddress params) ↔
      ∀ token ∈ walletTokens sources walletAddress params,
        Answers sources walletAddress token) :=
  ⟨filled_iff, listsBalances_iff sources walletAddress params⟩

/-! ## A contract that returns one byte -/

def exampleWallet : String := "0x8894E0a0c962CB723c1976a4421c95949bE2D4E3"

def tether : Token :=
  ⟨56, .SINGLE, "Tether USD", "USDT", "0x55d398326f99059fF775485246999027B3197955", 18⟩

def flag : Token :=
  ⟨56, .SINGLE, "Flag", "FLAG", "0x0E09FaBB73Bd3Ade0a17ECC321fD13a19e81cE82", 18⟩

def addresses : List (String × Address) :=
  [(exampleWallet, 0x8894E0a0c962CB723c1976a4421c95949bE2D4E3),
   (tether.address, 0x55d398326f99059fF775485246999027B3197955),
   (flag.address, 0x0E09FaBB73Bd3Ade0a17ECC321fD13a19e81cE82)]

/-- The wallet has some of the first token; the second contract answers every call
with a single byte. -/
def exampleChain : Chain where
  staticcall token _ :=
    if token = 0x0E09FaBB73Bd3Ade0a17ECC321fD13a19e81cE82 then ⟨true, [1]⟩
    else ⟨true, Library.Abi.encodeWord (5 * 10 ^ 18)⟩
  balance _ := 0

def exampleSources : Sources Unit where
  interactions := Library.Store.Table.empty.insertAll
    [⟨1, exampleWallet, some tether.address⟩, ⟨1, exampleWallet, some flag.address⟩]
  search _ found := [tether, flag].filter fun token => some token.address ∈ found
  networks chainId := if chainId = 56 then some ⟨exampleChain, none⟩ else none
  encodeAddress text := ((addresses.lookup text).map .ok).getD (.error (rawError "invalid address"))

/-- There are no balances at all, and the balance of the first token is not listed
either. -/
theorem flag_ends_request :
    (¬ ∃ balances written,
      writtenBalances (fun _ _ => exampleChain) [0x8894E0a0c962CB723c1976a4421c95949bE2D4E3]
          [0x55d398326f99059fF775485246999027B3197955, 0x0E09FaBB73Bd3Ade0a17ECC321fD13a19e81cE82] =
        .ok (balances, written) ∧
      getBatchERC20Balances (fun _ _ => exampleChain) [0x8894E0a0c962CB723c1976a4421c95949bE2D4E3]
          [0x55d398326f99059fF775485246999027B3197955, 0x0E09FaBB73Bd3Ade0a17ECC321fD13a19e81cE82] =
        .ok balances ∧
      Filled (fun _ _ => exampleChain) [0x8894E0a0c962CB723c1976a4421c95949bE2D4E3]
          [0x55d398326f99059fF775485246999027B3197955, 0x0E09FaBB73Bd3Ade0a17ECC321fD13a19e81cE82]
          balances written) ∧
    walletTokens exampleSources exampleWallet () = [tether, flag] ∧
    ¬ ListsBalances exampleSources exampleWallet [tether, flag]
      (getWalletTokenBalances exampleSources exampleWallet ()) := by
  have hflag : ¬ BalanceDecodes exampleChain 0x8894E0a0c962CB723c1976a4421c95949bE2D4E3
      0x0E09FaBB73Bd3Ade0a17ECC321fD13a19e81cE82 := by
    intro h
    exact absurd (h (by decide) rfl (by decide)) (by decide)
  have htokens : walletTokens exampleSources exampleWallet () = [tether, flag] := by
    decide +kernel
  refine ⟨fun h => ?_, htokens, fun h => ?_⟩
  · exact hflag (filled_iff.mp h 0 _ rfl 1 _ rfl)
  · rw [← htokens] at h
    obtain ⟨_, user, address, hnetwork, _, huser, haddress, hdecodes⟩ :=
      (listsBalances_iff exampleSources exampleWallet ()).mp h flag (by rw [htokens]; simp)
    obtain rfl := Option.some.inj hnetwork
    obtain rfl : user = _ := (Except.ok.inj huser).symm
    obtain rfl : address = _ := (Except.ok.inj haddress).symm
    exact hflag hdecodes

end BlockchainTask.Wallet.TokenBalances

import BlockchainTask.Multicalls.MultiCall

/-! # When a batch stands up to the contracts it calls

Whatever the called contracts do, a batch should have one entry for each item,
with the default in a field whose own call gave nothing that decodes. It has
these entries exactly when every call of every item that succeeded with bytes
returned bytes that decode, and for a pair when the bytes of the first token do
not stand in the way of the second one. Otherwise the whole batch reverts, or a
token is taken for unknown that is not. -/
namespace BlockchainTask.Multicalls.BatchSafety
open BlockchainTask.Library.Abi BlockchainTask.Library.Effect BlockchainTask.Library.IndexedLoop
open BlockchainTask.Multicalls.MultiCall

section
variable {α ξ : Type} {decoder : Bytes → Option α} {unknown : α} {returned : Returned}

/-! ## One field -/

/-- The field of an item: what its own call returned, where that decodes. -/
def field (decoder : Bytes → Option α) (unknown : α) (returned : Returned) : α :=
  if returned.success && !isEmptyBytes returned.data then (decoder returned.data).getD unknown
  else unknown

/-- The call gave nothing, or bytes that decode. -/
def Decodes (decoder : Bytes → Option α) (returned : Returned) : Prop :=
  returned.success = true → returned.data ≠ [] → (decoder returned.data).isSome = true

theorem isEmptyBytes_iff {bytes : Bytes} : isEmptyBytes bytes = true ↔ bytes = [] := by
  rw [isEmptyBytes, beq_iff_eq, List.length_eq_zero_iff]

theorem abiDecode_eq_ok_iff {data : Bytes} {value : α} :
    abiDecode decoder data = .ok value ↔ decoder data = some value := by
  unfold abiDecode
  cases decoder data with
  | none => exact ⟨fun h => (by cases h), fun h => (by cases h)⟩
  | some v => simp

theorem decodes_iff : Decodes decoder returned ↔
    ((returned.success && !isEmptyBytes returned.data) = true →
      (decoder returned.data).isSome = true) := by
  rw [Bool.and_eq_true, Bool.not_eq_true', ← Bool.not_eq_true, isEmptyBytes_iff, and_imp]
  rfl

theorem safeDecode_eq_ok_iff {value : α} :
    safeDecode decoder unknown returned = .ok value ↔
      Decodes decoder returned ∧ value = field decoder unknown returned := by
  rw [decodes_iff, safeDecode, decodeIf, field]
  by_cases hchecked : (returned.success && !isEmptyBytes returned.data) = true
  · rw [if_pos hchecked, if_pos hchecked, abiDecode_eq_ok_iff]
    cases decoder returned.data with
    | none =>
      constructor
      · intro h
        cases h
      · intro h
        cases h.1 hchecked
    | some v =>
      rw [Option.some.injEq, Option.getD_some]
      exact ⟨fun h => ⟨fun _ => rfl, h.symm⟩, fun h => h.2.symm⟩
  · rw [if_neg hchecked, if_neg hchecked, Except.ok.injEq]
    exact ⟨fun h => ⟨fun hc => absurd hc hchecked, h.symm⟩, fun h => h.2.symm⟩

/-- The call failed or gave no bytes, as where there is no code. -/
def Silent (returned : Returned) : Prop := returned.success = false ∨ returned.data = []

/-- A call that returned an encoded value. -/
theorem field_of_encoded (unknown : α) {value : α} {data : Bytes} (hreturned : returned = ⟨true, data⟩)
    (hdata : data ≠ [])
    (hvalue : decoder data = some value) :
    Decodes decoder returned ∧ field decoder unknown returned = value := by
  subst hreturned
  have hbytes : isEmptyBytes data = false := by
    rw [← Bool.not_eq_true, isEmptyBytes_iff]
    exact hdata
  refine ⟨fun _ _ => by rw [hvalue]; rfl, ?_⟩
  rw [field, hbytes, hvalue]
  rfl

theorem field_of_silent (unknown : α) (h : Silent returned) :
    Decodes decoder returned ∧ field decoder unknown returned = unknown := by
  rcases h with h | h
  · refine ⟨fun hsuccess => ?_, ?_⟩
    · rw [h] at hsuccess
      cases hsuccess
    · rw [field, h]
      rfl
  · refine ⟨fun _ hdata => absurd h hdata, ?_⟩
    rw [field, h]
    exact if_neg (by simp [isEmptyBytes])

/-! ## A batch of items -/

/-- A batch has the entries that are wanted exactly when every item has its own. -/
theorem batchOf_eq_ok_iff {item : ℕ → ξ → Except Revert α} {blank : α} {entry : ℕ → ξ → α}
    {xs : List ξ} : batchOf item blank xs = .ok (xs.mapIdx entry) ↔
      ∀ i x, xs[i]? = some x → item i x = .ok (entry i x) := by
  rw [batchOf, fill_eq_mapIndex, mapIndex_eq_ok_iff]

end

/-! ## The entries -/

section
variable {chain : Chain}

/-- The info that a token should have. -/
def tokenInfo (chain : Chain) (token : Address) : ERC20Info :=
  ⟨field decodeString UNKNOWN_STRING (chain.staticcall token ⟨0x06fdde03, []⟩),
    field decodeString UNKNOWN_STRING (chain.staticcall token ⟨0x95d89b41, []⟩),
    field (decodeUint 256) UNKNOWN_UINT (chain.staticcall token ⟨0x313ce567, []⟩)⟩

structure InfoDecodes (chain : Chain) (token : Address) : Prop where
  name : Decodes decodeString (chain.staticcall token ⟨0x06fdde03, []⟩)
  symbol : Decodes decodeString (chain.staticcall token ⟨0x95d89b41, []⟩)
  decimals : Decodes (decodeUint 256) (chain.staticcall token ⟨0x313ce567, []⟩)

theorem tokenInfos_eq_ok_iff {token : Address} :
    getERC20TokenInfos chain token = .ok (tokenInfo chain token) ↔ InfoDecodes chain token := by
  unfold getERC20TokenInfos
  simp only [Eff.except_bind_eq_ok, safeERC20Name, safeERC20Symbol, safeERC20Decimals,
    safeDecode_eq_ok_iff]
  constructor
  · intro h
    obtain ⟨_, ⟨hname, _⟩, _, ⟨hsymbol, _⟩, _, ⟨hdecimals, _⟩, _⟩ := h
    exact ⟨hname, hsymbol, hdecimals⟩
  · intro h
    exact ⟨_, ⟨h.name, rfl⟩, _, ⟨h.symbol, rfl⟩, _, ⟨h.decimals, rfl⟩, rfl⟩

/-- The pair info that an address should have. -/
def pairInfo (chain : Chain) (pair : Address) : PairInfo :=
  ⟨pair, field (decodeUint 160) UNKNOWN_ADDRESS (chain.staticcall pair token0),
    field (decodeUint 160) UNKNOWN_ADDRESS (chain.staticcall pair token1)⟩

/-- The first call gave nothing or an address. Where the second one succeeded, it
gave an address if the first one returned bytes, and none but the unknown one if
not. -/
structure PairDecodes (chain : Chain) (pair : Address) : Prop where
  first : Decodes (decodeUint 160) (chain.staticcall pair token0)
  second : (chain.staticcall pair token1).success = true →
    if (chain.staticcall pair token0).data = [] then
      ∀ address, decodeUint 160 (chain.staticcall pair token1).data = some address →
        address = UNKNOWN_ADDRESS
    else (decodeUint 160 (chain.staticcall pair token1).data).isSome = true

/-- The second token is what it should be. -/
theorem second_eq_ok_iff {checked : Bytes} {returned : Returned} :
    decodeIf (decodeUint 160) returned.success checked returned.data UNKNOWN_ADDRESS =
        .ok (field (decodeUint 160) UNKNOWN_ADDRESS returned) ↔
      (returned.success = true → if checked = [] then
        ∀ address, decodeUint 160 returned.data = some address → address = UNKNOWN_ADDRESS
      else (decodeUint 160 returned.data).isSome = true) := by
  have hfield : returned.success = true → field (decodeUint 160) UNKNOWN_ADDRESS returned =
      (decodeUint 160 returned.data).getD UNKNOWN_ADDRESS := by
    intro hsuccess
    rw [field, hsuccess, Bool.true_and]
    by_cases hempty : returned.data = []
    · rw [hempty]
      rfl
    · have hbytes : isEmptyBytes returned.data = false := by
        rw [← Bool.not_eq_true, isEmptyBytes_iff]
        exact hempty
      rw [hbytes]
      rfl
  cases hsuccess : returned.success with
  | false =>
    have hunknown : field (decodeUint 160) UNKNOWN_ADDRESS returned = UNKNOWN_ADDRESS := by
      rw [field, hsuccess]
      rfl
    rw [hunknown]
    exact ⟨fun _ h => (by cases h), fun _ => rfl⟩
  | true =>
    rw [hfield hsuccess, decodeIf, Bool.true_and]
    by_cases hchecked : checked = []
    · -- nothing is decoded
      rw [isEmptyBytes_iff.mpr hchecked, if_pos hchecked]
      cases decodeUint 160 returned.data with
      | none => simp
      | some address => simp [eq_comm]
    · have hbytes : isEmptyBytes checked = false := by
        rw [← Bool.not_eq_true, isEmptyBytes_iff]
        exact hchecked
      rw [hbytes, if_neg hchecked]
      cases hdecoded : decodeUint 160 returned.data with
      | none => simp [abiDecode, hdecoded]
      | some address => simp [abiDecode, hdecoded]

theorem pairInfos_eq_ok_iff {pair : Address} :
    safePairInfo chain pair = .ok (pairInfo chain pair) ↔ PairDecodes chain pair := by
  unfold safePairInfo
  simp only [Eff.except_bind_eq_ok]
  constructor
  · intro h
    obtain ⟨first, hfirst, second, hsecond, hpair⟩ := h
    obtain ⟨rfl, rfl⟩ : first = _ ∧ second = _ := (PairInfo.mk.inj (Except.ok.inj hpair)).2
    exact ⟨(safeDecode_eq_ok_iff.mp hfirst).1, second_eq_ok_iff.mp hsecond⟩
  · intro h
    exact ⟨_, safeDecode_eq_ok_iff.mpr ⟨h.first, rfl⟩, _, second_eq_ok_iff.mpr h.second, rfl⟩

/-- The data that a feed should have. -/
def chainLinkData (chain : Chain) (feed : Address) : ChainLinkData :=
  ⟨field decodeRoundData UNKNOWN_UINT (chain.staticcall feed ⟨0xfeaf968c, []⟩),
    field (decodeUint 256) 0 (chain.staticcall feed ⟨0x313ce567, []⟩)⟩

structure FeedDecodes (chain : Chain) (feed : Address) : Prop where
  answer : Decodes decodeRoundData (chain.staticcall feed ⟨0xfeaf968c, []⟩)
  decimals : Decodes (decodeUint 256) (chain.staticcall feed ⟨0x313ce567, []⟩)

theorem chainLinkData_eq_ok_iff {feed : Address} :
    safeChainLinkData chain feed = .ok (chainLinkData chain feed) ↔ FeedDecodes chain feed := by
  unfold safeChainLinkData
  simp only [Eff.except_bind_eq_ok, safeDecode_eq_ok_iff]
  constructor
  · intro h
    obtain ⟨_, ⟨hanswer, _⟩, _, ⟨hdecimals, _⟩, _⟩ := h
    exact ⟨hanswer, hdecimals⟩
  · intro h
    exact ⟨_, ⟨h.answer, rfl⟩, _, ⟨h.decimals, rfl⟩, rfl⟩

/-- The supply that a token should have. -/
def totalSupply (chain : Chain) (token : Address) : ℕ :=
  field (decodeUint 256) UNKNOWN_UINT (chain.staticcall token ⟨0x18160ddd, []⟩)

/-- The balance that a user should have of a token. -/
def userBalance (chain : Chain) (user token : Address) : ℕ :=
  if token ≠ 0 then field (decodeUint 256) UNKNOWN_UINT (chain.staticcall token ⟨0x70a08231, [user]⟩)
  else chain.balance user

/-- The native balance is not asked of a contract. -/
def BalanceDecodes (chain : Chain) (user token : Address) : Prop :=
  token ≠ 0 → Decodes (decodeUint 256) (chain.staticcall token ⟨0x70a08231, [user]⟩)

theorem balanceOfUser_eq_ok_iff {user token : Address} {balance : ℕ} :
    balanceOfUser chain user token = .ok balance ↔
      BalanceDecodes chain user token ∧ balance = userBalance chain user token := by
  unfold balanceOfUser userBalance BalanceDecodes safeERC20BalanceOf
  by_cases htoken : token ≠ 0
  · rw [if_pos htoken, if_pos htoken, safeDecode_eq_ok_iff, forall_prop_of_true htoken]
  · rw [if_neg htoken, if_neg htoken, Except.ok.injEq, eq_comm, forall_prop_of_false htoken,
      true_and]

theorem balances_eq_ok_iff {cells : ℕ → ℕ → Chain} {users tokens : List Address} :
    getBatchERC20Balances cells users tokens = .ok (users.mapIdx fun i user =>
        tokens.mapIdx fun j token => userBalance (cells i j) user token).flatten ↔
      ∀ i user, users[i]? = some user → ∀ j token, tokens[j]? = some token →
        BalanceDecodes (cells i j) user token := by
  rw [getBatchERC20Balances, fillRows_eq_mapIndex]
  constructor
  · intro h i user hi j token hj
    obtain ⟨rows, hrows, _⟩ := Eff.except_bind_eq_ok.mp
      (show (mapIndex _ 0 users >>= fun rows => .ok rows.flatten) = _ from h)
    obtain ⟨row, hrow⟩ := exists_of_mapIndex hrows hi
    obtain ⟨balance, hbalance⟩ := exists_of_mapIndex hrow hj
    exact (balanceOfUser_eq_ok_iff.mp hbalance).1
  · intro h
    rw [mapIndex_of_ok _ (fun i user => tokens.mapIdx fun j token =>
      userBalance (cells i j) user token)]
    · rfl
    · intro i user hi
      exact mapIndex_of_ok _ _ fun j token hj =>
        balanceOfUser_eq_ok_iff.mpr ⟨h i user hi j token hj, rfl⟩

end

/-! ## The batches -/

/-- For every list of items and whatever each call gives back: a batch returns,
with one entry for each item and in every field what its own call returned or the
default, exactly when what the calls of every item returned decodes. -/
theorem batches_have_entries_iff (chain : ℕ → Chain) (cells : ℕ → ℕ → Chain)
    (addresses users : List Address) :
    (getBatchERC20Infos chain addresses =
        .ok (addresses.mapIdx fun i token => tokenInfo (chain i) token) ↔
      ∀ i token, addresses[i]? = some token → InfoDecodes (chain i) token) ∧
    (getBatchERC20TotalSupply chain addresses =
        .ok (addresses.mapIdx fun i token => totalSupply (chain i) token) ↔
      ∀ i token, addresses[i]? = some token →
        Decodes (decodeUint 256) ((chain i).staticcall token ⟨0x18160ddd, []⟩)) ∧
    (getBatchERC20Balances cells users addresses =
        .ok (users.mapIdx fun i user =>
          addresses.mapIdx fun j token => userBalance (cells i j) user token).flatten ↔
      ∀ i user, users[i]? = some user → ∀ j token, addresses[j]? = some token →
        BalanceDecodes (cells i j) user token) ∧
    (getBatchPairInfos chain addresses =
        .ok (addresses.mapIdx fun i pair => pairInfo (chain i) pair) ↔
      ∀ i pair, addresses[i]? = some pair → PairDecodes (chain i) pair) ∧
    (getBatchChainLinkData chain addresses =
        .ok (addresses.mapIdx fun i feed => chainLinkData (chain i) feed) ↔
      ∀ i feed, addresses[i]? = some feed → FeedDecodes (chain i) feed) := by
  refine ⟨?infos, ?supplies, balances_eq_ok_iff, ?pairs, ?feeds⟩
  case infos =>
    rw [getBatchERC20Infos, batchOf_eq_ok_iff]
    simp only [tokenInfos_eq_ok_iff]
  case supplies =>
    rw [getBatchERC20TotalSupply, batchOf_eq_ok_iff]
    simp only [safeERC20TotalSupply, safeDecode_eq_ok_iff, totalSupply, and_true]
  case pairs =>
    rw [getBatchPairInfos, batchOf_eq_ok_iff]
    simp only [pairInfos_eq_ok_iff]
  case feeds =>
    rw [getBatchChainLinkData, batchOf_eq_ok_iff]
    simp only [chainLinkData_eq_ok_iff]

/-! ## A name in a single word -/

/-- A token whose name is returned as a `bytes32`, as early tokens do: no such
name decodes. -/
theorem not_infoDecodes_of_word {chain : Chain} {token : Address}
    (hsuccess : (chain.staticcall token ⟨0x06fdde03, []⟩).success = true)
    (hword : (chain.staticcall token ⟨0x06fdde03, []⟩).data.length = 32)
    (hname : wordAt (chain.staticcall token ⟨0x06fdde03, []⟩).data 0 ≠ 0) :
    ¬InfoDecodes chain token := by
  intro h
  have hbytes : (chain.staticcall token ⟨0x06fdde03, []⟩).data ≠ [] := by
    intro hempty
    rw [hempty] at hword
    cases hword
  exact hname ((decodeString_word hword).mp (h.name hsuccess hbytes))

/-- `bytes32("Maker")`. -/
def makerName : Bytes := [0x4d, 0x61, 0x6b, 0x65, 0x72] ++ List.replicate 27 0

/-- The first address has a name in a single word; nothing else returns bytes. -/
def makerChain : Chain where
  staticcall token data :=
    ⟨true, if token = 1 ∧ data.selector = 0x06fdde03 then makerName else []⟩
  balance _ := 0

/-- The first token's name reverts the batch, and with it the second token's
entry, which it has in a batch of its own. -/
theorem maker_reverts_batch :
    (∀ infos, getBatchERC20Infos (fun _ => makerChain) [1, 2] ≠ .ok infos) ∧
      getBatchERC20Infos (fun _ => makerChain) [2] =
        .ok [⟨UNKNOWN_STRING, UNKNOWN_STRING, 0⟩] := by
  have hreverts : getBatchERC20Infos (fun _ => makerChain) [1, 2] = .error .decoding := rfl
  refine ⟨fun infos h => ?_, rfl⟩
  rw [hreverts] at h
  cases h

end BlockchainTask.Multicalls.BatchSafety

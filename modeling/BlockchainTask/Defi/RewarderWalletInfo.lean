import BlockchainTask.Defi.FarmContracts
import BlockchainTask.Helper.AnyArray

/-! # Farms with two rewards

On Polygon the farms of ApeSwap and SushiSwap have the protocol's token for a
reward and that of a rewarder. A wallet's farm is reported with its reward tokens
sorted, the protocol's first, and with both pending rewards. The sort gives an
array for each address it is asked for, and the rewards are divided by the
decimals of the tokens as they were stored. -/
namespace BlockchainTask.Defi.RewarderWalletInfo
open BlockchainTask.Common.Exception BlockchainTask.Helper BlockchainTask.Helper.AnyArray
open BlockchainTask.Helper.Decimals
open BlockchainTask.Library.Abi BlockchainTask.Library.Decimal BlockchainTask.Library.Effect
open BlockchainTask.Multicalls.MultiCall (Returned)
open BlockchainTask.Defi.FarmContracts

/-- What the two services have of their own. -/
structure Service where
  farmAddress : String
  farmAbi : Interface
  pendingReward : String
  /-- The address of the protocol's token. -/
  token : String
  /-- The reward token of a rewarder; where it is a call, that may reject. -/
  getFarmRewarderRewardToken : String → Except Thrown String

/-- A farm that is reported: its reward tokens are replaced. -/
structure ReportedFarm where
  farm : FarmEntity
  reward_tokens : List (Element Token)
  deriving DecidableEq

/-- The order in which the farms are pushed. -/
structure Arrival where
  settle : List ReportedFarm → List ReportedFarm
  settle_perm : ∀ farms, (settle farms).Perm farms

def Arrival.inOrder : Arrival := ⟨id, fun _ => .rfl⟩

/-- `DeFiFarm.sortByRewardTokens`: for each address the tokens that have it. -/
def sortByRewardTokens (tokens : List Token) (sortByAddress : List String) : List (List Token) :=
  sortByAddress.map fun sort => tokens.filter fun token => token.address == sort

/-- `pendingTokens`: two arrays, of which the second one is the amounts. -/
def decodePendingTokens (data : Bytes) : Except Thrown (List ℕ) :=
  if data.length % 32 ≠ 0 then .error (rawError "call revert exception")
  else if data.length < 64 then .error (rawError "data out-of-bounds")
  else
    match wordsAt data (wordAt data 0), wordsAt data (wordAt data 32) with
    | some rewardTokens, some rewardAmounts =>
      if rewardTokens.all fun token => decide (token < 2 ^ 160) then .ok rewardAmounts
      else .error (rawError "invalid address")
    | _, _ => .error (rawError "data out-of-bounds")

section
variable (service : Service)

def rewarderOf (farm : FarmEntity) : Option String := farm.data.bind FarmData.rewarder

def farmArguments (walletAddress : String) (farm : FarmEntity) : List (Option Argument) :=
  [farm.pid.map .number, some (.address walletAddress)]

def userInfoCall (walletAddress : String) (farm : FarmEntity) : Call :=
  ⟨some service.farmAddress, ⟨"userInfo", farmArguments walletAddress farm⟩⟩

def pendingRewardCall (walletAddress : String) (farm : FarmEntity) : Call :=
  ⟨some service.farmAddress, ⟨service.pendingReward, farmArguments walletAddress farm⟩⟩

def pendingTokensCall (walletAddress : String) (farm : FarmEntity) : Call :=
  ⟨rewarderOf farm, ⟨"pendingTokens", farmArguments walletAddress farm ++ [some (.number 0)]⟩⟩

def walletCalls (walletAddress : String) (farm : FarmEntity) : List Call :=
  [userInfoCall service walletAddress farm, pendingRewardCall service walletAddress farm,
    pendingTokensCall walletAddress farm]

/-- The calls of a farm, where its `pid` can be encoded. -/
def walletInfoEncode (walletAddress : String) (farm : FarmEntity) : Except Thrown (List Call) := do
  let _ ← encodeFunction service.farmAbi "userInfo" (farmArguments walletAddress farm)
  let _ ← encodeFunction service.farmAbi service.pendingReward (farmArguments walletAddress farm)
  pure (walletCalls service walletAddress farm)

/-- `success && !isNullBytes(data) ? decode(data) : ZERO`. -/
def decodedIf {α : Type} (decode : Bytes → Except Thrown α) (value : α → Option Number)
    (returned : Returned) : Except Thrown (Option Number) :=
  if returned.success && !isNullBytes returned.data then (decode returned.data).map value
  else .ok (some ZERO)

def userInfoAmount (result : Fields) : Option Number :=
  (result.lookup "amount").map fun amount => .finite amount

/-- A farm with what the wallet has in it, if it has anything. The tokens whose
decimals are taken were read before the sort. -/
def walletFarm (farm : FarmEntity) (walletInfo pendingReward rewarderPendingReward : Returned) :
    Except Thrown (Option ReportedFarm) := do
  let rewarder := rewarderOf farm
  let staked ← decodedIf (decodeFunctionResultData service.farmAbi "userInfo") userInfoAmount
    walletInfo
  let reward ← decodedIf (decodeFunctionResultData service.farmAbi service.pendingReward)
    (fun result => some (numberOf (result.map Prod.snd))) pendingReward
  let rewarderReward ← decodedIf decodePendingTokens (fun amounts => some (numberOf amounts))
    rewarderPendingReward
  let walletStakedAmount ← present staked
  let walletRewardAmount ← present reward
  let walletRewarderRewardAmount ← present rewarderReward
  if isZero walletStakedAmount && isZero walletRewardAmount && isZero walletRewarderRewardAmount
  then pure none
  else do
    let rewarderToken ← service.getFarmRewarderRewardToken (rewarder.getD "")
    let sorted := sortByRewardTokens farm.reward_tokens [service.token, rewarderToken]
    let targetStakeToken ← present farm.stake_tokens[0]?
    let targetRewardToken ← present farm.reward_tokens[0]?
    let targetRewarderRewardToken ← present farm.reward_tokens[1]?
    let stake_amount := divideDecimals walletStakedAmount targetStakeToken.decimals
    let reward_amount := divideDecimals walletRewardAmount targetRewardToken.decimals
    let rewarder_reward_amount :=
      divideDecimals walletRewarderRewardAmount targetRewarderRewardToken.decimals
    pure (if isZero stake_amount && isZero reward_amount && isZero rewarder_reward_amount then none
      else some
        ⟨{ farm with wallet := some ⟨[stake_amount], [reward_amount, rewarder_reward_amount]⟩ },
          sorted.map .array⟩)

/-- The three results of a farm, which are destructured. -/
def zippedFarm (farm : Option FarmEntity) (walletInfoResult : Option (List Returned)) :
    Except Thrown (Option ReportedFarm) :=
  match farm, walletInfoResult with
  | some farm, some (walletInfo :: pendingReward :: rewarderPendingReward :: _) =>
    walletFarm service farm walletInfo pendingReward rewarderPendingReward
  | _, _ => .error typeError

def getFarmWalletInfo (arrival : Arrival) (node : Node) (farms : List FarmEntity)
    (walletAddress : String) : Except Thrown (List ReportedFarm) :=
  (readFarms 3 (walletInfoEncode service walletAddress) (zippedFarm service) node farms).map
    arrival.settle

end

/-! ## The services -/

namespace ApeSwapMATICService

def farmAbi : Interface := [("userInfo", ["amount", "rewardDebt"]), ("pendingBanana", ["pending"])]

/-- The reward token is asked of the rewarder. -/
def service (token : String) (rewardToken : String → Except Thrown String) : Service :=
  ⟨"0x54aff400858Dcac39797a81894D9920f16972D1D", farmAbi, "pendingBanana", token, rewardToken⟩

/-- The farms are mapped at once, and each is pushed when its rewarder is known. -/
def getFarmWalletInfo (token : String) (rewardToken : String → Except Thrown String) :=
  RewarderWalletInfo.getFarmWalletInfo (service token rewardToken)

end ApeSwapMATICService

namespace SushiSwapMATICService

def farmAbi : Interface := [("userInfo", ["amount", "rewardDebt"]), ("pendingSushi", ["pending"])]

/-- All rewarders reward with the same token. -/
def service (token : String) : Service :=
  ⟨"0x0769fd68dFb93167989C6f7254cd0D766Fb2841F", farmAbi, "pendingSushi", token,
    fun _ => .ok "0x0d500B1d8E8eF31E21C99d1Db9A6444d3ADf1270"⟩

def getFarmWalletInfo (token : String) :=
  RewarderWalletInfo.getFarmWalletInfo (service token) Arrival.inOrder

end SushiSwapMATICService

/-! ## A farm with both tokens -/

/-- A farm whose reward tokens are those of the protocol and of the rewarder, as
the stored addresses say in whatever letter case, in either order. -/
structure TwoRewardFarm (service : Service) where
  farm : FarmEntity
  stakeToken : Token
  protocolToken : Token
  rewarderToken : Token
  stake : farm.stake_tokens[0]? = some stakeToken
  stored : farm.reward_tokens = [protocolToken, rewarderToken] ∨
    farm.reward_tokens = [rewarderToken, protocolToken]
  protocol : sameText protocolToken.address service.token
  rewarder : ∃ address, service.getFarmRewarderRewardToken ((rewarderOf farm).getD "") =
    .ok address ∧ sameText rewarderToken.address address

section
variable {service : Service}

/-- What should be reported: the tokens in order, each reward in units of its own. -/
def expected (f : TwoRewardFarm service) (stake reward rewarderReward : ℕ) : Option ReportedFarm :=
  if stake = 0 ∧ reward = 0 ∧ rewarderReward = 0 then none
  else some ⟨{ f.farm with wallet := some ⟨[.finite (stake / 10 ^ f.stakeToken.decimals)],
    [.finite (reward / 10 ^ f.protocolToken.decimals),
      .finite (rewarderReward / 10 ^ f.rewarderToken.decimals)]⟩ },
    [.value f.protocolToken, .value f.rewarderToken]⟩

/-- The rewards by the decimals of the tokens as they are stored. -/
def storedAmounts (tokens : List Token) (reward rewarderReward : ℕ) : List Number :=
  tokens.zipWith (fun token amount => .finite (amount / 10 ^ token.decimals))
    [reward, rewarderReward]

/-- What is reported. -/
def reported (f : TwoRewardFarm service) (address : String) (stake reward rewarderReward : ℕ) :
    Option ReportedFarm :=
  if stake = 0 ∧ reward = 0 ∧ rewarderReward = 0 then none
  else some ⟨{ f.farm with wallet := some ⟨[.finite (stake / 10 ^ f.stakeToken.decimals)],
    storedAmounts f.farm.reward_tokens reward rewarderReward⟩ },
    (sortByRewardTokens f.farm.reward_tokens [service.token, address]).map .array⟩

/-- The raw amounts of the answers; a failed or empty one counts as zero. -/
def rawStake (service : Service) (returned : Returned) : ℕ :=
  if returned.success && !isNullBytes returned.data then
    ((decodeFunctionResultData service.farmAbi "userInfo" returned.data).toOption.bind fun result =>
      result.lookup "amount").getD 0
  else 0

def rawReward (service : Service) (returned : Returned) : ℕ :=
  if returned.success && !isNullBytes returned.data then
    ((decodeFunctionResultData service.farmAbi service.pendingReward
      returned.data).toOption.bind fun result => result.head?.map Prod.snd).getD 0
  else 0

def rawRewarderReward (returned : Returned) : ℕ :=
  if returned.success && !isNullBytes returned.data then
    ((decodePendingTokens returned.data).toOption.bind fun amounts => amounts.head?).getD 0
  else 0

/-- Three answers to a farm's calls: each failed, empty or with what the interface
says, a stake and one amount for each reward. -/
structure Answers (service : Service) (walletInfo pendingReward rewarderPendingReward : Returned) :
    Prop where
  stake : (walletInfo.success && !isNullBytes walletInfo.data) = true → ∃ result amount,
    decodeFunctionResultData service.farmAbi "userInfo" walletInfo.data = .ok result ∧
      result.lookup "amount" = some amount
  reward : (pendingReward.success && !isNullBytes pendingReward.data) = true → ∃ output,
    decodeFunctionResultData service.farmAbi service.pendingReward pendingReward.data = .ok [output]
  rewarderReward : (rewarderPendingReward.success && !isNullBytes rewarderPendingReward.data) =
    true → ∃ amount, decodePendingTokens rewarderPendingReward.data = .ok [amount]

theorem decodedIf_ok {α : Type} {decode : Bytes → Except Thrown α} {value : α → Option Number}
    {raw : α → Option ℕ} {returned : Returned}
    (h : (returned.success && !isNullBytes returned.data) = true → ∃ result amount,
      decode returned.data = .ok result ∧ value result = some (.finite (amount : ℕ)) ∧
        raw result = some amount) :
    decodedIf decode value returned = .ok (some (.finite
      ((if returned.success && !isNullBytes returned.data then
        ((decode returned.data).toOption.bind raw).getD 0 else 0 : ℕ)))) := by
  unfold decodedIf
  by_cases hchecked : (returned.success && !isNullBytes returned.data) = true
  · obtain ⟨result, amount, hresult, hvalue, hraw⟩ := h hchecked
    rw [if_pos hchecked, if_pos hchecked, hresult]
    simp [Except.map, Except.toOption, hvalue, hraw]
  · rw [if_neg hchecked, if_neg hchecked]
    simp [ZERO]

/-! The three amounts of a farm, as they are decoded. -/

section
variable {walletInfo pendingReward rewarderPendingReward : Returned}

theorem Answers.decoded_stake
    (h : Answers service walletInfo pendingReward rewarderPendingReward) :
    decodedIf (decodeFunctionResultData service.farmAbi "userInfo") userInfoAmount walletInfo =
      .ok (some (.finite (rawStake service walletInfo))) := by
  refine decodedIf_ok fun hchecked => ?_
  obtain ⟨result, amount, hresult, hamount⟩ := h.stake hchecked
  exact ⟨result, amount, hresult, by rw [userInfoAmount, hamount]; rfl, hamount⟩

theorem Answers.decoded_reward
    (h : Answers service walletInfo pendingReward rewarderPendingReward) :
    decodedIf (decodeFunctionResultData service.farmAbi service.pendingReward)
        (fun result => some (numberOf (result.map Prod.snd))) pendingReward =
      .ok (some (.finite (rawReward service pendingReward))) := by
  refine decodedIf_ok fun hchecked => ?_
  obtain ⟨output, hresult⟩ := h.reward hchecked
  exact ⟨[output], output.2, hresult, rfl, rfl⟩

theorem Answers.decoded_rewarderReward
    (h : Answers service walletInfo pendingReward rewarderPendingReward) :
    decodedIf decodePendingTokens (fun amounts => some (numberOf amounts)) rewarderPendingReward =
      .ok (some (.finite (rawRewarderReward rewarderPendingReward))) := by
  refine decodedIf_ok fun hchecked => ?_
  obtain ⟨amount, hresult⟩ := h.rewarderReward hchecked
  exact ⟨[amount], amount, hresult, rfl, rfl⟩

end

/-- **One farm.** -/
theorem walletFarm_eq (f : TwoRewardFarm service) {address : String}
    (haddress : service.getFarmRewarderRewardToken ((rewarderOf f.farm).getD "") = .ok address)
    {walletInfo pendingReward rewarderPendingReward : Returned}
    (h : Answers service walletInfo pendingReward rewarderPendingReward) :
    walletFarm service f.farm walletInfo pendingReward rewarderPendingReward =
      .ok (reported f address (rawStake service walletInfo) (rawReward service pendingReward)
        (rawRewarderReward rewarderPendingReward)) := by
  unfold walletFarm reported
  simp only [h.decoded_stake, h.decoded_reward, h.decoded_rewarderReward, f.stake, haddress]
  generalize rawStake service walletInfo = stake
  generalize rawReward service pendingReward = reward
  generalize rawRewarderReward rewarderPendingReward = rewarderReward
  have hpow : ∀ decimals : ℕ, (10 : ℚ) ^ decimals ≠ 0 := fun decimals => (pow_ten_pos decimals).ne'
  by_cases hzero : stake = 0 ∧ reward = 0 ∧ rewarderReward = 0
  · rw [if_pos hzero]
    simp [present, hzero.1, hzero.2.1, hzero.2.2]
    rfl
  · rw [if_neg hzero]
    have hraw : (isZero (.finite (stake : ℚ)) && isZero (.finite (reward : ℚ)) &&
        isZero (.finite (rewarderReward : ℚ))) = false := by
      simpa [and_assoc] using hzero
    show (if isZero (.finite (stake : ℚ)) && isZero (.finite (reward : ℚ)) &&
      isZero (.finite (rewarderReward : ℚ)) then _ else _) = _
    rw [hraw]
    rcases f.stored with hstored | hstored
    · simp [present, hpow, hzero, hstored, storedAmounts, and_assoc]
      rfl
    · simp [present, hpow, hzero, hstored, storedAmounts, and_assoc]
      rfl

/-- Whether the rewards that are reported are those that should be: the tokens are
stored in order, or it makes no difference. -/
theorem storedAmounts_eq_iff (f : TwoRewardFarm service) (reward rewarderReward : ℕ) :
    storedAmounts f.farm.reward_tokens reward rewarderReward =
        [.finite (reward / 10 ^ f.protocolToken.decimals),
          .finite (rewarderReward / 10 ^ f.rewarderToken.decimals)] ↔
      f.farm.reward_tokens = [f.protocolToken, f.rewarderToken] ∨
        f.protocolToken.decimals = f.rewarderToken.decimals ∨ reward = 0 ∧ rewarderReward = 0 := by
  have hscale : ∀ amount m n : ℕ, (amount : ℚ) / 10 ^ m = amount / 10 ^ n ↔ amount = 0 ∨ m = n := by
    intro amount m n
    by_cases hzero : amount = 0
    · simp [hzero]
    · have hamount : (amount : ℚ) ≠ 0 := by exact_mod_cast hzero
      rw [div_eq_mul_inv, div_eq_mul_inv, mul_right_inj' hamount, inv_inj, or_iff_right hzero]
      exact pow_right_inj₀ (by norm_num) (by norm_num)
  rcases f.stored with hstored | hstored
  · simp [hstored, storedAmounts]
  · have hswapped : f.farm.reward_tokens = [f.protocolToken, f.rewarderToken] →
        f.protocolToken.decimals = f.rewarderToken.decimals := by
      intro h
      rw [hstored] at h
      exact congrArg Token.decimals (List.cons.inj h).1.symm
    rw [or_iff_right_of_imp fun h => .inl (hswapped h)]
    simp only [hstored, storedAmounts, List.zipWith_cons_cons, List.zipWith_nil_left,
      List.cons.injEq, Number.finite.injEq, hscale, and_true]
    rw [eq_comm (a := f.rewarderToken.decimals)]
    tauto

/-! ## A list of farms -/

/-- A request that the node answers. -/
structure Asked (service : Service) (node : Node) (walletAddress : String)
    (farms : List (TwoRewardFarm service)) : Prop where
  userInfo : (service.farmAbi.lookup "userInfo").isSome = true
  pendingReward : (service.farmAbi.lookup service.pendingReward).isSome = true
  sent : node.fault = none
  pid : ∀ f ∈ farms, f.farm.pid.isSome = true
  rewarder : ∀ f ∈ farms, (rewarderOf f.farm).isSome = true
  answers : ∀ i f, farms[i]? = some f → Answers service
    (node.answer (i * 3) (userInfoCall service walletAddress f.farm))
    (node.answer (i * 3 + 1) (pendingRewardCall service walletAddress f.farm))
    (node.answer (i * 3 + 2) (pendingTokensCall walletAddress f.farm))

/-- The raw amounts of the `i`-th farm, by the answers to its own calls. -/
structure RawAmounts where
  stake : ℕ
  reward : ℕ
  rewarderReward : ℕ
  deriving DecidableEq

def rawAmounts (service : Service) (node : Node) (walletAddress : String) (i : ℕ)
    (farm : FarmEntity) : RawAmounts :=
  ⟨rawStake service (node.answer (i * 3) (userInfoCall service walletAddress farm)),
    rawReward service (node.answer (i * 3 + 1) (pendingRewardCall service walletAddress farm)),
    rawRewarderReward (node.answer (i * 3 + 2) (pendingTokensCall walletAddress farm))⟩

/-- The farms in which there is anything are reported, each as it should be. -/
def Meets (service : Service) (arrival : Arrival) (node : Node) (walletAddress : String)
    (farms : List (TwoRewardFarm service)) : Prop :=
  ∃ output, getFarmWalletInfo service arrival node (farms.map TwoRewardFarm.farm) walletAddress =
      .ok output ∧
    output.Perm ((farms.mapIdx fun i f =>
      let raw := rawAmounts service node walletAddress i f.farm
      expected f raw.stake raw.reward raw.rewarderReward).filterMap id)

/-- There is nothing in any of the farms. -/
def NothingReported (service : Service) (node : Node) (walletAddress : String)
    (farms : List (TwoRewardFarm service)) : Prop :=
  ∀ i f, farms[i]? = some f → rawAmounts service node walletAddress i f.farm = ⟨0, 0, 0⟩

def rewarderAddress (service : Service) (farm : FarmEntity) : String :=
  (service.getFarmRewarderRewardToken ((rewarderOf farm).getD "")).toOption.getD ""

theorem rewarderAddress_eq (f : TwoRewardFarm service) :
    service.getFarmRewarderRewardToken ((rewarderOf f.farm).getD "") =
      .ok (rewarderAddress service f.farm) := by
  obtain ⟨address, haddress, _⟩ := f.rewarder
  rw [rewarderAddress, haddress]
  rfl

theorem walletInfoEncode_ok {walletAddress : String} {farm : FarmEntity}
    (huserInfo : (service.farmAbi.lookup "userInfo").isSome = true)
    (hpending : (service.farmAbi.lookup service.pendingReward).isSome = true)
    (hpid : farm.pid.isSome = true) :
    walletInfoEncode service walletAddress farm = .ok (walletCalls service walletAddress farm) := by
  have harguments : (farmArguments walletAddress farm).all Option.isSome = true := by
    simpa [farmArguments] using hpid
  unfold walletInfoEncode encodeFunction
  rw [huserInfo, hpending, harguments]
  rfl

/-- What a request gives. -/
theorem getFarmWalletInfo_of_asked {node : Node} {walletAddress : String}
    {farms : List (TwoRewardFarm service)} (arrival : Arrival)
    (h : Asked service node walletAddress farms) :
    getFarmWalletInfo service arrival node (farms.map TwoRewardFarm.farm) walletAddress =
      .ok (arrival.settle ((farms.mapIdx fun i f =>
        let raw := rawAmounts service node walletAddress i f.farm
        reported f (rewarderAddress service f.farm) raw.stake raw.reward
          raw.rewarderReward).filterMap id)) := by
  have htargets : ∀ f ∈ farms, ∀ call ∈ walletCalls service walletAddress f.farm,
      call.target.isSome = true := by
    intro f hf call hcall
    simp only [walletCalls, List.mem_cons, List.not_mem_nil, or_false] at hcall
    rcases hcall with rfl | rfl | rfl
    · rfl
    · rfl
    · exact h.rewarder f hf
  have hread := readFarms_ok (walletCalls service walletAddress) (by decide : 1 ≤ 3) h.sent
    TwoRewardFarm.farm
    (fun f hf => walletInfoEncode_ok h.userInfo h.pendingReward (h.pid f hf))
    (fun _ _ => rfl) htargets fun i f hf =>
      show zippedFarm service _ _ = _ from
        walletFarm_eq f (rewarderAddress_eq f) (h.answers i f hf)
  rw [getFarmWalletInfo, hread]
  rfl

/-- No farm is reported as it should be: the tokens are arrays. -/
theorem reported_ne_expected {f f' : TwoRewardFarm service} {address : String}
    {stake reward rewarderReward stake' reward' rewarderReward' : ℕ} {farm : ReportedFarm}
    (h : reported f address stake reward rewarderReward = some farm) :
    expected f' stake' reward' rewarderReward' ≠ some farm := by
  intro h'
  unfold reported at h
  unfold expected at h'
  split at h
  · cases h
  · split at h'
    · cases h'
    · obtain rfl := Option.some.inj h
      have htokens := congrArg ReportedFarm.reward_tokens (Option.some.inj h')
      cases htokens

/-- Where there is something in a farm the request does not give what it should. -/
theorem nothingReported_of_meets {arrival : Arrival} {node : Node} {walletAddress : String}
    {farms : List (TwoRewardFarm service)} (h : Asked service node walletAddress farms)
    (hmeets : Meets service arrival node walletAddress farms) :
    NothingReported service node walletAddress farms := by
  obtain ⟨output, houtput, hperm⟩ := hmeets
  rw [getFarmWalletInfo_of_asked arrival h, Except.ok.injEq] at houtput
  subst houtput
  intro i f hf
  by_contra hsome
  have hexpected : ∃ farm, expected f (rawAmounts service node walletAddress i f.farm).stake
      (rawAmounts service node walletAddress i f.farm).reward
      (rawAmounts service node walletAddress i f.farm).rewarderReward = some farm := by
    unfold expected
    rw [if_neg]
    · exact ⟨_, rfl⟩
    · rintro ⟨hstake, hreward, hrewarder⟩
      refine hsome ?_
      generalize rawAmounts service node walletAddress i f.farm = raw at hstake hreward hrewarder ⊢
      cases raw
      simp_all
  obtain ⟨farm, hfarm⟩ := hexpected
  have hmem : farm ∈ (farms.mapIdx fun i f =>
      let raw := rawAmounts service node walletAddress i f.farm
      expected f raw.stake raw.reward raw.rewarderReward).filterMap id := by
    refine List.mem_filterMap.mpr ⟨some farm, ?_, rfl⟩
    obtain ⟨hi, hget⟩ := List.getElem?_eq_some_iff.mp hf
    exact List.mem_mapIdx.mpr ⟨i, hi, by rw [hget]; exact hfarm⟩
  have hgiven := (arrival.settle_perm _).mem_iff.mp (hperm.mem_iff.mpr hmem)
  obtain ⟨row, hrow, hid⟩ := List.mem_filterMap.mp hgiven
  obtain ⟨j, hj, hreported⟩ := List.mem_mapIdx.mp hrow
  exact reported_ne_expected (hreported.trans hid) hfarm

theorem filterMap_eq_nil_of_zero {node : Node} {walletAddress : String}
    {farms : List (TwoRewardFarm service)} {row : ℕ → TwoRewardFarm service → Option ReportedFarm}
    (h : NothingReported service node walletAddress farms)
    (hrow : ∀ i f, rawAmounts service node walletAddress i f.farm = ⟨0, 0, 0⟩ → row i f = none) :
    (farms.mapIdx row).filterMap id = [] := by
  refine List.filterMap_eq_nil_iff.mpr fun r hr => ?_
  obtain ⟨i, hi, rfl⟩ := List.mem_mapIdx.mp hr
  exact hrow i _ (h i _ (List.getElem?_eq_getElem hi))

theorem meets_of_nothingReported {arrival : Arrival} {node : Node} {walletAddress : String}
    {farms : List (TwoRewardFarm service)} (h : Asked service node walletAddress farms)
    (hnothing : NothingReported service node walletAddress farms) :
    Meets service arrival node walletAddress farms := by
  refine ⟨_, getFarmWalletInfo_of_asked arrival h, ?_⟩
  rw [filterMap_eq_nil_of_zero hnothing fun i f hraw => by simp [hraw, reported],
    filterMap_eq_nil_of_zero hnothing fun i f hraw => by simp [hraw, expected]]
  exact arrival.settle_perm []

/-- For every list of farms with both reward tokens: the wallet's farms are reported
with the flat list of the tokens, and each reward in units of its own, exactly when
there is nothing in any of them. -/
theorem getFarmWalletInfo_meets_iff (service : Service) (arrival : Arrival) (node : Node)
    (walletAddress : String) (farms : List (TwoRewardFarm service))
    (h : Asked service node walletAddress farms) :
    Meets service arrival node walletAddress farms ↔
      NothingReported service node walletAddress farms :=
  ⟨nothingReported_of_meets h, meets_of_nothingReported h⟩

end

/-! ## A farm with two pending rewards -/

def banana : Token := ⟨"0x5d47bAbA0d66083C52009271faF3F50DCc01023C", 18⟩

def wmatic : Token := ⟨"0x0d500B1d8E8eF31E21C99d1Db9A6444d3ADf1270", 18⟩

def exampleWallet : String := "0x2222222222222222222222222222222222222222"

def apeSwap : Service := ApeSwapMATICService.service banana.address fun _ => .ok wmatic.address

def bananaFarm : TwoRewardFarm apeSwap where
  farm := ⟨⟨3, 2, "farm", some apeSwap.farmAddress, some 1⟩,
    some ⟨none, some "0x1F234B1b83e21Cb5e2b99b4E498fe70Ef2d6e3bf"⟩,
    [⟨"0x034293F21F1cCE5908BC605CE5850dF2b1059aC0", 18⟩], [banana, wmatic], none⟩
  stakeToken := ⟨"0x034293F21F1cCE5908BC605CE5850dF2b1059aC0", 18⟩
  protocolToken := banana
  rewarderToken := wmatic
  stake := rfl
  stored := .inl rfl
  protocol := rfl
  rewarder := ⟨wmatic.address, rfl, rfl⟩

/-- Nothing is staked any more; three BANANA and two WMATIC are pending. -/
def pendingNode : Node where
  answer _ call :=
    if call.data.function = "userInfo" then ⟨true, encodeWord 0 ++ encodeWord 0⟩
    else if call.data.function = "pendingBanana" then ⟨true, encodeWord (3 * 10 ^ 18)⟩
    else ⟨true, encodeWord 64 ++ encodeWord 128 ++ encodeWord 1 ++ encodeWord 7 ++ encodeWord 1 ++
      encodeWord (2 * 10 ^ 18)⟩
  fault := none

/-- No call is answered. -/
def failingNode : Node := ⟨fun _ _ => ⟨false, []⟩, none⟩

theorem asked_of_answers {node : Node} (hsent : node.fault = none)
    (h : Answers apeSwap (node.answer 0 (userInfoCall apeSwap exampleWallet bananaFarm.farm))
      (node.answer 1 (pendingRewardCall apeSwap exampleWallet bananaFarm.farm))
      (node.answer 2 (pendingTokensCall exampleWallet bananaFarm.farm))) :
    Asked apeSwap node exampleWallet [bananaFarm] := by
  refine ⟨rfl, rfl, hsent, ?_, ?_, ?_⟩
  · intro f hf
    rw [List.mem_singleton.mp hf]
    rfl
  · intro f hf
    rw [List.mem_singleton.mp hf]
    rfl
  · intro i f hf
    cases i with
    | zero =>
      obtain rfl := Option.some.inj hf
      exact h
    | succ i => cases hf

theorem getFarmWalletInfo_failingNode :
    Meets apeSwap Arrival.inOrder failingNode exampleWallet [bananaFarm] := by
  have hasked : Asked apeSwap failingNode exampleWallet [bananaFarm] :=
    asked_of_answers rfl ⟨fun h => (by cases h), fun h => (by cases h), fun h => (by cases h)⟩
  refine (getFarmWalletInfo_meets_iff apeSwap Arrival.inOrder failingNode exampleWallet
    [bananaFarm] hasked).mpr fun i f hf => rfl

/-- The reward tokens of the farm are reported as two arrays. -/
theorem getFarmWalletInfo_pendingNode :
    Asked apeSwap pendingNode exampleWallet [bananaFarm] ∧
      ¬ Meets apeSwap Arrival.inOrder pendingNode exampleWallet [bananaFarm] := by
  have hasked : Asked apeSwap pendingNode exampleWallet [bananaFarm] := by
    have htokens : (decodePendingTokens
        (pendingNode.answer 2 (pendingTokensCall exampleWallet bananaFarm.farm)).data).toOption =
          some [2 * 10 ^ 18] := by
      decide +kernel
    refine asked_of_answers rfl ⟨fun _ => ⟨_, _, rfl, rfl⟩, fun _ => ⟨_, rfl⟩, fun _ => ?_⟩
    generalize decodePendingTokens _ = decoded at htokens ⊢
    cases decoded with
    | error e => cases htokens
    | ok amounts => exact ⟨_, congrArg Except.ok (Option.some.inj htokens)⟩
  refine ⟨hasked, fun hmeets => ?_⟩
  have hnothing := nothingReported_of_meets hasked hmeets 0 bananaFarm rfl
  have hsome : rawAmounts apeSwap pendingNode exampleWallet 0 bananaFarm.farm ≠ ⟨0, 0, 0⟩ := by
    decide +kernel
  exact hsome hnothing

end BlockchainTask.Defi.RewarderWalletInfo

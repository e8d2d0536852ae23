import BlockchainTask.Defi.FarmContracts

/-! # What a wallet has in the farms of a protocol

`getFarmWalletInfo` stands in the service of every protocol, each time with other
functions, another field, another test. All of them ask for the stake and the
pending reward of every farm, and keep the farms in which there is either. They
are one function of the farms and the raw amounts. -/
namespace BlockchainTask.Defi.FarmWalletInfo
open BlockchainTask.Common.Exception BlockchainTask.Helper BlockchainTask.Helper.Decimals
open BlockchainTask.Library.Abi BlockchainTask.Library.Decimal BlockchainTask.Library.Effect
open BlockchainTask.Multicalls.Aggregator (ownResults)
open BlockchainTask.Multicalls.MultiCall (Returned)
open BlockchainTask.Defi.FarmContracts

/-- What a copy has of its own. -/
structure Copy where
  userInfo : String
  pendingReward : String
  /-- The output of `userInfo` that is the stake. -/
  stakeField : String
  /-- Whether it is the first output that is the reward, and not the result. -/
  unwrapped : Bool
  valid : Bool → Bytes → Bool
  target : FarmEntity → Option String
  /-- The arguments before the wallet. -/
  key : FarmEntity → List (Option Argument)

section
variable (copy : Copy) (abi : Interface)

def walletArguments (walletAddress : String) (farm : FarmEntity) : List (Option Argument) :=
  copy.key farm ++ [some (.address walletAddress)]

def walletInfoEncode (walletAddress : String) (farm : FarmEntity) : Except Thrown (List Call) := do
  let userInfo ← encodeFunction abi copy.userInfo (walletArguments copy walletAddress farm)
  let pendingReward ←
    encodeFunction abi copy.pendingReward (walletArguments copy walletAddress farm)
  pure [⟨copy.target farm, userInfo⟩, ⟨copy.target farm, pendingReward⟩]

/-- What is read of an answer; it is nothing where the result has no such output. -/
def decodedIf (function : String) (value : Fields → Option Number) (returned : Returned) :
    Except Thrown (Option Number) :=
  if copy.valid returned.success returned.data then
    (decodeFunctionResultData abi function returned.data).map value
  else .ok (some ZERO)

def stakeValue (result : Fields) : Option Number :=
  (result.lookup copy.stakeField).map fun amount => .finite amount

def rewardValue (result : Fields) : Option Number :=
  if copy.unwrapped then result.head?.map fun output => .finite output.2
  else some (numberOf (result.map Prod.snd))

/-- A farm with what the wallet has in it, if it has anything. -/
def walletFarm (farm : FarmEntity) (walletInfo pendingReward : Returned) :
    Except Thrown (Option FarmEntity) := do
  let staked ← decodedIf copy abi copy.userInfo (stakeValue copy) walletInfo
  let reward ← decodedIf copy abi copy.pendingReward (rewardValue copy) pendingReward
  let walletStakedAmount ← present staked
  let walletRewardAmount ← present reward
  if isZero walletStakedAmount && isZero walletRewardAmount then pure none
  else do
    let targetStakeToken ← present farm.stake_tokens[0]?
    let targetRewardToken ← present farm.reward_tokens[0]?
    let stake_amount := divideDecimals walletStakedAmount targetStakeToken.decimals
    let reward_amount := divideDecimals walletRewardAmount targetRewardToken.decimals
    pure (if isZero stake_amount && isZero reward_amount then none
      else some { farm with wallet := some ⟨[stake_amount], [reward_amount]⟩ })

/-- The two results of a farm, which are destructured. -/
def zippedFarm (farm : Option FarmEntity) (walletInfoResult : Option (List Returned)) :
    Except Thrown (Option FarmEntity) :=
  match farm, walletInfoResult with
  | some farm, some (walletInfo :: pendingReward :: _) =>
    walletFarm copy abi farm walletInfo pendingReward
  | _, _ => .error typeError

def getFarmWalletInfo (node : Node) (farms : List FarmEntity) (walletAddress : String) :
    Except Thrown (List FarmEntity) :=
  readFarms 2 (walletInfoEncode copy abi walletAddress) (zippedFarm copy abi) node farms

end

/-! ## The copies -/

/-- The test, where it is written in place. -/
def successWithBytes (success : Bool) (data : Bytes) : Bool := success && !isNullBytes data

/-- A farm of a contract that holds many. -/
def pidOf (farm : FarmEntity) : List (Option Argument) := [farm.pid.map .number]

namespace PancakeSwapBSCService

def farmAddress : String := "0x73feaa1eE314F8c655E354234017bE2193C9E24E"

def farmAbi : Interface := [("userInfo", ["amount", "rewardDebt"]), ("pendingCake", [""])]

def farm : Copy :=
  ⟨"userInfo", "pendingCake", "amount", false, validResult, fun _ => some farmAddress, pidOf⟩

def getFarmWalletInfo := FarmWalletInfo.getFarmWalletInfo farm

def farm2Abi : Interface := [("userInfo", ["amount", "rewardDebt"]), ("pendingReward", [""])]

/-- Each farm is a contract of its own. -/
def farm2 : Copy :=
  ⟨"userInfo", "pendingReward", "amount", false, validResult, fun farm => farm.address, fun _ => []⟩

def getFarm2WalletInfo := FarmWalletInfo.getFarmWalletInfo farm2

end PancakeSwapBSCService

namespace ApeSwapBSCService

def farmAddress : String := "0x5c8D727b265DBAfaba67E050f2f739cAeEB4A6F9"

def farmAbi : Interface := [("userInfo", ["amount", "rewardDebt"]), ("pendingCake", [""])]

def farm : Copy :=
  ⟨"userInfo", "pendingCake", "amount", false, successWithBytes, fun _ => some farmAddress, pidOf⟩

def getFarmWalletInfo := FarmWalletInfo.getFarmWalletInfo farm

end ApeSwapBSCService

namespace AutoFarmBSCService

def farmAddress : String := "0x0895196562C7868C5Be92459FaE7f877ED450452"

def farmAbi : Interface := [("userInfo", ["shares", "rewardDebt"]), ("pendingAUTO", [""])]

def farm : Copy :=
  ⟨"userInfo", "pendingAUTO", "shares", false, successWithBytes, fun _ => some farmAddress, pidOf⟩

def getFarmWalletInfo := FarmWalletInfo.getFarmWalletInfo farm

end AutoFarmBSCService

namespace BiSwapBSCService

def farmAddress : String := "0xDbc1A13490deeF9c3C12b44FE77b503c1B061739"

def farmAbi : Interface := [("userInfo", ["amount", "rewardDebt"]), ("pendingBSW", [""])]

def farm : Copy :=
  ⟨"userInfo", "pendingBSW", "amount", false, successWithBytes, fun _ => some farmAddress, pidOf⟩

def getFarmWalletInfo := FarmWalletInfo.getFarmWalletInfo farm

end BiSwapBSCService

namespace WaultSwapBSCService

def farmAddress : String := "0x22fB2663C7ca71Adc2cc99481C77Aaf21E152e2D"

def farmAbi : Interface :=
  [("userInfo", ["amount", "rewardDebt", "pendingRewards"]), ("pendingWex", [""])]

def farm : Copy :=
  ⟨"userInfo", "pendingWex", "amount", false, validResult, fun _ => some farmAddress, pidOf⟩

def getFarmWalletInfo := FarmWalletInfo.getFarmWalletInfo farm

end WaultSwapBSCService

namespace BakerySwapBSCService

def farmAddress : String := "0x6a8DbBfbB5a57d07D14E63E757FB80B4a7494f81"

def farmAbi : Interface := [("poolUserInfoMap", ["amount", "rewardDebt"]), ("pendingToken", [""])]

/-- A pool goes by its LP token, which is in the farm's data. -/
def lpTokenOf (farm : FarmEntity) : List (Option Argument) :=
  [(farm.data.bind FarmData.lpToken).map .address]

def farm : Copy :=
  ⟨"poolUserInfoMap", "pendingToken", "amount", false, validResult, fun _ => some farmAddress,
    lpTokenOf⟩

def getFarmWalletInfo := FarmWalletInfo.getFarmWalletInfo farm

end BakerySwapBSCService

namespace MdexBSCService

def farmAddress : String := "0xc48FE252Aa631017dF253578B1405ea399728A50"

/-- The pending reward has a second output, which is left. -/
def farmAbi : Interface :=
  [("userInfo", ["amount", "rewardDebt", "multLpRewardDebt"]), ("pending", ["", ""])]

def farm : Copy :=
  ⟨"userInfo", "pending", "amount", true, successWithBytes, fun _ => some farmAddress, pidOf⟩

def getFarmWalletInfo := FarmWalletInfo.getFarmWalletInfo farm

end MdexBSCService

namespace MdexHECOService

def farmAddress : String := "0xFB03e11D93632D97a8981158A632Dd5986F5E909"

def farmAbi : Interface :=
  [("userInfo", ["amount", "rewardDebt", "multLpRewardDebt"]), ("pending", ["", ""])]

def farm : Copy :=
  ⟨"userInfo", "pending", "amount", true, successWithBytes, fun _ => some farmAddress, pidOf⟩

def getFarmWalletInfo := FarmWalletInfo.getFarmWalletInfo farm

end MdexHECOService

/-- The copies with the interfaces that the services have them. -/
def copies : List (Copy × Interface) :=
  [(PancakeSwapBSCService.farm, PancakeSwapBSCService.farmAbi),
    (PancakeSwapBSCService.farm2, PancakeSwapBSCService.farm2Abi),
    (ApeSwapBSCService.farm, ApeSwapBSCService.farmAbi),
    (AutoFarmBSCService.farm, AutoFarmBSCService.farmAbi),
    (BiSwapBSCService.farm, BiSwapBSCService.farmAbi),
    (WaultSwapBSCService.farm, WaultSwapBSCService.farmAbi),
    (BakerySwapBSCService.farm, BakerySwapBSCService.farmAbi),
    (MdexBSCService.farm, MdexBSCService.farmAbi),
    (MdexHECOService.farm, MdexHECOService.farmAbi)]

/-- An interface that a copy can read: the stake is an output, and of the pending
reward there is one, or at least one where the first is taken. -/
structure Fits (copy : Copy) (abi : Interface) : Prop where
  stake : ∃ outputs, abi.lookup copy.userInfo = some outputs ∧ copy.stakeField ∈ outputs
  reward : ∃ outputs, abi.lookup copy.pendingReward = some outputs ∧
    (outputs.length = 1 ∨ copy.unwrapped = true ∧ outputs ≠ [])

/-- Every service has an interface that fits. -/
theorem copies_fit : ∀ c ∈ copies, Fits c.1 c.2 := by
  have hstake : ∀ c ∈ copies, ∃ outputs, c.2.lookup c.1.userInfo = some outputs ∧
      c.1.stakeField ∈ outputs := by
    simp only [copies, List.forall_mem_cons]
    refine ⟨?_, ?_, ?_, ?_, ?_, ?_, ?_, ?_, ?_, by simp⟩ <;> exact ⟨_, rfl, List.mem_cons_self⟩
  have hreward : ∀ c ∈ copies, ∃ outputs, c.2.lookup c.1.pendingReward = some outputs ∧
      (outputs.length = 1 ∨ c.1.unwrapped = true ∧ outputs ≠ []) := by
    simp only [copies, List.forall_mem_cons]
    refine ⟨?_, ?_, ?_, ?_, ?_, ?_, ?_, ?_, ?_, by simp⟩
    all_goals first
      | exact ⟨_, rfl, .inl rfl⟩
      | exact ⟨_, rfl, .inr ⟨rfl, List.cons_ne_nil _ _⟩⟩
  exact fun c hc => ⟨hstake c hc, hreward c hc⟩

/-- The two tests are one. -/
theorem copies_valid : ∀ c ∈ copies, c.1.valid = validResult := by
  simp only [copies, List.forall_mem_cons]
  exact ⟨rfl, rfl, rfl, rfl, rfl, rfl, rfl, rfl, rfl, by simp⟩

/-! ## The reference -/

/-- A farm of a protocol with one reward: it has its stake token and its reward
token. -/
structure SingleRewardFarm where
  farm : FarmEntity
  stakeToken : Token
  rewardToken : Token
  stake : farm.stake_tokens[0]? = some stakeToken
  reward : farm.reward_tokens[0]? = some rewardToken

/-- A farm with the raw amounts in it, in units of its tokens. -/
def walletInfo (f : SingleRewardFarm) (stake reward : ℕ) : Option FarmEntity :=
  if stake = 0 ∧ reward = 0 then none
  else some { f.farm with
    wallet := some ⟨[.finite (stake / 10 ^ f.stakeToken.decimals)],
      [.finite (reward / 10 ^ f.rewardToken.decimals)]⟩ }

/-- The farms in which there is anything, in order. -/
def reference (amounts : List (SingleRewardFarm × ℕ × ℕ)) : List FarmEntity :=
  amounts.filterMap fun a => walletInfo a.1 a.2.1 a.2.2

section
variable {copy : Copy} {abi : Interface}

/-- The raw stake of an answer; a failed or empty one counts as zero. -/
def rawStake (copy : Copy) (abi : Interface) (returned : Returned) : ℕ :=
  if validResult returned.success returned.data then
    ((decodeFunctionResultData abi copy.userInfo returned.data).toOption.bind fun result =>
      result.lookup copy.stakeField).getD 0
  else 0

def rawReward (copy : Copy) (abi : Interface) (returned : Returned) : ℕ :=
  if validResult returned.success returned.data then
    ((decodeFunctionResultData abi copy.pendingReward returned.data).toOption.bind fun result =>
      result.head?.map Prod.snd).getD 0
  else 0

/-- An answer that failed, is empty or decodes. -/
def Answers (abi : Interface) (function : String) (returned : Returned) : Prop :=
  validResult returned.success returned.data = true →
    ∃ result, decodeFunctionResultData abi function returned.data = .ok result

/-- What can be sent: the farm has the keys by which the protocol knows it. -/
structure Addressed (copy : Copy) (farm : FarmEntity) : Prop where
  target : (copy.target farm).isSome = true
  key : ∀ argument ∈ copy.key farm, argument.isSome = true

theorem decodedIf_stake (hvalid : copy.valid = validResult) (hfits : Fits copy abi)
    {returned : Returned} (hanswer : Answers abi copy.userInfo returned) :
    decodedIf copy abi copy.userInfo (stakeValue copy) returned =
      .ok (some (.finite (rawStake copy abi returned))) := by
  unfold decodedIf rawStake
  rw [hvalid]
  by_cases hchecked : validResult returned.success returned.data = true
  · obtain ⟨result, hresult⟩ := hanswer hchecked
    obtain ⟨outputs, houtputs, hfield⟩ := hfits.stake
    obtain ⟨outputs', houtputs', rfl⟩ := decodeFunctionResultData_ok hresult
    obtain rfl := Option.some.inj (houtputs.symm.trans houtputs')
    obtain ⟨amount, hamount⟩ :=
      Option.isSome_iff_exists.mp (lookup_fieldsOf hfield returned.data)
    simp [hchecked, hresult, stakeValue, hamount, Except.map, Except.toOption]
  · simp [hchecked, ZERO]

/-- One output, or the first one, is the reward. -/
theorem rewardValue_eq {result : Fields}
    (h : result.length = 1 ∨ copy.unwrapped = true ∧ result ≠ []) :
    rewardValue copy result = some (.finite ((result.head?.map Prod.snd).getD 0 : ℕ)) := by
  unfold rewardValue
  cases result with
  | nil => simp at h
  | cons output rest =>
    by_cases hunwrapped : copy.unwrapped = true
    · simp [hunwrapped]
    · have hrest : rest = [] := by simpa [hunwrapped] using h
      simp [hunwrapped, hrest, numberOf]

theorem decodedIf_reward (hvalid : copy.valid = validResult) (hfits : Fits copy abi)
    {returned : Returned} (hanswer : Answers abi copy.pendingReward returned) :
    decodedIf copy abi copy.pendingReward (rewardValue copy) returned =
      .ok (some (.finite (rawReward copy abi returned))) := by
  unfold decodedIf rawReward
  rw [hvalid]
  by_cases hchecked : validResult returned.success returned.data = true
  · obtain ⟨result, hresult⟩ := hanswer hchecked
    obtain ⟨outputs, houtputs, hreads⟩ := hfits.reward
    obtain ⟨outputs', houtputs', rfl⟩ := decodeFunctionResultData_ok hresult
    obtain rfl := Option.some.inj (houtputs.symm.trans houtputs')
    have hfields : (fieldsOf outputs returned.data).length = 1 ∨
        copy.unwrapped = true ∧ fieldsOf outputs returned.data ≠ [] := by
      rw [length_fieldsOf, ← List.length_pos_iff, length_fieldsOf, List.length_pos_iff]
      exact hreads
    simp [hchecked, hresult, rewardValue_eq hfields, Except.map, Except.toOption]
  · simp [hchecked, ZERO]

/-- **One farm.** -/
theorem walletFarm_eq (hvalid : copy.valid = validResult) (hfits : Fits copy abi)
    (f : SingleRewardFarm) {userInfo pendingReward : Returned}
    (hstake : Answers abi copy.userInfo userInfo)
    (hreward : Answers abi copy.pendingReward pendingReward) :
    walletFarm copy abi f.farm userInfo pendingReward =
      .ok (walletInfo f (rawStake copy abi userInfo) (rawReward copy abi pendingReward)) := by
  have hpow : ∀ decimals : ℕ, (10 : ℚ) ^ decimals ≠ 0 := fun decimals => (pow_ten_pos decimals).ne'
  unfold walletFarm walletInfo
  rw [decodedIf_stake hvalid hfits hstake, decodedIf_reward hvalid hfits hreward, f.stake, f.reward]
  generalize rawStake copy abi userInfo = stake
  generalize rawReward copy abi pendingReward = reward
  by_cases hzero : stake = 0 ∧ reward = 0
  · rw [if_pos hzero]
    simp [present, hzero.1, hzero.2]
    rfl
  · rw [if_neg hzero]
    have hraw : (isZero (.finite (stake : ℚ)) && isZero (.finite (reward : ℚ))) = false := by
      simpa using hzero
    show (if isZero (.finite (stake : ℚ)) && isZero (.finite (reward : ℚ)) then _ else _) = _
    rw [hraw]
    simp [present, hpow, hzero]
    rfl

/-! ## A list of farms -/

def userInfoCall (copy : Copy) (walletAddress : String) (farm : FarmEntity) : Call :=
  ⟨copy.target farm, ⟨copy.userInfo, walletArguments copy walletAddress farm⟩⟩

def pendingRewardCall (copy : Copy) (walletAddress : String) (farm : FarmEntity) : Call :=
  ⟨copy.target farm, ⟨copy.pendingReward, walletArguments copy walletAddress farm⟩⟩

def walletCalls (copy : Copy) (walletAddress : String) (farm : FarmEntity) : List Call :=
  [userInfoCall copy walletAddress farm, pendingRewardCall copy walletAddress farm]

/-- A request that the node answers: the farms of the protocol by their keys, each
of the two calls of a farm failed, empty or with what its interface says. -/
structure Asked (copy : Copy) (abi : Interface) (node : Node) (walletAddress : String)
    (farms : List SingleRewardFarm) : Prop where
  fits : Fits copy abi
  sent : node.fault = none
  addressed : ∀ f ∈ farms, Addressed copy f.farm
  userInfo : ∀ i f, farms[i]? = some f → Answers abi copy.userInfo
    (node.answer (i * 2) (userInfoCall copy walletAddress f.farm))
  pendingReward : ∀ i f, farms[i]? = some f → Answers abi copy.pendingReward
    (node.answer (i * 2 + 1) (pendingRewardCall copy walletAddress f.farm))

/-- The raw amounts of each farm, by the answers to its own calls. -/
def amounts (copy : Copy) (abi : Interface) (node : Node) (walletAddress : String)
    (farms : List SingleRewardFarm) : List (SingleRewardFarm × ℕ × ℕ) :=
  farms.mapIdx fun i f =>
    (f, rawStake copy abi (node.answer (i * 2) (userInfoCall copy walletAddress f.farm)),
      rawReward copy abi (node.answer (i * 2 + 1) (pendingRewardCall copy walletAddress f.farm)))

theorem encodeFunction_ok {function : String} {arguments : List (Option Argument)}
    (hfunction : (abi.lookup function).isSome = true)
    (harguments : ∀ argument ∈ arguments, argument.isSome = true) :
    encodeFunction abi function arguments = .ok ⟨function, arguments⟩ := by
  rw [encodeFunction, if_pos]
  rw [Bool.and_eq_true]
  exact ⟨hfunction, List.all_eq_true.mpr harguments⟩

theorem walletInfoEncode_ok (hfits : Fits copy abi) {walletAddress : String} {farm : FarmEntity}
    (h : Addressed copy farm) :
    walletInfoEncode copy abi walletAddress farm = .ok (walletCalls copy walletAddress farm) := by
  obtain ⟨outputs, houtputs, _⟩ := hfits.stake
  obtain ⟨outputs', houtputs', _⟩ := hfits.reward
  have harguments : ∀ argument ∈ walletArguments copy walletAddress farm,
      argument.isSome = true := by
    intro argument hargument
    rcases List.mem_append.mp hargument with hkey | hwallet
    · exact h.key argument hkey
    · rw [List.mem_singleton.mp hwallet]
      rfl
  unfold walletInfoEncode
  rw [encodeFunction_ok (by rw [houtputs]; rfl) harguments,
    encodeFunction_ok (by rw [houtputs']; rfl) harguments]
  rfl

/-- **A copy is the reference** on the raw amounts that it reads. -/
theorem getFarmWalletInfo_of_asked (hvalid : copy.valid = validResult) {node : Node}
    {walletAddress : String} {farms : List SingleRewardFarm}
    (h : Asked copy abi node walletAddress farms) :
    getFarmWalletInfo copy abi node (farms.map SingleRewardFarm.farm) walletAddress =
      .ok (reference (amounts copy abi node walletAddress farms)) := by
  have htargets : ∀ f ∈ farms, ∀ call ∈ walletCalls copy walletAddress f.farm,
      call.target.isSome = true := by
    intro f hf call hcall
    have htarget := (h.addressed f hf).target
    rcases List.mem_pair.mp hcall with rfl | rfl
    · exact htarget
    · exact htarget
  have hread : getFarmWalletInfo copy abi node (farms.map SingleRewardFarm.farm) walletAddress =
      .ok ((farms.mapIdx fun i f => walletInfo f
        (rawStake copy abi (node.answer (i * 2) (userInfoCall copy walletAddress f.farm)))
        (rawReward copy abi (node.answer (i * 2 + 1)
          (pendingRewardCall copy walletAddress f.farm)))).filterMap id) :=
    readFarms_ok (walletCalls copy walletAddress) (by decide) h.sent SingleRewardFarm.farm
      (fun f hf => walletInfoEncode_ok h.fits (h.addressed f hf))
      (fun _ _ => rfl) htargets fun i f hf =>
        walletFarm_eq hvalid h.fits f (h.userInfo i f hf) (h.pendingReward i f hf)
  rw [hread]
  simp only [reference, amounts, List.mapIdx_eq_zipIdx_map, List.filterMap_map]
  rfl

/-- For every farm service, every list of its farms and whatever the calls give:
a wallet's farms are the reference of the raw amounts. -/
theorem getFarmWalletInfo_eq_reference (c : Copy × Interface) (hcopy : c ∈ copies)
    (abi : Interface) (node : Node) (walletAddress : String) (farms : List SingleRewardFarm)
    (h : Asked c.1 abi node walletAddress farms) :
    getFarmWalletInfo c.1 abi node (farms.map SingleRewardFarm.farm) walletAddress =
      .ok (reference (amounts c.1 abi node walletAddress farms)) :=
  getFarmWalletInfo_of_asked (copies_valid c hcopy) h

/-! ## A farm with a stake -/

def exampleWallet : String := "0x2222222222222222222222222222222222222222"

def lpToken : Token := ⟨"0x0eD7e52944161450477ee417DE9Cd3a859b14fD0", 18⟩

def cake : Token := ⟨"0x0E09FaBB73Bd3Ade0a17ECC321fD13a19e81cE82", 18⟩

def cakeFarm : SingleRewardFarm where
  farm := ⟨⟨7, 1, "farm", some PancakeSwapBSCService.farmAddress, some 251⟩, none, [lpToken], [cake],
    none⟩
  stakeToken := lpToken
  rewardToken := cake
  stake := rfl
  reward := rfl

/-- Five LP tokens are staked, and the pending reward is not answered. -/
def cakeNode : Node where
  answer _ call := if call.data.function = "userInfo" then
      ⟨true, encodeWord (5 * 10 ^ 18) ++ encodeWord 0⟩
    else ⟨false, []⟩
  fault := none

theorem getFarmWalletInfo_cakeFarm :
    getFarmWalletInfo PancakeSwapBSCService.farm PancakeSwapBSCService.farmAbi cakeNode
        [cakeFarm.farm] exampleWallet =
      .ok [{ cakeFarm.farm with wallet := some ⟨[.finite 5], [.finite 0]⟩ }] := by
  refine (getFarmWalletInfo_eq_reference
    (PancakeSwapBSCService.farm, PancakeSwapBSCService.farmAbi) List.mem_cons_self
    PancakeSwapBSCService.farmAbi cakeNode exampleWallet [cakeFarm] ?_).trans
      (congrArg Except.ok (by decide +kernel))
  have hone : ∀ i f, [cakeFarm][i]? = some f → i = 0 ∧ f = cakeFarm := by
    intro i f hf
    cases i with
    | zero => exact ⟨rfl, (Option.some.inj hf).symm⟩
    | succ i => cases hf
  refine ⟨copies_fit _ List.mem_cons_self, rfl, ?_, ?_, ?_⟩
  · intro f hf
    rw [List.mem_singleton.mp hf]
    exact ⟨rfl, by simp [PancakeSwapBSCService.farm, pidOf, cakeFarm]⟩
  · intro i f hf _
    obtain ⟨rfl, rfl⟩ := hone i f hf
    exact ⟨_, rfl⟩
  · intro i f hf hvalid
    obtain ⟨rfl, rfl⟩ := hone i f hf
    cases hvalid

end

end BlockchainTask.Defi.FarmWalletInfo

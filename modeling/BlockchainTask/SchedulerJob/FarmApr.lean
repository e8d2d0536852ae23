import BlockchainTask.SchedulerJob.AutoFarm
import BlockchainTask.SchedulerJob.BakeryFarm
import BlockchainTask.SchedulerJob.Farm2
import BlockchainTask.SchedulerJob.RewarderFarm

/-! # The APR of a refresh

Every job divides the rewards of a year by the value of what is staked. Most jobs
test both for zero before they do, AutoFarm and the farm2 job only the rewards,
and SushiSwap divides a reward that is no number. So the quotient is a number in
some jobs only for a pool in which something of value is staked, and in one job
only where nothing is. -/
namespace BlockchainTask.SchedulerJob.FarmApr
open BlockchainTask.Common.Exception BlockchainTask.Helper.Decimals
open BlockchainTask.Library.Decimal BlockchainTask.Library.Effect BlockchainTask.Library.Transaction
open BlockchainTask.Library.Store
open BlockchainTask.Repository.Farm BlockchainTask.SchedulerJob.Base
open BlockchainTask.SchedulerJob.FarmTemplate

/-! ## The two ways to divide -/

section
variable {allocated : Number} {liquidityValue : ℚ}

/-- What a nonzero divisor gives. -/
theorem isNonneg_percent (halloc : allocated.IsNonneg) (hvalue : 0 < liquidityValue) :
    (mul (div allocated (.finite liquidityValue)) (.finite 100)).IsNonneg :=
  (halloc.dividedBy hvalue).times (show (0 : ℚ) ≤ 100 by norm_num)

theorem not_isNonneg_percent {liquidity : Number} (h : ¬(div allocated liquidity).IsFinite) :
    ¬(mul (div allocated liquidity) (.finite 100)).IsNonneg := fun hnonneg =>
  h (Number.isFinite_times.mp hnonneg.isFinite).1

/-- Rewards and liquidity are both tested. -/
theorem isNonneg_guarded (hnonneg : allocated.IsFinite → allocated.IsNonneg)
    (hvalue : 0 ≤ liquidityValue) :
    (if isZero allocated || isZero (.finite liquidityValue) then ZERO
      else mul (div allocated (.finite liquidityValue)) (.finite 100)).IsNonneg ↔
      liquidityValue = 0 ∨ allocated.IsFinite := by
  by_cases hzero : liquidityValue = 0
  · simp [hzero, ZERO]
  · have hpos : 0 < liquidityValue := lt_of_le_of_ne hvalue (Ne.symm hzero)
    rw [or_iff_right hzero, isZero_finite, decide_eq_false hzero, Bool.or_false]
    by_cases hallocated : isZero allocated = true
    · rw [if_pos hallocated, isZero_iff.mp hallocated]
      simp [ZERO]
    · rw [if_neg hallocated]
      refine ⟨fun h => ?_, fun h => isNonneg_percent (hnonneg h) hpos⟩
      by_contra hinfinite
      exact not_isNonneg_percent (Number.not_isFinite_dividedBy hinfinite) h

/-- Only the rewards are tested. -/
theorem isNonneg_rewardGuarded (hnonneg : allocated.IsFinite → allocated.IsNonneg)
    (hvalue : 0 ≤ liquidityValue) :
    (if isZero allocated then ZERO
      else mul (div allocated (.finite liquidityValue)) (.finite 100)).IsNonneg ↔
      allocated.IsFinite ∧ (allocated = .finite 0 ∨ liquidityValue ≠ 0) := by
  by_cases hallocated : isZero allocated = true
  · rw [if_pos hallocated, isZero_iff.mp hallocated]
    simp [ZERO]
  · rw [if_neg hallocated, or_iff_right (fun h => hallocated (isZero_iff.mpr h))]
    constructor
    · intro h
      refine ⟨?_, ?_⟩
      · by_contra hinfinite
        exact not_isNonneg_percent (Number.not_isFinite_dividedBy hinfinite) h
      · intro hzero
        rw [hzero] at h
        exact not_isNonneg_percent (Number.not_isFinite_dividedBy_zero _ _) h
    · rintro ⟨hfinite, hne⟩
      exact isNonneg_percent (hnonneg hfinite) (lt_of_le_of_ne hvalue (Ne.symm hne))

end

/-! ## What a refresh is computed from -/

/-- A staking token and how much of it is staked. -/
structure Stake where
  token : FarmToken
  amount : ℕ

def Stake.liquidityValue (stake : Stake) : ℚ :=
  stake.amount / 10 ^ stake.token.decimals * stake.token.price_value

def Stake.Worthless (stake : Stake) : Prop := stake.amount = 0 ∨ stake.token.price_value = 0

theorem Stake.liquidityValue_eq (stake : Stake) :
    mul (divideDecimals (.finite stake.amount) stake.token.decimals)
      (.finite stake.token.price_value) = .finite stake.liquidityValue := by
  rw [divideDecimals_finite, mul_finite]
  rfl

theorem Stake.liquidityValue_eq_zero_iff (stake : Stake) :
    stake.liquidityValue = 0 ↔ stake.Worthless := by
  have hpos := pow_ten_pos stake.token.decimals
  unfold Stake.liquidityValue Stake.Worthless
  rw [mul_eq_zero, div_eq_zero_iff, or_iff_left hpos.ne', Nat.cast_eq_zero]

theorem Stake.liquidityValue_ne_zero_iff (stake : Stake) :
    stake.liquidityValue ≠ 0 ↔ ¬stake.Worthless := not_congr stake.liquidityValue_eq_zero_iff

theorem Stake.liquidityValue_nonneg {stake : Stake} (h : 0 ≤ stake.token.price_value) :
    0 ≤ stake.liquidityValue :=
  mul_nonneg (div_nonneg (Nat.cast_nonneg _) (pow_ten_pos _).le) h

/-- A quotient of `a` by `b` that has no digit in the places kept. -/
def Negligible (a b : ℕ) : Prop := 2 * a * 10 ^ DECIMAL_PLACES < b

/-- A refresh of each job, with all that its APR depends on. -/
inductive Refresh where
  | pancakeSwapBSC (context : Context) (totalAllocPoint rewardPerBlock allocPoint : ℕ)
      (stake : Stake)
  | apeSwapBSC (context : Context) (totalAllocPoint rewardPerBlock allocPoint : ℕ) (stake : Stake)
  | waultSwapBSC (context : Context) (totalAllocPoint rewardPerBlock allocPoint : ℕ)
      (stake : Stake)
  | bakerySwapBSC (context : Context) (totalAllocPoint rewardPerBlock allocPoint : ℕ)
      (stake : Stake)
  | biSwapBSC (context : Context) (totalAllocPoint BSWPerBlock stakingPercent percentDec : ℕ)
      (allocPoint : ℕ) (stake : Stake)
  | autoFarmBSC (context : Context) (totalAllocPoint rewardPerBlock : ℕ)
      (info : AutoFarm.AutoPoolInfo) (stake : Stake)
  | mdexBSC (context : Context) (rewards : Mdex.Rewards) (allocPoint : ℕ) (stake : Stake)
  | mdexHECO (context : Context) (rewards : Mdex.Rewards) (allocPoint : ℕ) (stake : Stake)
  | sushiSwapMATIC (env : RewarderFarm.RewarderEnv) (pid : ℕ) (info : RewarderFarm.RewarderPoolInfo)
      (rewarderRewardToken : Option FarmToken) (stake : Stake)
  | apeSwapMATIC (env : RewarderFarm.RewarderEnv) (bananaPerSecond : ℕ)
      (rewardToken : ℕ → String → Except Thrown String) (pid : ℕ)
      (info : RewarderFarm.RewarderPoolInfo) (rewarderRewardToken : Option FarmToken)
      (stake : Stake)
  | pancakeSwapBSC2 (env : Farm2.Env) (reward : ℚ) (rewardToken : FarmToken) (stake : Stake)

/-- The columns of a refresh on a state of the rewards. -/
def columnsOf (getFarmState : Except Thrown FarmState) (allocPoint : ℕ) (stake : Stake) :
    Except Thrown FarmSet :=
  getFarmState.map fun farmState => refreshed farmState allocPoint stake.token stake.amount

def stakedState (context : Context) (totalAllocPoint : ℕ) (rewardPerBlock : Number) :
    Except Thrown FarmState :=
  Staked.getFarmState context ⟨.ok totalAllocPoint, .ok rewardPerBlock⟩

def rewarderState (service : RewarderFarm.RewardService) (env : RewarderFarm.RewarderEnv) (pid : ℕ)
    (info : RewarderFarm.RewarderPoolInfo) (rewarderRewardToken : Option FarmToken) :
    Except Thrown FarmState := do
  let state ← RewarderFarm.getRewardState service env
  RewarderFarm.getFarmState env state pid info rewarderRewardToken

/-- The columns that a refresh writes, from the state its job computes. -/
def Refresh.columns : Refresh → Except Thrown FarmSet
  | pancakeSwapBSC context totalAllocPoint rewardPerBlock allocPoint stake
  | apeSwapBSC context totalAllocPoint rewardPerBlock allocPoint stake
  | waultSwapBSC context totalAllocPoint rewardPerBlock allocPoint stake
  | bakerySwapBSC context totalAllocPoint rewardPerBlock allocPoint stake =>
    columnsOf (stakedState context totalAllocPoint (.finite rewardPerBlock)) allocPoint stake
  | biSwapBSC context totalAllocPoint BSWPerBlock stakingPercent percentDec allocPoint stake =>
    columnsOf (stakedState context totalAllocPoint
      (BiSwapBSCService.getFarmRewardPerBlock BSWPerBlock stakingPercent percentDec))
      allocPoint stake
  | autoFarmBSC context totalAllocPoint rewardPerBlock info stake =>
    (stakedState context totalAllocPoint (.finite rewardPerBlock)).map fun farmState =>
      AutoFarm.refreshed farmState info stake.token stake.amount
  | mdexBSC context rewards allocPoint stake
  | mdexHECO context rewards allocPoint stake =>
    columnsOf (Mdex.getFarmState context rewards) allocPoint stake
  | sushiSwapMATIC env pid info rewarderRewardToken stake =>
    (columnsOf (rewarderState RewarderFarm.SushiSwapMATICService.rewardService env pid info
      rewarderRewardToken) info.allocPoint stake).map
        (FarmSet.withData (RewarderFarm.rewarderData info.rewarder))
  | apeSwapMATIC env bananaPerSecond rewardToken pid info rewarderRewardToken stake =>
    (columnsOf (rewarderState (RewarderFarm.ApeSwapMATICService.rewardService
      (.ok bananaPerSecond) rewardToken) env pid info rewarderRewardToken) info.allocPoint
      stake).map (FarmSet.withData (RewarderFarm.rewarderData info.rewarder))
  | pancakeSwapBSC2 env reward rewardToken stake =>
    .ok (Farm2.refreshed env (.finite reward) stake.token rewardToken stake.amount)

/-- The body of a refresh in each job, with the answers that the run hands to it and the
pool that it is about. -/
inductive Body where
  | pancakeSwapBSC (env : Env PoolInfo) (totalAllocPoint rewardPerBlock pid : ℕ) (info : PoolInfo)
  | apeSwapBSC (env : Env PoolInfo) (totalAllocPoint rewardPerBlock pid : ℕ) (info : PoolInfo)
  | waultSwapBSC (env : Env PoolInfo) (totalAllocPoint rewardPerBlock pid : ℕ) (info : PoolInfo)
  | bakerySwapBSC (env : BakeryFarm.BakeryEnv) (totalAllocPoint rewardPerBlock pid : ℕ)
      (info : BakeryFarm.BakeryPoolInfo)
  | biSwapBSC (env : Env PoolInfo) (totalAllocPoint BSWPerBlock stakingPercent percentDec pid : ℕ)
      (info : PoolInfo)
  | autoFarmBSC (env : AutoFarm.AutoEnv) (totalAllocPoint rewardPerBlock pid : ℕ)
      (info : AutoFarm.AutoPoolInfo)
  | mdexBSC (env : Env Mdex.MdexPoolInfo) (rewards : Mdex.Rewards) (pid : ℕ)
      (info : Mdex.MdexPoolInfo)
  | mdexHECO (env : Env Mdex.MdexPoolInfo) (rewards : Mdex.Rewards) (pid : ℕ)
      (info : Mdex.MdexPoolInfo)
  | sushiSwapMATIC (env : RewarderFarm.RewarderEnv) (pid : ℕ) (info : RewarderFarm.RewarderPoolInfo)
      (rewarderRewardToken : Option FarmToken)
  | apeSwapMATIC (env : RewarderFarm.RewarderEnv) (bananaPerSecond : ℕ)
      (rewardToken : ℕ → String → Except Thrown String) (pid : ℕ)
      (info : RewarderFarm.RewarderPoolInfo) (rewarderRewardToken : Option FarmToken)
  | pancakeSwapBSC2 (env : Farm2.Env) (reward : ℚ) (pid : ℕ) (farmInfo : Farm2.SmartChef)

def stakedBody (pools : Pools PoolInfo) (env : Env PoolInfo) (totalAllocPoint : ℕ)
    (rewardPerBlock : Number) (pid : ℕ) (info : PoolInfo) : JobEff Farms Unit := do
  let farmState ← .await (stakedState env.context totalAllocPoint rewardPerBlock)
  refreshFarm pools env farmState pid info

def mdexBody (env : Env Mdex.MdexPoolInfo) (rewards : Mdex.Rewards) (pid : ℕ)
    (info : Mdex.MdexPoolInfo) : JobEff Farms Unit := do
  let farmState ← .await (Mdex.getFarmState env.context rewards)
  refreshFarm Mdex.pools env farmState pid info

def rewarderBody (service : RewarderFarm.RewardService) (env : RewarderFarm.RewarderEnv) (pid : ℕ)
    (info : RewarderFarm.RewarderPoolInfo) (rewarderRewardToken : Option FarmToken) :
    JobEff Farms Unit := do
  let state ← .await (RewarderFarm.getRewardState service env)
  RewarderFarm.refreshFarm env state pid info rewarderRewardToken

/-- The run of a body, from the state that its job computes. -/
def Body.refreshFarm : Body → JobEff Farms Unit
  | pancakeSwapBSC env totalAllocPoint rewardPerBlock pid info
  | waultSwapBSC env totalAllocPoint rewardPerBlock pid info =>
    stakedBody Staked.pools env totalAllocPoint (.finite rewardPerBlock) pid info
  | apeSwapBSC env totalAllocPoint rewardPerBlock pid info =>
    stakedBody ApeSwapBSCFarmService.pools env totalAllocPoint (.finite rewardPerBlock) pid info
  | biSwapBSC env totalAllocPoint BSWPerBlock stakingPercent percentDec pid info =>
    stakedBody Staked.pools env totalAllocPoint
      (BiSwapBSCService.getFarmRewardPerBlock BSWPerBlock stakingPercent percentDec) pid info
  | bakerySwapBSC env totalAllocPoint rewardPerBlock pid info => do
    let farmState ← .await (stakedState env.context totalAllocPoint (.finite rewardPerBlock))
    BakeryFarm.refreshFarm env farmState pid info
  | autoFarmBSC env totalAllocPoint rewardPerBlock pid info => do
    let farmState ← .await (stakedState env.context totalAllocPoint (.finite rewardPerBlock))
    AutoFarm.refreshFarm env farmState pid info
  | mdexBSC env rewards pid info
  | mdexHECO env rewards pid info => mdexBody env rewards pid info
  | sushiSwapMATIC env pid info rewarderRewardToken =>
    rewarderBody RewarderFarm.SushiSwapMATICService.rewardService env pid info rewarderRewardToken
  | apeSwapMATIC env bananaPerSecond rewardToken pid info rewarderRewardToken =>
    rewarderBody (RewarderFarm.ApeSwapMATICService.rewardService (.ok bananaPerSecond) rewardToken)
      env pid info rewarderRewardToken
  | pancakeSwapBSC2 env reward pid farmInfo =>
    Farm2.refreshFarm env pid { farmInfo with reward := .finite reward }

/-- The refresh of a body on a stake that it may find, and in the farm2 job on a reward
token. -/
def Body.refresh (stake : Stake) (rewardToken : FarmToken) : Body → Refresh
  | pancakeSwapBSC env totalAllocPoint rewardPerBlock _ info =>
    .pancakeSwapBSC env.context totalAllocPoint rewardPerBlock info.allocPoint stake
  | apeSwapBSC env totalAllocPoint rewardPerBlock _ info =>
    .apeSwapBSC env.context totalAllocPoint rewardPerBlock info.allocPoint stake
  | waultSwapBSC env totalAllocPoint rewardPerBlock _ info =>
    .waultSwapBSC env.context totalAllocPoint rewardPerBlock info.allocPoint stake
  | bakerySwapBSC env totalAllocPoint rewardPerBlock _ info =>
    .bakerySwapBSC env.context totalAllocPoint rewardPerBlock info.allocPoint stake
  | biSwapBSC env totalAllocPoint BSWPerBlock stakingPercent percentDec _ info =>
    .biSwapBSC env.context totalAllocPoint BSWPerBlock stakingPercent percentDec info.allocPoint
      stake
  | autoFarmBSC env totalAllocPoint rewardPerBlock _ info =>
    .autoFarmBSC env.context totalAllocPoint rewardPerBlock info stake
  | mdexBSC env rewards _ info => .mdexBSC env.context rewards info.allocPoint stake
  | mdexHECO env rewards _ info => .mdexHECO env.context rewards info.allocPoint stake
  | sushiSwapMATIC env pid info rewarderRewardToken =>
    .sushiSwapMATIC env pid info rewarderRewardToken stake
  | apeSwapMATIC env bananaPerSecond rewardToken pid info rewarderRewardToken =>
    .apeSwapMATIC env bananaPerSecond rewardToken pid info rewarderRewardToken stake
  | pancakeSwapBSC2 env reward _ _ => .pancakeSwapBSC2 env reward rewardToken stake

/-- The contract's `phase`: how many halving periods are over before a block.
What is no block has none. -/
structure PhasesOf (rewards : Mdex.Rewards) : Prop where
  whole : ∀ period start block phase, rewards.getFarmHalvingPeriod = .ok period →
    rewards.getFarmStartBlock = .ok start → rewards.getFarmPhase (.finite block) = .ok phase →
    (period = 0 → phase = 0) ∧ (period ≠ 0 → block ≤ (phase + 1) * period + start) ∧
      (phase ≠ 0 → phase * period + start < block)
  unbounded : ∀ negative phase, rewards.getFarmPhase (.infinite negative) ≠ .ok phase

/-- An allocation within the total, and prices that are not negative. -/
structure Allocated (allocPoint totalAllocPoint : ℕ) (rewardToken stakeToken : FarmToken) :
    Prop where
  allocated : allocPoint ≠ 0
  within : allocPoint ≤ totalAllocPoint
  rewardPrice : 0 ≤ rewardToken.price_value
  stakePrice : 0 ≤ stakeToken.price_value

def Refresh.Valid : Refresh → Prop
  | pancakeSwapBSC context totalAllocPoint _ allocPoint stake
  | apeSwapBSC context totalAllocPoint _ allocPoint stake
  | waultSwapBSC context totalAllocPoint _ allocPoint stake
  | bakerySwapBSC context totalAllocPoint _ allocPoint stake
  | biSwapBSC context totalAllocPoint _ _ _ allocPoint stake =>
    Allocated allocPoint totalAllocPoint context.token stake.token
  | autoFarmBSC context totalAllocPoint _ info stake =>
    Allocated info.allocPoint totalAllocPoint context.token stake.token
  | mdexBSC context rewards allocPoint stake
  | mdexHECO context rewards allocPoint stake =>
    PhasesOf rewards ∧ ∀ totalAllocPoint, rewards.getFarmTotalAllocPoint = .ok totalAllocPoint →
      Allocated allocPoint totalAllocPoint context.token stake.token
  | sushiSwapMATIC env _ info rewarderRewardToken stake
  | apeSwapMATIC env _ _ _ info rewarderRewardToken stake =>
    (∀ token, rewarderRewardToken = some token → 0 ≤ token.price_value) ∧
      ∀ totalAllocPoint, env.getFarmTotalAllocPoint = .ok totalAllocPoint →
        Allocated info.allocPoint totalAllocPoint env.context.token stake.token
  | pancakeSwapBSC2 _ reward rewardToken stake =>
    0 ≤ reward ∧ 0 ≤ rewardToken.price_value ∧ 0 ≤ stake.token.price_value

/-- When the division of a refresh has a number as its result. -/
def Refresh.Guarded : Refresh → Prop
  | pancakeSwapBSC context _ _ _ stake
  | apeSwapBSC context _ _ _ stake
  | waultSwapBSC context _ _ _ stake
  | bakerySwapBSC context _ _ _ stake => stake.Worthless ∨ context.blockTimeSecond ≠ 0
  | biSwapBSC context _ _ _ percentDec _ stake =>
    stake.Worthless ∨ percentDec ≠ 0 ∧ context.blockTimeSecond ≠ 0
  | autoFarmBSC context totalAllocPoint rewardPerBlock info stake =>
    context.blockTimeSecond ≠ 0 ∧
      (rewardPerBlock = 0 ∨ context.token.price_value = 0 ∨
        Negligible ONE_DAY_SECONDS context.blockTimeSecond ∨
        Negligible info.allocPoint totalAllocPoint ∨ ¬stake.Worthless)
  | mdexBSC .. | mdexHECO .. | apeSwapMATIC .. => True
  | sushiSwapMATIC _ _ _ _ stake => stake.Worthless
  | pancakeSwapBSC2 env reward rewardToken stake =>
    env.context.blockTimeSecond ≠ 0 ∧
      (reward = 0 ∨ rewardToken.price_value = 0 ∨
        Negligible ONE_DAY_SECONDS env.context.blockTimeSecond ∨ ¬stake.Worthless)

/-- The APR that a set of columns writes is a number, finite and not negative. -/
def WritesNumber (set : FarmSet) : Prop :=
  ∀ row, ∃ apr, (set.apply row).apr = some apr ∧ apr.IsNonneg

theorem writesNumber_refreshed (amount value apr : Number) :
    WritesNumber (.refreshed amount value apr) ↔ apr.IsNonneg := by
  constructor
  · intro h
    obtain ⟨written, hwritten, hnonneg⟩ :=
      h (.new ⟨0, "", "", 0⟩ "" [] [])
    rwa [← Option.some.inj hwritten] at hnonneg
  · exact fun h _ => ⟨apr, rfl, h⟩

theorem writesNumber_withData {data : String} {set : FarmSet} :
    WritesNumber (set.withData data) ↔ WritesNumber set := Iff.rfl

/-! ## The rewards of a year -/

section
variable {context : Context} {reward : Number} {totalAllocPoint : ℕ}

theorem isFinite_blocks {blockTimeSecond : ℕ} :
    (div (.finite ONE_DAY_SECONDS) (.finite blockTimeSecond)).IsFinite ↔ blockTimeSecond ≠ 0 := by
  by_cases hzero : blockTimeSecond = 0
  · have hinfinite := Number.not_isFinite_dividedBy_zero DECIMAL_PLACES (.finite ONE_DAY_SECONDS)
    simpa [hzero, div] using hinfinite
  · have hne : (blockTimeSecond : ℚ) ≠ 0 := by exact_mod_cast hzero
    rw [div_finite hne]
    simp [hzero]

theorem isNonneg_natCast_div {a b : ℕ} (hb : b ≠ 0) :
    (div (.finite a) (.finite b)).IsNonneg := by
  have ha : (Number.finite (a : ℚ)).IsNonneg := Nat.cast_nonneg a
  have hpos : (0 : ℚ) < b := by exact_mod_cast Nat.pos_of_ne_zero hb
  exact ha.dividedBy hpos

/-- The value of a year, from the amount of a day. -/
def valueInOneYear (rewardAmountInOneDay : Number) (price_value : ℚ) : Number :=
  mul (.finite ONE_YEAR_DAYS) (mul rewardAmountInOneDay (.finite price_value))

theorem isFinite_valueInOneYear {amount : Number} {price_value : ℚ} :
    (valueInOneYear amount price_value).IsFinite ↔ amount.IsFinite := by
  simp only [valueInOneYear, mul, Number.isFinite_times, Number.isFinite_finite, true_and, and_true]

theorem isNonneg_valueInOneYear {amount : Number} {price_value : ℚ} (hprice : 0 ≤ price_value)
    (hamount : amount.IsNonneg) : (valueInOneYear amount price_value).IsNonneg := by
  have hdays : (Number.finite (ONE_YEAR_DAYS : ℚ)).IsNonneg := Nat.cast_nonneg _
  have hvalue : (Number.finite price_value).IsNonneg := hprice
  exact hdays.times (hamount.times hvalue)

theorem valueInOneYear_eq_zero_iff {amount price_value : ℚ} :
    valueInOneYear (.finite amount) price_value = .finite 0 ↔ amount = 0 ∨ price_value = 0 := by
  have hdays : (ONE_YEAR_DAYS : ℚ) ≠ 0 := by norm_num [ONE_YEAR_DAYS]
  rw [valueInOneYear, mul_finite, mul_finite, Number.finite.injEq, mul_eq_zero, or_iff_right hdays,
    mul_eq_zero]

/-- The blocks of a day are a number, and it is zero if a block takes too long. -/
theorem blocks_eq {blockTimeSecond : ℕ} (h : blockTimeSecond ≠ 0) :
    ∃ blocks, div (.finite ONE_DAY_SECONDS) (.finite blockTimeSecond) = .finite blocks ∧
      0 ≤ blocks ∧ (blocks = 0 ↔ Negligible ONE_DAY_SECONDS blockTimeSecond) := by
  have hnegligible := div_natCast_eq_zero_iff (a := ONE_DAY_SECONDS) h
  obtain ⟨blocks, hnonneg, hquotient⟩ := Number.isNonneg_iff.mp
    (isNonneg_natCast_div (a := ONE_DAY_SECONDS) h)
  rw [hquotient, Number.finite.injEq] at hnegligible
  exact ⟨blocks, hquotient, hnonneg, hnegligible⟩

/-- The reward of a year, as the staked jobs compute it. -/
def stakedReward (context : Context) (reward : Number) : Number :=
  valueInOneYear (mul (divideDecimals reward context.token.decimals)
    (div (.finite ONE_DAY_SECONDS) (.finite context.blockTimeSecond))) context.token.price_value

theorem isFinite_stakedReward :
    (stakedReward context reward).IsFinite ↔ reward.IsFinite ∧ context.blockTimeSecond ≠ 0 := by
  rw [stakedReward, isFinite_valueInOneYear, mul, Number.isFinite_times, isFinite_divideDecimals,
    isFinite_blocks]

theorem isNonneg_stakedReward (hprice : 0 ≤ context.token.price_value)
    (hreward : reward.IsFinite → reward.IsNonneg) (h : (stakedReward context reward).IsFinite) :
    (stakedReward context reward).IsNonneg := by
  obtain ⟨hfinite, hblocks⟩ := isFinite_stakedReward.mp h
  have hamount := isNonneg_divideDecimals context.token.decimals (hreward hfinite)
  exact isNonneg_valueInOneYear hprice (hamount.times (isNonneg_natCast_div hblocks))

theorem stakedReward_eq_zero_iff {rewardPerBlock : ℕ} (hblocks : context.blockTimeSecond ≠ 0) :
    stakedReward context (.finite rewardPerBlock) = .finite 0 ↔
      rewardPerBlock = 0 ∨ context.token.price_value = 0 ∨
        Negligible ONE_DAY_SECONDS context.blockTimeSecond := by
  have hpow := pow_ten_pos context.token.decimals
  obtain ⟨blocks, hquotient, _, hnegligible⟩ := blocks_eq hblocks
  rw [stakedReward, hquotient, divideDecimals_finite, mul_finite, valueInOneYear_eq_zero_iff,
    mul_eq_zero, div_eq_zero_iff, or_iff_left hpow.ne', Nat.cast_eq_zero, hnegligible, or_assoc,
    or_comm (b := context.token.price_value = 0)]

/-- The reward of a year in the farm2 job. -/
def farm2Reward (env : Farm2.Env) (reward : ℚ) (rewardToken : FarmToken) : Number :=
  valueInOneYear (mul (div (.finite ONE_DAY_SECONDS) (.finite env.context.blockTimeSecond))
    (.finite reward)) rewardToken.price_value

section
variable {env : Farm2.Env} {perBlock : ℚ} {rewardToken : FarmToken}

theorem isFinite_farm2Reward :
    (farm2Reward env perBlock rewardToken).IsFinite ↔ env.context.blockTimeSecond ≠ 0 := by
  rw [farm2Reward, isFinite_valueInOneYear, mul, Number.isFinite_times, isFinite_blocks,
    and_iff_left (Number.isFinite_finite perBlock)]

theorem isNonneg_farm2Reward (hreward : 0 ≤ perBlock) (hprice : 0 ≤ rewardToken.price_value)
    (h : (farm2Reward env perBlock rewardToken).IsFinite) :
    (farm2Reward env perBlock rewardToken).IsNonneg := by
  have hblocks := isNonneg_natCast_div (a := ONE_DAY_SECONDS) (isFinite_farm2Reward.mp h)
  have hfinite : (Number.finite perBlock).IsNonneg := hreward
  exact isNonneg_valueInOneYear hprice (hblocks.times hfinite)

theorem farm2Reward_eq_zero_iff (hblocks : env.context.blockTimeSecond ≠ 0) :
    farm2Reward env perBlock rewardToken = .finite 0 ↔
      perBlock = 0 ∨ rewardToken.price_value = 0 ∨
        Negligible ONE_DAY_SECONDS env.context.blockTimeSecond := by
  obtain ⟨blocks, hquotient, _, hnegligible⟩ := blocks_eq hblocks
  rw [farm2Reward, hquotient, mul_finite, valueInOneYear_eq_zero_iff, mul_eq_zero, hnegligible]
  tauto

end

end

/-! ## Columns -/

section
variable {farmState : FarmState} {allocPoint : ℕ} {rewardToken : FarmToken} {stake : Stake}

theorem Allocated.total_ne_zero {totalAllocPoint : ℕ} {stakeToken : FarmToken}
    (h : Allocated allocPoint totalAllocPoint rewardToken stakeToken) : totalAllocPoint ≠ 0 := by
  have hpos := h.allocated
  have hle := h.within
  omega

/-- The part of a pool in the rewards is finite if they are. -/
theorem isFinite_allocated (h : farmState.totalAllocPoint ≠ 0) :
    (mul farmState.rewardValueInOneYear
      (div (.finite allocPoint) (.finite farmState.totalAllocPoint))).IsFinite ↔
      farmState.rewardValueInOneYear.IsFinite := by
  have hshare := (isNonneg_natCast_div (a := allocPoint) h).isFinite
  rw [mul, Number.isFinite_times, and_iff_left hshare]

theorem isNonneg_allocated (h : farmState.totalAllocPoint ≠ 0)
    (hnonneg : farmState.rewardValueInOneYear.IsFinite → farmState.rewardValueInOneYear.IsNonneg)
    (hfinite : (mul farmState.rewardValueInOneYear
      (div (.finite allocPoint) (.finite farmState.totalAllocPoint))).IsFinite) :
    (mul farmState.rewardValueInOneYear
      (div (.finite allocPoint) (.finite farmState.totalAllocPoint))).IsNonneg :=
  (hnonneg ((isFinite_allocated h).mp hfinite)).times (isNonneg_natCast_div h)

theorem writesNumber_refreshed_iff
    (h : Allocated allocPoint farmState.totalAllocPoint rewardToken stake.token)
    (hnonneg : farmState.rewardValueInOneYear.IsFinite → farmState.rewardValueInOneYear.IsNonneg) :
    WritesNumber (refreshed farmState allocPoint stake.token stake.amount) ↔
      stake.Worthless ∨ farmState.rewardValueInOneYear.IsFinite := by
  have htotal := h.total_ne_zero
  rw [refreshed, writesNumber_refreshed, stake.liquidityValue_eq,
    isNonneg_guarded (isNonneg_allocated htotal hnonneg)
      (Stake.liquidityValue_nonneg h.stakePrice),
    stake.liquidityValue_eq_zero_iff, isFinite_allocated htotal]

theorem writesNumber_autoFarm_iff (farmState : FarmState) {info : AutoFarm.AutoPoolInfo}
    (h : Allocated info.allocPoint farmState.totalAllocPoint rewardToken stake.token)
    (hnonneg : farmState.rewardValueInOneYear.IsFinite → farmState.rewardValueInOneYear.IsNonneg) :
    WritesNumber (AutoFarm.refreshed farmState info stake.token stake.amount) ↔
      farmState.rewardValueInOneYear.IsFinite ∧
        (farmState.rewardValueInOneYear = .finite 0 ∨
          Negligible info.allocPoint farmState.totalAllocPoint ∨ ¬stake.Worthless) := by
  have htotal := h.total_ne_zero
  rw [AutoFarm.refreshed, writesNumber_withData, writesNumber_refreshed, stake.liquidityValue_eq,
    isNonneg_rewardGuarded (isNonneg_allocated htotal hnonneg)
      (Stake.liquidityValue_nonneg h.stakePrice),
    stake.liquidityValue_ne_zero_iff, isFinite_allocated htotal]
  refine and_congr_right fun hfinite => ?_
  obtain ⟨reward, hreward⟩ := Number.isFinite_iff.mp hfinite
  obtain ⟨share, hshare⟩ := Number.isFinite_iff.mp
    (isNonneg_natCast_div (a := info.allocPoint) htotal).isFinite
  have hnegligible := div_natCast_eq_zero_iff (a := info.allocPoint) htotal
  rw [hshare, Number.finite.injEq] at hnegligible
  rw [hreward, hshare, mul_finite, Number.finite.injEq, Number.finite.injEq, mul_eq_zero,
    hnegligible, or_assoc]
  rfl

theorem writesNumber_farm2_iff {env : Farm2.Env} {reward : ℚ} (hreward : 0 ≤ reward)
    (hrewardPrice : 0 ≤ rewardToken.price_value) (hstakePrice : 0 ≤ stake.token.price_value) :
    WritesNumber (Farm2.refreshed env (.finite reward) stake.token rewardToken stake.amount) ↔
      env.context.blockTimeSecond ≠ 0 ∧
        (farm2Reward env reward rewardToken = .finite 0 ∨ ¬stake.Worthless) := by
  have hnonneg : (farm2Reward env reward rewardToken).IsFinite →
      (farm2Reward env reward rewardToken).IsNonneg := isNonneg_farm2Reward hreward hrewardPrice
  have hnumber := isNonneg_rewardGuarded hnonneg (Stake.liquidityValue_nonneg hstakePrice)
  rw [isFinite_farm2Reward, stake.liquidityValue_ne_zero_iff] at hnumber
  rw [Farm2.refreshed, writesNumber_refreshed, stake.liquidityValue_eq]
  exact hnumber

end

/-! ## Mdex -/

section
variable {rewards : Mdex.Rewards} {period start : ℕ} {afterOneYear : ℚ}

/-- The rewards of the blocks from one to a later one. -/
theorem isNonneg_sub_mul {l r : ℚ} (h : l ≤ r) (reward : ℕ) :
    (mul (sub (.finite r) (.finite l)) (.finite reward)).IsNonneg := by
  have hblocks : (0 : ℚ) ≤ r + -l := by linarith
  exact mul_nonneg hblocks (Nat.cast_nonneg reward)

/-- The blocks go up from phase to phase, and no phase ends after the year. -/
theorem isNonneg_addPhases (phases : ℕ) : ∀ {n : ℕ} {l : ℚ} {amount total : Number},
    Mdex.addPhases rewards period start (.finite afterOneYear) phases n (.finite l) amount =
      .ok total →
    amount.IsNonneg → l ≤ (n + 1) * period + start →
    (phases ≠ 0 → (n + phases : ℕ) * period + start ≤ afterOneYear) → total.IsNonneg := by
  induction phases with
  | zero =>
    intro n l amount total h hamount _ _
    rw [← Except.ok.inj h]
    exact hamount
  | succ phases ih =>
    intro n l amount total h hamount hl hend
    have hstep : (n : ℚ) * period + period = (n + 1) * period := by ring
    have hperiod : (0 : ℚ) ≤ period := Nat.cast_nonneg period
    have hr : ((n : ℚ) + 1) * period + start ≤ afterOneYear := by
      refine le_trans ?_ (hend (Nat.succ_ne_zero phases))
      have hle : ((n : ℚ) + 1) * period ≤ (n + (phases + 1) : ℕ) * period := by
        refine mul_le_mul_of_nonneg_right ?_ hperiod
        push_cast
        linarith [Nat.cast_nonneg (α := ℚ) phases]
      linarith
    simp only [Mdex.addPhases] at h
    generalize hrend : ((n : ℚ) + 1) * period + start = r at hr hl
    have hrnum : add (mul (.finite (n + 1)) (.finite period)) (.finite start) = .finite r := by
      rw [← hrend]
      rfl
    rw [hrnum] at h
    obtain ⟨reward, _, h⟩ := Eff.except_bind_eq_ok.mp h
    obtain ⟨lastReward, _, h⟩ := Eff.except_bind_eq_ok.mp h
    refine ih h ?_ ?_ fun _ => ?_
    · exact (hamount.plus (isNonneg_sub_mul hl reward)).plus (isNonneg_sub_mul hr lastReward)
    · push_cast
      linarith
    · have hlast := hend (Nat.succ_ne_zero phases)
      rwa [show n + (phases + 1) = n + 1 + phases by omega] at hlast

/-- The state of an Mdex job holds a reward that is a number. -/
theorem mdexState_nonneg {context : Context} {farmState : FarmState} (hphases : PhasesOf rewards)
    (h : Mdex.getFarmState context rewards = .ok farmState) :
    rewards.getFarmTotalAllocPoint = .ok farmState.totalAllocPoint ∧
      (0 ≤ context.token.price_value → farmState.rewardValueInOneYear.IsNonneg) := by
  unfold Mdex.getFarmState at h
  obtain ⟨currentBlockNumber, _, h⟩ := Eff.except_bind_eq_ok.mp h
  obtain ⟨totalAllocPoint, htotal, h⟩ := Eff.except_bind_eq_ok.mp h
  obtain ⟨halvingPeriod, hperiod, h⟩ := Eff.except_bind_eq_ok.mp h
  obtain ⟨startBlock, hstart, h⟩ := Eff.except_bind_eq_ok.mp h
  obtain ⟨n, hn, h⟩ := Eff.except_bind_eq_ok.mp h
  obtain ⟨m, hm, h⟩ := Eff.except_bind_eq_ok.mp h
  obtain ⟨amount, hamount, h⟩ := Eff.except_bind_eq_ok.mp h
  cases h
  refine ⟨htotal, fun hprice => ?_⟩
  -- a year of infinitely many blocks has no last phase
  have hblocks : context.blockTimeSecond ≠ 0 := by
    intro hzero
    rw [hzero] at hm
    exact hphases.unbounded false m hm
  have hne : (context.blockTimeSecond : ℚ) ≠ 0 := by exact_mod_cast hblocks
  rw [div_finite hne] at hm hamount
  obtain ⟨hzero, hbefore, _⟩ := hphases.whole _ _ _ _ hperiod hstart hn
  obtain ⟨hzero', _, hafter⟩ := hphases.whole _ _ _ _ hperiod hstart hm
  have hyear : amount.IsNonneg := by
    by_cases hphase : m - n = 0
    · rw [hphase] at hamount
      rw [← Except.ok.inj hamount]
      exact le_refl (0 : ℚ)
    · have hne : halvingPeriod ≠ 0 := fun h => hphase (by rw [hzero' h, Nat.zero_sub])
      refine isNonneg_addPhases _ hamount (le_refl (0 : ℚ)) (hbefore hne) fun _ => ?_
      rw [show n + (m - n) = m by omega]
      exact (hafter (by omega)).le
  have hvalue : (Number.finite context.token.price_value).IsNonneg := hprice
  exact (isNonneg_divideDecimals _ hyear).times hvalue

end

/-! ## The rewarders -/

section
variable {service : RewarderFarm.RewardService} {env : RewarderFarm.RewarderEnv} {pid : ℕ}
  {info : RewarderFarm.RewarderPoolInfo} {rewarderRewardToken : Option FarmToken}
  {farmState : FarmState}

theorem isNonneg_finite_year : (Number.finite (ONE_YEAR_SECONDS : ℚ)).IsNonneg :=
  Nat.cast_nonneg ONE_YEAR_SECONDS

/-- What the rewarder adds is a number, whatever the protocol's own reward is. -/
theorem rewarderState_reward
    (hprice : ∀ token, rewarderRewardToken = some token → 0 ≤ token.price_value)
    (h : rewarderState service env pid info rewarderRewardToken = .ok farmState) :
    env.getFarmTotalAllocPoint = .ok farmState.totalAllocPoint ∧
      ∃ reward rewarderReward, service.getFarmRewardPerSecond = .ok reward ∧
        rewarderReward.IsNonneg ∧
        farmState.rewardValueInOneYear =
          add (mul (mul (divideDecimals reward env.context.token.decimals)
            (.finite env.context.token.price_value)) (.finite ONE_YEAR_SECONDS)) rewarderReward := by
  unfold rewarderState RewarderFarm.getRewardState at h
  obtain ⟨state, hstate, h⟩ := Eff.except_bind_eq_ok.mp h
  obtain ⟨totalAllocPoint, htotal, hstate⟩ := Eff.except_bind_eq_ok.mp hstate
  obtain ⟨reward, hreward, hstate⟩ := Eff.except_bind_eq_ok.mp hstate
  cases hstate
  unfold RewarderFarm.getFarmState at h
  obtain ⟨rewarderReward, hrewarder, h⟩ := Eff.except_bind_eq_ok.mp h
  cases h
  refine ⟨htotal, reward, rewarderReward, hreward, ?_, rfl⟩
  cases htoken : rewarderRewardToken with
  | none =>
    rw [htoken] at hrewarder
    rw [← Except.ok.inj hrewarder]
    exact le_refl (0 : ℚ)
  | some token =>
    rw [htoken] at hrewarder
    simp only at hrewarder
    by_cases hnull : info.rewarder ≠ Helper.ZERO_ADDRESS
    · rw [if_pos hnull] at hrewarder
      obtain ⟨perSecond, _, hrewarder⟩ := Eff.except_bind_eq_ok.mp hrewarder
      rw [← Except.ok.inj hrewarder]
      have hamount : (Number.finite (perSecond : ℚ)).IsNonneg := Nat.cast_nonneg perSecond
      have hvalue : (Number.finite token.price_value).IsNonneg := hprice token htoken
      exact ((isNonneg_divideDecimals token.decimals hamount).times hvalue).times
        isNonneg_finite_year
    · rw [if_neg hnull] at hrewarder
      rw [← Except.ok.inj hrewarder]
      exact le_refl (0 : ℚ)

theorem apeSwapState_nonneg {bananaPerSecond : ℕ}
    {rewardToken : ℕ → String → Except Thrown String}
    (hown : 0 ≤ env.context.token.price_value)
    (hprice : ∀ token, rewarderRewardToken = some token → 0 ≤ token.price_value)
    (h : rewarderState (RewarderFarm.ApeSwapMATICService.rewardService (.ok bananaPerSecond)
      rewardToken) env pid info rewarderRewardToken = .ok farmState) :
    farmState.rewardValueInOneYear.IsNonneg := by
  obtain ⟨_, reward, rewarderReward, hreward, hrewarder, hsum⟩ := rewarderState_reward hprice h
  cases hreward
  rw [hsum]
  have hamount : (Number.finite (bananaPerSecond : ℚ)).IsNonneg := Nat.cast_nonneg bananaPerSecond
  have hvalue : (Number.finite env.context.token.price_value).IsNonneg := hown
  exact (((isNonneg_divideDecimals _ hamount).times hvalue).times isNonneg_finite_year).plus
    hrewarder

/-- A reward that is no number stays so under the rewarder's. -/
theorem sushiSwapState_not_finite
    (hprice : ∀ token, rewarderRewardToken = some token → 0 ≤ token.price_value)
    (h : rewarderState RewarderFarm.SushiSwapMATICService.rewardService env pid info
      rewarderRewardToken = .ok farmState) :
    ¬farmState.rewardValueInOneYear.IsFinite := by
  obtain ⟨_, reward, rewarderReward, hreward, hrewarder, hsum⟩ := rewarderState_reward hprice h
  cases hreward
  obtain ⟨value, _, rfl⟩ := Number.isNonneg_iff.mp hrewarder
  rw [hsum, add, Number.isFinite_plus_iff, mul, Number.isFinite_times, mul, Number.isFinite_times,
    isFinite_divideDecimals]
  exact fun hfinite => hfinite.1.1

end

/-! ## What the bodies write -/

section
variable {d : Db Farms} {W : FarmSet → Prop}

/-- The body leaves the table alone, or gives one row columns of a kind. -/
def Writes (W : FarmSet → Prop) (d : Db Farms) (m : JobEff Farms Unit) : Prop :=
  Stages d m fun v _ w =>
    w.tables = v.tables ∨ ∃ id set, W set ∧ w.tables = updateOne id set v.tables

theorem Writes.pure : Writes W d (pure ()) := Stages.pure () fun _ => Or.inl rfl

theorem Writes.throw (e : Thrown) : Writes W d (Eff.throw e) := Stages.throw e

/-- After a step that only asks. -/
theorem Writes.bind {α : Type} {m : JobEff Farms α} {f : α → JobEff Farms Unit}
    (hm : Stages d m fun v _ w => w = v) (hf : ∀ a, Writes W d (f a)) : Writes W d (m >>= f) :=
  Stages.bind (fun _ v _ w => w.tables = v.tables ∨
    ∃ id set, W set ∧ w.tables = updateOne id set v.tables) hm hf fun v _ w _ x hsame h => by
      rw [hsame] at h
      exact h

theorem Writes.await {α : Type} (answer : Except Thrown α) {f : α → JobEff Farms Unit}
    (hf : ∀ a, answer = .ok a → Writes W d (f a)) : Writes W d (Eff.await answer >>= f) := by
  cases answer with
  | error e => exact Writes.throw e
  | ok a => exact hf a rfl

theorem Writes.found {fault : Option Thrown} {query : Db Farms → Option (Stored FarmRow)}
    {f : Option (Stored FarmRow) → JobEff Farms Unit} (hf : ∀ farm, Writes W d (f farm)) :
    Writes W d (managerRead fault query >>= f) :=
  Writes.bind ((Stages.managerRead fault query).mono fun _ _ _ h => h.1) hf

theorem Writes.update (fault : Option Thrown) (id : ℕ) {set : FarmSet} (h : W set) :
    Writes W d (updateFarmWith fault id set) :=
  (Stages.managerWrite fault _ _).mono fun _ _ _ hw => Or.inr ⟨id, set, h, by rw [hw.2]; rfl⟩

/-- A found farm that is active gives its first stake token to the rest of the
body. -/
theorem Writes.stakeToken {fault : Option Thrown} {query : Db Farms → Option (Stored FarmRow)}
    {tokens : List FarmToken} {body : Stored FarmRow → FarmToken → JobEff Farms Unit}
    (hbody : ∀ farm token, Writes W d (body farm token)) :
    Writes W d (do
      match ← managerRead fault query with
      | none => Eff.throw typeError
      | some farm =>
        if !farm.row.status then Pure.pure ()
        else
          match (relation tokens farm.row.stake_tokens).head? with
          | none => Eff.throw typeError
          | some token => body farm token) := by
  refine Writes.found fun farm => ?_
  cases farm with
  | none => exact Writes.throw _
  | some farm =>
    refine Stages.ite (fun _ => Writes.pure) fun _ => ?_
    cases (relation tokens farm.row.stake_tokens).head? with
    | none => exact Writes.throw _
    | some token => exact hbody farm token

variable {farmState : FarmState} {pid : ℕ}

theorem Writes.mono {W' : FarmSet → Prop} {m : JobEff Farms Unit} (h : Writes W d m)
    (hsub : ∀ set, W set → W' set) : Writes W' d m :=
  Stages.mono h fun v _ w hw => by
    rcases hw with hsame | ⟨id, set, hset, htable⟩
    · exact Or.inl hsame
    · exact Or.inr ⟨id, set, hsub set hset, htable⟩

theorem template_refreshFarm_writes {I : Type} (pools : Pools I) (env : Env I) (info : I)
    {getFarmState : Except Thrown FarmState} (hstate : getFarmState = .ok farmState) :
    Writes (fun set => ∃ stake, columnsOf getFarmState (pools.pool info).allocPoint stake =
      .ok set) d (refreshFarm pools env farmState pid info) := by
  refine Writes.stakeToken fun farm token => ?_
  refine Writes.await _ fun amount _ => Writes.update _ _ ⟨⟨token, amount⟩, ?_⟩
  rw [hstate]
  rfl

theorem bakery_refreshFarm_writes (env : BakeryFarm.BakeryEnv) (info : BakeryFarm.BakeryPoolInfo)
    {getFarmState : Except Thrown FarmState} (hstate : getFarmState = .ok farmState) :
    Writes (fun set => ∃ stake, columnsOf getFarmState info.allocPoint stake = .ok set) d
      (BakeryFarm.refreshFarm env farmState pid info) := by
  refine Writes.stakeToken fun farm token => ?_
  refine Writes.await _ fun amount _ => Writes.update _ _ ⟨⟨token, amount⟩, ?_⟩
  rw [hstate]
  rfl

theorem autoFarm_refreshFarm_writes (env : AutoFarm.AutoEnv) (info : AutoFarm.AutoPoolInfo)
    {getFarmState : Except Thrown FarmState} (hstate : getFarmState = .ok farmState) :
    Writes (fun set => ∃ stake : Stake, (getFarmState.map fun farmState =>
      AutoFarm.refreshed farmState info stake.token stake.amount) = .ok set) d
      (AutoFarm.refreshFarm env farmState pid info) := by
  refine Writes.found fun farm => ?_
  cases farm with
  | none => exact Writes.throw _
  | some farm =>
    refine Stages.ite (fun _ => Writes.pure) fun _ => ?_
    refine Writes.await _ fun shares _ => ?_
    cases (relation env.tokens farm.row.stake_tokens).head? with
    | none => exact Writes.throw _
    | some token =>
      refine Writes.update _ _ ⟨⟨token, shares⟩, ?_⟩
      rw [hstate]
      rfl

theorem rewarder_refreshFarm_writes (env : RewarderFarm.RewarderEnv)
    (state : RewarderFarm.RewardState) (info : RewarderFarm.RewarderPoolInfo)
    (rewarderRewardToken : Option FarmToken) :
    Writes (fun set => ∃ stake, (columnsOf (RewarderFarm.getFarmState env state pid info
        rewarderRewardToken) info.allocPoint stake).map
        (FarmSet.withData (RewarderFarm.rewarderData info.rewarder)) = .ok set) d
      (RewarderFarm.refreshFarm env state pid info rewarderRewardToken) := by
  refine Writes.await _ fun farmState hstate => Writes.stakeToken fun farm token => ?_
  refine Writes.await _ fun amount _ => Writes.update _ _ ⟨⟨token, amount⟩, ?_⟩
  rw [hstate]
  rfl

theorem farm2_refreshFarm_writes (env : Farm2.Env) (farmInfo : Farm2.SmartChef) :
    Writes (fun set => ∃ (stake : Stake) (rewardToken : FarmToken),
      Farm2.refreshed env farmInfo.reward stake.token rewardToken stake.amount = set) d
      (Farm2.refreshFarm env pid farmInfo) := by
  refine Writes.stakeToken fun farm token => Writes.await _ fun amount _ => ?_
  cases (relation env.tokens farm.row.reward_tokens).head? with
  | none => exact Writes.throw _
  | some rewardToken => exact Writes.update _ _ ⟨⟨token, amount⟩, rewardToken, rfl⟩

theorem stakedBody_writes (pools : Pools PoolInfo) (env : Env PoolInfo) (totalAllocPoint : ℕ)
    (rewardPerBlock : Number) (info : PoolInfo) :
    Writes (fun set => ∃ stake, columnsOf (stakedState env.context totalAllocPoint rewardPerBlock)
      (pools.pool info).allocPoint stake = .ok set) d
      (stakedBody pools env totalAllocPoint rewardPerBlock pid info) :=
  Writes.await _ fun _ hstate => template_refreshFarm_writes pools env info hstate

theorem mdexBody_writes (env : Env Mdex.MdexPoolInfo) (rewards : Mdex.Rewards)
    (info : Mdex.MdexPoolInfo) :
    Writes (fun set => ∃ stake, columnsOf (Mdex.getFarmState env.context rewards) info.allocPoint
      stake = .ok set) d (mdexBody env rewards pid info) :=
  Writes.await _ fun _ hstate => template_refreshFarm_writes Mdex.pools env info hstate

theorem rewarderBody_writes (service : RewarderFarm.RewardService) (env : RewarderFarm.RewarderEnv)
    (info : RewarderFarm.RewarderPoolInfo) (rewarderRewardToken : Option FarmToken) :
    Writes (fun set => ∃ stake, (columnsOf (rewarderState service env pid info
        rewarderRewardToken) info.allocPoint stake).map
        (FarmSet.withData (RewarderFarm.rewarderData info.rewarder)) = .ok set) d
      (rewarderBody service env pid info rewarderRewardToken) := by
  refine Writes.await _ fun state hstate => ?_
  have hown : rewarderState service env pid info rewarderRewardToken =
      RewarderFarm.getFarmState env state pid info rewarderRewardToken := by
    rw [rewarderState, hstate]
    rfl
  rw [hown]
  exact rewarder_refreshFarm_writes env state info rewarderRewardToken

/-- What a body writes are the columns of its refresh on a stake. -/
theorem body_writes (body : Body) (d : Db Farms) :
    Writes (fun set => ∃ stake rewardToken, (body.refresh stake rewardToken).columns = .ok set) d
      body.refreshFarm := by
  have hstake : ∀ {columns : Stake → Except Thrown FarmSet} (set : FarmSet),
      (∃ stake, columns stake = .ok set) →
        ∃ (stake : Stake) (_ : FarmToken), columns stake = .ok set :=
    fun _ ⟨stake, hset⟩ => ⟨stake, stake.token, hset⟩
  cases body with
  | pancakeSwapBSC env _ _ _ info => exact (stakedBody_writes _ env _ _ info).mono hstake
  | apeSwapBSC env _ _ _ info => exact (stakedBody_writes _ env _ _ info).mono hstake
  | waultSwapBSC env _ _ _ info => exact (stakedBody_writes _ env _ _ info).mono hstake
  | biSwapBSC env _ _ _ _ _ info => exact (stakedBody_writes _ env _ _ info).mono hstake
  | bakerySwapBSC env _ _ _ info =>
    exact Writes.await _ fun _ hstate => (bakery_refreshFarm_writes env info hstate).mono hstake
  | autoFarmBSC env _ _ _ info =>
    exact Writes.await _ fun _ hstate => (autoFarm_refreshFarm_writes env info hstate).mono hstake
  | mdexBSC env rewards _ info => exact (mdexBody_writes env rewards info).mono hstake
  | mdexHECO env rewards _ info => exact (mdexBody_writes env rewards info).mono hstake
  | sushiSwapMATIC env _ info _ => exact (rewarderBody_writes _ env info _).mono hstake
  | apeSwapMATIC env _ _ _ info _ => exact (rewarderBody_writes _ env info _).mono hstake
  | pancakeSwapBSC2 env _ _ farmInfo =>
    refine (farm2_refreshFarm_writes env _).mono fun set ⟨stake, rewardToken, hset⟩ => ?_
    exact ⟨stake, rewardToken, congrArg Except.ok hset⟩

end

/-! ## Every job -/

theorem columnsOf_eq_ok {getFarmState : Except Thrown FarmState} {allocPoint : ℕ} {stake : Stake}
    {set : FarmSet} (h : columnsOf getFarmState allocPoint stake = .ok set) :
    ∃ farmState, getFarmState = .ok farmState ∧
      set = refreshed farmState allocPoint stake.token stake.amount := by
  obtain ⟨farmState, hstate, hset⟩ := Eff.except_map_eq_ok.mp h
  exact ⟨farmState, hstate, hset.symm⟩

theorem staked_iff {context : Context} {totalAllocPoint allocPoint : ℕ} {reward : Number}
    {stake : Stake} {set : FarmSet}
    (hset : columnsOf (stakedState context totalAllocPoint reward) allocPoint stake = .ok set)
    (h : Allocated allocPoint totalAllocPoint context.token stake.token)
    (hreward : reward.IsFinite → reward.IsNonneg) :
    WritesNumber set ↔ stake.Worthless ∨ reward.IsFinite ∧ context.blockTimeSecond ≠ 0 := by
  obtain ⟨farmState, hstate, rfl⟩ := columnsOf_eq_ok hset
  cases hstate
  rw [writesNumber_refreshed_iff h (isNonneg_stakedReward h.rewardPrice hreward)]
  exact or_congr_right isFinite_stakedReward

/-- A reward that is a number makes the quotient one. -/
theorem writesNumber_of_isNonneg {farmState : FarmState} {allocPoint : ℕ} {rewardToken : FarmToken}
    {stake : Stake} (h : Allocated allocPoint farmState.totalAllocPoint rewardToken stake.token)
    (hreward : farmState.rewardValueInOneYear.IsNonneg) :
    WritesNumber (refreshed farmState allocPoint stake.token stake.amount) :=
  (writesNumber_refreshed_iff h fun _ => hreward).mpr (Or.inr hreward.isFinite)

theorem isFinite_biSwapReward {BSWPerBlock stakingPercent percentDec : ℕ} :
    (BiSwapBSCService.getFarmRewardPerBlock BSWPerBlock stakingPercent percentDec).IsFinite ↔
      percentDec ≠ 0 := by
  unfold BiSwapBSCService.getFarmRewardPerBlock
  by_cases hzero : percentDec = 0
  · have hinfinite := Number.not_isFinite_dividedBy_zero DECIMAL_PLACES
      (mul (.finite BSWPerBlock) (.finite stakingPercent))
    simpa [hzero, div] using hinfinite
  · have hne : (percentDec : ℚ) ≠ 0 := by exact_mod_cast hzero
    rw [mul_finite, div_finite hne]
    simp [hzero]

theorem isNonneg_biSwapReward {BSWPerBlock stakingPercent percentDec : ℕ}
    (h : (BiSwapBSCService.getFarmRewardPerBlock BSWPerBlock stakingPercent percentDec).IsFinite) :
    (BiSwapBSCService.getFarmRewardPerBlock BSWPerBlock stakingPercent percentDec).IsNonneg := by
  have hne := isFinite_biSwapReward.mp h
  have hpos : (0 : ℚ) < percentDec := by exact_mod_cast Nat.pos_of_ne_zero hne
  have hproduct : (mul (.finite BSWPerBlock) (.finite stakingPercent)).IsNonneg :=
    mul_nonneg (Nat.cast_nonneg _) (Nat.cast_nonneg _)
  exact hproduct.dividedBy hpos

/-- The AMM farms with a fixed reward per block. -/
theorem stakedColumns_iff {context : Context} {totalAllocPoint rewardPerBlock allocPoint : ℕ}
    {stake : Stake} {set : FarmSet}
    (hset : columnsOf (stakedState context totalAllocPoint (.finite rewardPerBlock)) allocPoint
      stake = .ok set) (h : Allocated allocPoint totalAllocPoint context.token stake.token) :
    WritesNumber set ↔ stake.Worthless ∨ context.blockTimeSecond ≠ 0 := by
  rw [staked_iff hset h fun _ => Nat.cast_nonneg rewardPerBlock,
    and_iff_right (Number.isFinite_finite _)]

/-- The farms whose rewards come in phases. -/
theorem mdexColumns_writesNumber {context : Context} {rewards : Mdex.Rewards} {allocPoint : ℕ}
    {stake : Stake} {set : FarmSet}
    (hset : columnsOf (Mdex.getFarmState context rewards) allocPoint stake = .ok set)
    (hphases : PhasesOf rewards)
    (h : ∀ totalAllocPoint, rewards.getFarmTotalAllocPoint = .ok totalAllocPoint →
      Allocated allocPoint totalAllocPoint context.token stake.token) : WritesNumber set := by
  obtain ⟨farmState, hstate, rfl⟩ := columnsOf_eq_ok hset
  obtain ⟨htotal, hnonneg⟩ := mdexState_nonneg hphases hstate
  have hallocated := h _ htotal
  exact writesNumber_of_isNonneg hallocated (hnonneg hallocated.rewardPrice)

/-- The columns of a refresh have a number exactly where the division of its job is
guarded. -/
theorem columns_number_iff {refresh : Refresh} {set : FarmSet} (hvalid : refresh.Valid)
    (hset : refresh.columns = .ok set) : WritesNumber set ↔ refresh.Guarded := by
  cases refresh with
  | pancakeSwapBSC => exact stakedColumns_iff hset hvalid
  | apeSwapBSC => exact stakedColumns_iff hset hvalid
  | waultSwapBSC => exact stakedColumns_iff hset hvalid
  | bakerySwapBSC => exact stakedColumns_iff hset hvalid
  | biSwapBSC context totalAllocPoint BSWPerBlock stakingPercent percentDec allocPoint stake =>
    rw [staked_iff hset hvalid isNonneg_biSwapReward, isFinite_biSwapReward]
    rfl
  | autoFarmBSC context totalAllocPoint rewardPerBlock info stake =>
    cases hset
    have hnumber := writesNumber_autoFarm_iff
      ⟨totalAllocPoint, stakedReward context (.finite rewardPerBlock)⟩ hvalid
      (isNonneg_stakedReward hvalid.rewardPrice fun _ => Nat.cast_nonneg rewardPerBlock)
    refine hnumber.trans ?_
    rw [isFinite_stakedReward, and_iff_right (Number.isFinite_finite _)]
    refine and_congr_right fun hblocks => ?_
    rw [stakedReward_eq_zero_iff hblocks, or_assoc, or_assoc]
  | mdexBSC => exact iff_true_intro (mdexColumns_writesNumber hset hvalid.1 hvalid.2)
  | mdexHECO => exact iff_true_intro (mdexColumns_writesNumber hset hvalid.1 hvalid.2)
  | sushiSwapMATIC env pid info rewarderRewardToken stake =>
    obtain ⟨written, hwritten, rfl⟩ := Eff.except_map_eq_ok.mp hset
    obtain ⟨farmState, hstate, rfl⟩ := columnsOf_eq_ok hwritten
    have hinfinite := sushiSwapState_not_finite hvalid.1 hstate
    have hallocated := hvalid.2 _ (rewarderState_reward hvalid.1 hstate).1
    rw [writesNumber_withData, writesNumber_refreshed_iff hallocated fun h => absurd h hinfinite,
      or_iff_left hinfinite]
    rfl
  | apeSwapMATIC env bananaPerSecond rewardToken pid info rewarderRewardToken stake =>
    obtain ⟨written, hwritten, rfl⟩ := Eff.except_map_eq_ok.mp hset
    obtain ⟨farmState, hstate, rfl⟩ := columnsOf_eq_ok hwritten
    have hallocated := hvalid.2 _ (rewarderState_reward hvalid.1 hstate).1
    exact iff_true_intro (writesNumber_of_isNonneg hallocated
      (apeSwapState_nonneg hallocated.rewardPrice hvalid.1 hstate))
  | pancakeSwapBSC2 env reward rewardToken stake =>
    cases hset
    obtain ⟨hreward, hrewardPrice, hstakePrice⟩ := hvalid
    rw [writesNumber_farm2_iff hreward hrewardPrice hstakePrice]
    refine and_congr_right fun hblocks => ?_
    rw [farm2Reward_eq_zero_iff hblocks, or_assoc, or_assoc]

/-- A refresh writes a number exactly where the division of its job is guarded, and what
the body of any job writes are the columns of such a refresh. -/
theorem apr_is_number_iff (refresh : Refresh) (set : FarmSet) (body : Body) (d : Db Farms) :
    (refresh.Valid → refresh.columns = .ok set → (WritesNumber set ↔ refresh.Guarded)) ∧
      Writes (fun set => ∃ stake rewardToken,
        (body.refresh stake rewardToken).columns = .ok set ∧
          ((body.refresh stake rewardToken).Valid →
            (WritesNumber set ↔ (body.refresh stake rewardToken).Guarded))) d
        body.refreshFarm := by
  refine ⟨fun hvalid hset => columns_number_iff hvalid hset, ?_⟩
  refine (body_writes body d).mono fun set ⟨stake, rewardToken, hset⟩ => ?_
  exact ⟨stake, rewardToken, hset, fun hvalid => columns_number_iff hvalid hset⟩

/-! ### A pool of AutoFarm -/

def auto : FarmToken :=
  ⟨1, "AUTO", "0x0000000000000000000000000000000000000001", 18, 1000, true, 56, true⟩

def cakeBnb : FarmToken :=
  ⟨2, "CAKE-BNB", "0x0000000000000000000000000000000000000002", 18, 100, true, 56, true⟩

def autoContext : Context :=
  ⟨3, 56, 3, "AutoFarm Farm", "0x0000000000000000000000000000000000000003", auto⟩

/-- A tenth of the allocation, on a token that is worth a hundred. -/
def autoPool : AutoFarm.AutoPoolInfo :=
  ⟨cakeBnb.address, 4, "0x0000000000000000000000000000000000000004"⟩

def autoFarmRefresh (shares : ℕ) : Refresh :=
  .autoFarmBSC autoContext 40 (10 ^ 18) autoPool ⟨cakeBnb, shares⟩

/-- The job meets the pool with these shares. -/
def autoFarmBody (shares : ℕ) : Body :=
  .autoFarmBSC
    { context := autoContext
      tokens := [auto, cakeBnb]
      networkPid := .ok 1
      getFarmInfos := fun pids => .ok (pids.map fun _ => some autoPool)
      getSafeCheckCA := fun _ _ => .ok true
      getFarmStratShareTotal := fun _ _ => .ok shares
      faults := fun _ => .none } 40 (10 ^ 18) 0 autoPool

theorem autoFarmRefresh_valid (shares : ℕ) : (autoFarmRefresh shares).Valid :=
  ⟨by decide, by decide, by decide +kernel, show (0 : ℚ) ≤ 100 by decide +kernel⟩

theorem staked_pool_number :
    (∃ set, (autoFarmRefresh 5).columns = .ok set ∧
      (WritesNumber set ↔ (autoFarmRefresh 5).Guarded)) ∧
      (autoFarmBody 5).refresh ⟨cakeBnb, 5⟩ auto = autoFarmRefresh 5 ∧
      Writes (fun set => ∃ stake rewardToken,
        ((autoFarmBody 5).refresh stake rewardToken).columns = .ok set ∧
          (((autoFarmBody 5).refresh stake rewardToken).Valid →
            (WritesNumber set ↔ ((autoFarmBody 5).refresh stake rewardToken).Guarded)))
        ⟨none, Library.Store.Table.empty⟩ (autoFarmBody 5).refreshFarm := by
  obtain ⟨set, hset⟩ : ∃ set, (autoFarmRefresh 5).columns = .ok set := ⟨_, rfl⟩
  obtain ⟨hnumber, hwrites⟩ := apr_is_number_iff (autoFarmRefresh 5) set (autoFarmBody 5)
    ⟨none, Library.Store.Table.empty⟩
  exact ⟨⟨set, hset, hnumber (autoFarmRefresh_valid 5) hset⟩, rfl, hwrites⟩

/-- With nothing staked, the quotient is an infinity. -/
theorem empty_pool_no_number :
    ¬ ∀ (refresh : Refresh) (set : FarmSet), refresh.Valid → refresh.columns = .ok set →
      WritesNumber set := by
  intro hall
  obtain ⟨apr, hwritten, hnonneg⟩ :=
    hall (autoFarmRefresh 0) _ (autoFarmRefresh_valid 0) rfl (.new ⟨3, "", "", 0⟩ "" [] [])
  have hinfinite : some apr = some (.infinite false) := hwritten.symm.trans (by decide +kernel)
  rw [Option.some.inj hinfinite] at hnonneg
  exact hnonneg

end BlockchainTask.SchedulerJob.FarmApr

import Mathlib.Algebra.BigOperators.Intervals
import Mathlib.Algebra.BigOperators.Ring.Finset
import Mathlib.Algebra.Order.BigOperators.Group.Finset
import BlockchainTask.SchedulerJob.FarmApr

/-! # The rewards of a year that halves

The Mdex contract pays each block at its phase's rate. Over a year it pays the
blocks up to the first boundary of a phase, those between one boundary and the
next, and once the rest of the year. `getFarmState` adds the rest of the year
within its loop over the boundaries: once for each of them, and never when there
is none. -/
namespace BlockchainTask.SchedulerJob.MdexRewards
open BlockchainTask.Common.Exception BlockchainTask.Helper BlockchainTask.Helper.Decimals
open BlockchainTask.Library.Decimal BlockchainTask.Library.Effect
open BlockchainTask.SchedulerJob.FarmTemplate BlockchainTask.SchedulerJob.FarmApr

/-- `rewardAmountInOneYear` of `getFarmState`, for a year of a number of blocks. -/
def rewardAmountInOneYear (rewards : Mdex.Rewards) (blocksInOneYear : Number) :
    Except Thrown Number := do
  let currentBlockNumber ← rewards.getBlockNumber
  let halvingPeriod ← rewards.getFarmHalvingPeriod
  let startBlock ← rewards.getFarmStartBlock
  let afterOneYearBlockNumber := add (.finite currentBlockNumber) blocksInOneYear
  let n ← rewards.getFarmPhase (.finite currentBlockNumber)
  let m ← rewards.getFarmPhase afterOneYearBlockNumber
  Mdex.addPhases rewards halvingPeriod startBlock afterOneYearBlockNumber (m - n) n
    (.finite currentBlockNumber) ZERO

theorem getFarmState_eq_ok_iff {context : Context} {rewards : Mdex.Rewards}
    {farmState : FarmState} :
    Mdex.getFarmState context rewards = .ok farmState ↔
      ∃ amount, rewardAmountInOneYear rewards
          (div (.finite ONE_YEAR_SECONDS) (.finite context.blockTimeSecond)) = .ok amount ∧
        rewards.getFarmTotalAllocPoint = .ok farmState.totalAllocPoint ∧
        farmState.rewardValueInOneYear =
          mul (divideDecimals amount context.token.decimals)
            (.finite context.token.price_value) := by
  unfold Mdex.getFarmState rewardAmountInOneYear
  simp only [Eff.except_bind_eq_ok]
  constructor
  · intro h
    obtain ⟨c, hc, total, htotal, period, hperiod, start, hstart, n, hn, m, hm, amount, hamount,
      h⟩ := h
    cases h
    exact ⟨amount, ⟨c, hc, period, hperiod, start, hstart, n, hn, m, hm, hamount⟩, htotal, rfl⟩
  · intro h
    obtain ⟨amount, ⟨c, hc, period, hperiod, start, hstart, n, hn, m, hm, hamount⟩, htotal,
      hvalue⟩ := h
    refine ⟨c, hc, _, htotal, period, hperiod, start, hstart, n, hn, m, hm, amount, hamount, ?_⟩
    rw [← hvalue]
    rfl

/-! ## What the contract pays -/

section
variable (halvingPeriod startBlock : ℕ)

/-- The last block of the phase before phase `k`. -/
def boundary (k : ℕ) : ℕ := k * halvingPeriod + startBlock

/-- Where the blocks that end at a boundary begin, of those after `l`. -/
def leftEnd (l n k : ℕ) : ℕ := if k = n + 1 then l else boundary halvingPeriod startBlock (k - 1)

/-- The blocks up to each boundary, at the rate of the boundary. -/
def paidToBoundaries (reward : ℕ → ℕ) (l n phases : ℕ) : ℚ :=
  ∑ k ∈ Finset.Ico (n + 1) (n + 1 + phases),
    ((boundary halvingPeriod startBlock k : ℚ) - leftEnd halvingPeriod startBlock l n k) *
      reward (boundary halvingPeriod startBlock k)

/-- The piecewise sum over the blocks after `c` up to `c + Y`, in phases `n` to `m`. -/
def paidWithin (reward : ℕ → ℕ) (c Y n m : ℕ) : ℚ :=
  paidToBoundaries halvingPeriod startBlock reward c n (m - n) +
    ((c + Y : ℕ) - (if m = n then c else boundary halvingPeriod startBlock m : ℕ)) *
      reward (c + Y)

/-- What the loop adds for the rest of the year. -/
def addedTails (reward : ℕ → ℕ) (last n phases : ℕ) : ℚ :=
  ∑ k ∈ Finset.Ico (n + 1) (n + 1 + phases),
    ((last : ℚ) - boundary halvingPeriod startBlock k) * reward last

end

section
variable {rewards : Mdex.Rewards} {reward : ℕ → ℕ} {halvingPeriod startBlock : ℕ}

/-- The first boundary, and the others from it on. -/
theorem paidToBoundaries_succ (l n phases : ℕ) :
    paidToBoundaries halvingPeriod startBlock reward l n (phases + 1) =
      ((boundary halvingPeriod startBlock (n + 1) : ℚ) - l) *
          reward (boundary halvingPeriod startBlock (n + 1)) +
        paidToBoundaries halvingPeriod startBlock reward
          (boundary halvingPeriod startBlock (n + 1)) (n + 1) phases := by
  unfold paidToBoundaries
  rw [Finset.sum_eq_sum_Ico_succ_bot (by omega), leftEnd, if_pos rfl,
    show n + 1 + (phases + 1) = n + 1 + 1 + phases by omega]
  congr 1
  refine Finset.sum_congr rfl fun k hk => ?_
  have hlater : n + 1 + 1 ≤ k := (Finset.mem_Ico.mp hk).1
  have hleft : leftEnd halvingPeriod startBlock l n k = leftEnd halvingPeriod startBlock
      (boundary halvingPeriod startBlock (n + 1)) (n + 1) k := by
    unfold leftEnd
    rw [if_neg (by omega)]
    by_cases hfirst : k = n + 1 + 1
    · rw [if_pos hfirst, hfirst, Nat.add_sub_cancel]
    · rw [if_neg hfirst]
  rw [hleft]

theorem addedTails_succ (last n phases : ℕ) :
    addedTails halvingPeriod startBlock reward last n (phases + 1) =
      ((last : ℚ) - boundary halvingPeriod startBlock (n + 1)) * reward last +
        addedTails halvingPeriod startBlock reward last (n + 1) phases := by
  unfold addedTails
  rw [Finset.sum_eq_sum_Ico_succ_bot (by omega),
    show n + 1 + (phases + 1) = n + 1 + 1 + phases by omega]

/-- The loop adds what is paid up to the boundaries, and a rest for each of them. -/
theorem addPhases_eq {last : ℕ}
    (hreward : ∀ block : ℕ, rewards.getFarmReward (.finite block) = .ok (reward block))
    (phases : ℕ) : ∀ (n l : ℕ) (amount : ℚ),
    Mdex.addPhases rewards halvingPeriod startBlock (.finite last) phases n (.finite l)
        (.finite amount) =
      .ok (.finite (amount + paidToBoundaries halvingPeriod startBlock reward l n phases +
        addedTails halvingPeriod startBlock reward last n phases)) := by
  induction phases with
  | zero =>
    intro n l amount
    simp [Mdex.addPhases, paidToBoundaries, addedTails]
    rfl
  | succ phases ih =>
    intro n l amount
    have hr : add (mul (.finite (n + 1)) (.finite halvingPeriod)) (.finite startBlock) =
        .finite (boundary halvingPeriod startBlock (n + 1) : ℕ) := by
      show Number.finite (((n : ℚ) + 1) * halvingPeriod + startBlock) = _
      unfold boundary
      push_cast
      rfl
    have hamount : add (add (.finite amount) (mul (sub
          (.finite (boundary halvingPeriod startBlock (n + 1) : ℕ)) (.finite l))
          (.finite (reward (boundary halvingPeriod startBlock (n + 1))))))
        (mul (sub (.finite last) (.finite (boundary halvingPeriod startBlock (n + 1) : ℕ)))
          (.finite (reward last))) =
        .finite (amount + ((boundary halvingPeriod startBlock (n + 1) : ℚ) - l) *
          reward (boundary halvingPeriod startBlock (n + 1)) +
            ((last : ℚ) - boundary halvingPeriod startBlock (n + 1)) * reward last) := by
      rw [sub_eq_add_neg, sub_eq_add_neg]
      rfl
    rw [Mdex.addPhases, hr, hreward, hreward]
    show Mdex.addPhases rewards halvingPeriod startBlock (.finite last) phases (n + 1) _ _ = _
    rw [hamount, ih, paidToBoundaries_succ, addedTails_succ]
    congr 2
    ring

/-- The year's rewards, when the calls succeed. -/
theorem rewardAmountInOneYear_eq {c Y n m : ℕ}
    (hblock : rewards.getBlockNumber = .ok c)
    (hhalving : rewards.getFarmHalvingPeriod = .ok halvingPeriod)
    (hstart : rewards.getFarmStartBlock = .ok startBlock)
    (hn : rewards.getFarmPhase (.finite c) = .ok n)
    (hm : rewards.getFarmPhase (.finite (c + Y : ℕ)) = .ok m)
    (hreward : ∀ block : ℕ, rewards.getFarmReward (.finite block) = .ok (reward block)) :
    rewardAmountInOneYear rewards (.finite Y) =
      .ok (.finite (paidToBoundaries halvingPeriod startBlock reward c n (m - n) +
        addedTails halvingPeriod startBlock reward (c + Y) n (m - n))) := by
  have hlast : add (.finite c) (.finite Y) = .finite (c + Y : ℕ) := by
    rw [Nat.cast_add]
    rfl
  unfold rewardAmountInOneYear
  rw [hblock, hhalving, hstart]
  show (rewards.getFarmPhase (.finite c) >>= fun n =>
    rewards.getFarmPhase (add (.finite c) (.finite Y)) >>= fun m => _) = _
  rw [hlast, hn, hm]
  show Mdex.addPhases rewards halvingPeriod startBlock (.finite (c + Y : ℕ)) (m - n) n (.finite c)
    (.finite 0) = _
  rw [addPhases_eq hreward, zero_add]

/-! ## How often the rest of the year is added -/

/-- Where every boundary lies before the year's end, the rests add up to one
exactly when there is one boundary, or when the last block pays nothing. -/
theorem addedTails_eq_last_iff {last n m : ℕ} (hnm : n < m)
    (hbefore : ∀ k, k ≤ m → boundary halvingPeriod startBlock k < last) :
    addedTails halvingPeriod startBlock reward last n (m - n) =
        ((last : ℚ) - boundary halvingPeriod startBlock m) * reward last ↔
      reward last = 0 ∨ m = n + 1 := by
  have hsum : addedTails halvingPeriod startBlock reward last n (m - n) =
      (∑ k ∈ Finset.Ico (n + 1) m, ((last : ℚ) - boundary halvingPeriod startBlock k)) *
          reward last +
        ((last : ℚ) - boundary halvingPeriod startBlock m) * reward last := by
    unfold addedTails
    rw [show n + 1 + (m - n) = m + 1 by omega, Finset.sum_Ico_succ_top (by omega), Finset.sum_mul]
  rw [hsum, add_eq_right, mul_eq_zero, Nat.cast_eq_zero, or_comm]
  refine or_congr_right ?_
  constructor
  · intro hzero
    by_contra hne
    have hpositive : 0 < ∑ k ∈ Finset.Ico (n + 1) m,
        ((last : ℚ) - boundary halvingPeriod startBlock k) := by
      refine Finset.sum_pos (fun k hk => ?_) ⟨n + 1, Finset.mem_Ico.mpr ⟨le_rfl, by omega⟩⟩
      have hk := hbefore k (Finset.mem_Ico.mp hk).2.le
      have hcast : (boundary halvingPeriod startBlock k : ℚ) < last := by exact_mod_cast hk
      linarith
    exact hpositive.ne' hzero
  · intro hm
    rw [hm, Finset.Ico_self, Finset.sum_empty]

/-- For every current block and every number of blocks in a year: the rewards that
the loop computes are the piecewise sum exactly when one boundary of a phase lies
within the year, or the year has no block, or its last block pays nothing. -/
theorem rewardAmount_eq_paid_iff {c Y n m : ℕ} (hphases : PhasesOf rewards)
    (hperiod : 0 < halvingPeriod)
    (hblock : rewards.getBlockNumber = .ok c)
    (hhalving : rewards.getFarmHalvingPeriod = .ok halvingPeriod)
    (hstart : rewards.getFarmStartBlock = .ok startBlock)
    (hn : rewards.getFarmPhase (.finite c) = .ok n)
    (hm : rewards.getFarmPhase (.finite (c + Y : ℕ)) = .ok m)
    (hreward : ∀ block : ℕ, rewards.getFarmReward (.finite block) = .ok (reward block)) :
    rewardAmountInOneYear rewards (.finite Y) =
        .ok (.finite (paidWithin halvingPeriod startBlock reward c Y n m)) ↔
      m = n + 1 ∨ Y = 0 ∨ reward (c + Y) = 0 := by
  obtain ⟨_, _, hafter⟩ := hphases.whole _ _ _ _ hhalving hstart hn
  obtain ⟨_, hbefore, hafter'⟩ := hphases.whole _ _ _ _ hhalving hstart hm
  have hend : c + Y ≤ (m + 1) * halvingPeriod + startBlock := by
    exact_mod_cast hbefore hperiod.ne'
  have hnm : n ≤ m := by
    by_contra hlt
    have hstarted : n * halvingPeriod + startBlock < c := by exact_mod_cast hafter (by omega)
    have hmono : (m + 1) * halvingPeriod ≤ n * halvingPeriod := Nat.mul_le_mul_right _ (by omega)
    omega
  rw [rewardAmountInOneYear_eq hblock hhalving hstart hn hm hreward, Except.ok.injEq,
    Number.finite.injEq, paidWithin, add_right_inj]
  rcases hnm.eq_or_lt with rfl | hnm
  · -- no boundary: nothing is added for the rest of the year
    have hnone : addedTails halvingPeriod startBlock reward (c + Y) n (n - n) = 0 := by
      rw [Nat.sub_self]
      exact Finset.sum_eq_zero fun k hk => by simp at hk
    rw [hnone, if_pos rfl, zero_eq_mul, Nat.cast_eq_zero, Nat.cast_add, add_sub_cancel_left,
      Nat.cast_eq_zero]
    exact ⟨Or.inr, fun h => h.resolve_left (by omega)⟩
  · have hlast : m * halvingPeriod + startBlock < c + Y := by
      exact_mod_cast hafter' (by omega)
    have hboundaries : ∀ k, k ≤ m → boundary halvingPeriod startBlock k < c + Y := by
      intro k hk
      have hmono : k * halvingPeriod ≤ m * halvingPeriod := Nat.mul_le_mul_right _ hk
      unfold boundary
      omega
    have hY : Y ≠ 0 := by
      rintro rfl
      rw [Nat.add_zero, hn] at hm
      exact hnm.ne (Except.ok.inj hm)
    rw [if_neg hnm.ne', addedTails_eq_last_iff hnm hboundaries]
    constructor
    · intro h
      exact h.elim (fun h => Or.inr (Or.inr h)) Or.inl
    · intro h
      exact h.elim Or.inr fun h => Or.inl (h.resolve_left hY)

end

/-! ## A contract that halves every hundred blocks -/

/-- `phase` of the contract, for the number of a block. -/
def phaseOf (halvingPeriod startBlock : ℕ) : Number → Except Thrown ℕ
  | .finite block =>
    if block.den = 1 ∧ 0 ≤ block then .ok ((block.num.toNat - startBlock - 1) / halvingPeriod)
    else .error (rawError "underflow")
  | _ => .error (rawError "invalid BigNumber string")

/-- A contract whose blocks all pay three. -/
def halvingContract (currentBlockNumber : ℕ) : Mdex.Rewards where
  getBlockNumber := .ok currentBlockNumber
  getFarmTotalAllocPoint := .ok 1
  getFarmHalvingPeriod := .ok 100
  getFarmStartBlock := .ok 0
  getFarmPhase := phaseOf 100 0
  getFarmReward _ := .ok 3

theorem phasesOf_halvingContract (currentBlockNumber : ℕ) :
    PhasesOf (halvingContract currentBlockNumber) where
  whole := by
    intro period start block phase hperiod hstart hphase
    obtain rfl : 100 = period := Except.ok.inj hperiod
    obtain rfl : 0 = start := Except.ok.inj hstart
    simp only [halvingContract, phaseOf] at hphase
    split at hphase
    · rename_i hwhole
      obtain ⟨number, hnumber⟩ : ∃ number : ℕ, block = number := by
        refine ⟨block.num.toNat, ?_⟩
        have hnum : (block.num.toNat : ℤ) = block.num :=
          Int.toNat_of_nonneg (Rat.num_nonneg.mpr hwhole.2)
        rw [← Int.cast_natCast, hnum]
        exact ((Rat.den_eq_one_iff block).mp hwhole.1).symm
      subst hnumber
      obtain rfl := Except.ok.inj hphase
      rw [Rat.num_natCast, Int.toNat_natCast]
      refine ⟨fun h => absurd h (by omega), fun _ => ?_, fun hne => ?_⟩
      · have hle : number ≤ ((number - 0 - 1) / 100 + 1) * 100 + 0 := by omega
        exact_mod_cast hle
      · have hlt : (number - 0 - 1) / 100 * 100 + 0 < number := by omega
        exact_mod_cast hlt
    · cases hphase
  unbounded := by
    intro negative phase h
    cases h

/-- In a year with one boundary the rest is added once. -/
theorem one_boundary_paid :
    rewardAmountInOneYear (halvingContract 10) (.finite (120 : ℕ)) =
      .ok (.finite (paidWithin 100 0 (fun _ => 3) 10 120 0 1)) :=
  (rewardAmount_eq_paid_iff (phasesOf_halvingContract 10) (by omega) rfl rfl rfl rfl rfl
    fun _ => rfl).mpr (Or.inl rfl)

/-- The twenty blocks of a year without a boundary count for nothing, and in a
year with two boundaries the rest, sixty blocks, counts twice. -/
theorem boundaries_miscounted :
    (rewardAmountInOneYear (halvingContract 10) (.finite (20 : ℕ)) = .ok (.finite 0) ∧
      paidWithin 100 0 (fun _ => 3) 10 20 0 0 = 60) ∧
    rewardAmountInOneYear (halvingContract 10) (.finite (250 : ℕ)) = .ok (.finite 1230) ∧
      paidWithin 100 0 (fun _ => 3) 10 250 0 2 = 750 := by
  have hcurrent : (halvingContract 10).getBlockNumber = .ok 10 := rfl
  have hnone := rewardAmountInOneYear_eq (Y := 20) (n := 0) (m := 0) hcurrent rfl rfl rfl rfl
    fun _ => rfl
  have htwo := rewardAmountInOneYear_eq (Y := 250) (n := 0) (m := 2) hcurrent rfl rfl rfl rfl
    fun _ => rfl
  refine ⟨⟨hnone.trans ?_, by decide +kernel⟩, htwo.trans ?_, by decide +kernel⟩
  · exact congrArg (fun q => Except.ok (Number.finite q)) (by decide +kernel)
  · exact congrArg (fun q => Except.ok (Number.finite q)) (by decide +kernel)

end BlockchainTask.SchedulerJob.MdexRewards

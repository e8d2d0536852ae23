import BlockchainTask.Defi.VenusBSCService
import BlockchainTask.Library.IndexedLoop
import BlockchainTask.Multicalls.Aggregator

/-! # What is reported of a market

Three calls are made for each market, and each of the three answers should count
for itself: a call that failed or returned nothing counts as zero. For what was
borrowed the code asks whether it was the exchange rate that returned bytes. So a
debt is hidden where there is no exchange rate, and where there is one an empty
answer to what was borrowed ends the whole request. -/
namespace BlockchainTask.Defi.VenusWallet
open BlockchainTask.Common.Exception BlockchainTask.Helper BlockchainTask.Helper.BatchContract
open BlockchainTask.Helper.Decimals BlockchainTask.Library.Decimal BlockchainTask.Library.Effect
open BlockchainTask.Library.IndexedLoop BlockchainTask.Multicalls.Aggregator
open BlockchainTask.Defi.VenusBSCService

/-! ## Lists with something left out -/

section
variable {α : Type}

/-- Rows of which some are missing. -/
def LeavesOut (kept all : List (Option α)) : Prop :=
  List.Forall₂ (fun row full => row = none ∨ row = full) kept all

theorem LeavesOut.length_le {kept all : List (Option α)} (h : LeavesOut kept all) :
    (kept.filterMap id).length ≤ (all.filterMap id).length := by
  induction h with
  | nil => exact Nat.le_refl _
  | @cons row full kept all hrow _ ih =>
    cases full with
    | none =>
      obtain rfl : row = none := hrow.elim id id
      simpa using ih
    | some x =>
      rcases hrow with rfl | rfl
      · show (kept.filterMap id).length ≤ (x :: all.filterMap id).length
        rw [List.length_cons]
        omega
      · simpa using ih

/-- Nothing is left out where the same is listed. -/
theorem LeavesOut.eq {kept all : List (Option α)} (h : LeavesOut kept all)
    (hsame : kept.filterMap id = all.filterMap id) : kept = all := by
  induction h with
  | nil => rfl
  | @cons row full kept all hrow hrest ih =>
    cases full with
    | none =>
      obtain rfl : row = none := hrow.elim id id
      rw [ih (by simpa using hsame)]
    | some x =>
      rcases hrow with rfl | rfl
      · -- the rest would have to make up for the row that is missing
        have hlength := LeavesOut.length_le hrest
        have hlist : (kept.filterMap id).length = (x :: all.filterMap id).length :=
          congrArg List.length hsame
        rw [List.length_cons] at hlist
        omega
      · rw [ih (by simpa using hsame)]

end

/-! ## One market -/

section
variable {market : Market} {balanceOf exchangeRate borrowBalance : Result}

/-- A call that failed, or returned nothing or a number. -/
def Answered (result : Result) : Prop := result.success = true → result.returnData ≠ .malformed

/-- The supply, by the balance and the exchange rate. -/
def supplyAmount (market : Market) (balanceOf exchangeRate : Result) : Number :=
  divideDecimals ((div (mul (.finite (rawAmount balanceOf)) (.finite (rawAmount exchangeRate)))
    (.finite (10 ^ 18))).rounded 0) market.token.decimals

/-- What was borrowed, by its own answer. -/
def borrowAmount (market : Market) (borrowBalance : Result) : Number :=
  divideDecimals (.finite (rawAmount borrowBalance)) market.token.decimals

/-- What should be reported of a market. -/
def expected (market : Market) (balanceOf exchangeRate borrowBalance : Result) :
    Option MarketWallet :=
  if isZero (supplyAmount market balanceOf exchangeRate) &&
      isZero (borrowAmount market borrowBalance) then none
  else some ⟨market, supplyAmount market balanceOf exchangeRate, borrowAmount market borrowBalance⟩

/-- The answer to what was borrowed is not misread by the bytes of the exchange
rate: an empty one stands beside none, and a debt beside some. -/
structure Guarded (exchangeRate borrowBalance : Result) : Prop where
  empty : borrowBalance.success = true → borrowBalance.returnData = .null →
    exchangeRate.returnData = .null
  debt : ∀ n, borrowBalance.success = true → borrowBalance.returnData = .uint256 n → n ≠ 0 →
    exchangeRate.returnData ≠ .null

theorem decodedIf_own {result : Result} (h : Answered result) :
    decodedIf result.success result.returnData result.returnData =
      .ok (.finite (rawAmount result)) := by
  obtain ⟨success, returnData⟩ := result
  unfold decodedIf rawAmount
  cases success with
  | false => simp [ZERO]
  | true =>
    cases returnData with
    | null => simp [ZERO]
    | uint256 n => simp [decodeFunctionResultData]
    | malformed => exact absurd rfl (h rfl)

theorem decodedIf_guarded (h : Answered borrowBalance) (hguard : Guarded exchangeRate borrowBalance) :
    decodedIf borrowBalance.success exchangeRate.returnData borrowBalance.returnData =
      .ok (.finite (rawAmount borrowBalance)) := by
  obtain ⟨success, returnData⟩ := borrowBalance
  unfold decodedIf rawAmount
  cases success with
  | false => simp [ZERO]
  | true =>
    cases returnData with
    | null => simp [hguard.empty rfl rfl, ZERO]
    | malformed => exact absurd rfl (h rfl)
    | uint256 n =>
      by_cases hrate : exchangeRate.returnData = .null
      · have hn : n = 0 := by
          by_contra hn
          exact hguard.debt n rfl rfl hn hrate
        simp [hrate, hn, ZERO]
      · simp [hrate, decodeFunctionResultData]

/-- Where the guard holds the market is reported as it should be. -/
theorem walletOf_of_guarded (market : Market) (hbalance : Answered balanceOf) (hrate : Answered exchangeRate)
    (hborrow : Answered borrowBalance) (hguard : Guarded exchangeRate borrowBalance) :
    walletOf market balanceOf exchangeRate borrowBalance =
      .ok (expected market balanceOf exchangeRate borrowBalance) := by
  unfold walletOf
  rw [decodedIf_own hbalance, decodedIf_own hrate, decodedIf_guarded hborrow hguard]
  rfl

theorem rawAmount_of_null {result : Result} (h : result.returnData = .null) :
    rawAmount result = 0 := by
  obtain ⟨success, returnData⟩ := result
  obtain rfl : returnData = .null := h
  cases success <;> rfl

/-- Without an exchange rate there is no supply. -/
theorem supplyAmount_of_null (h : exchangeRate.returnData = .null) :
    supplyAmount market balanceOf exchangeRate = .finite 0 := by
  unfold supplyAmount
  rw [rawAmount_of_null h]
  simp [div, Number.dividedBy, Number.rounded]

theorem not_guarded_iff : ¬ Guarded exchangeRate borrowBalance ↔
    (borrowBalance.success = true ∧ borrowBalance.returnData = .null ∧
      exchangeRate.returnData ≠ .null) ∨
    ∃ n, borrowBalance.success = true ∧ borrowBalance.returnData = .uint256 n ∧ n ≠ 0 ∧
      exchangeRate.returnData = .null := by
  constructor
  · intro hguard
    by_contra hnone
    rw [not_or] at hnone
    refine hguard ⟨fun hsuccess hempty => ?_, fun n hsuccess hdata hn hnull => ?_⟩
    · by_contra hbytes
      exact hnone.1 ⟨hsuccess, hempty, hbytes⟩
    · exact hnone.2 ⟨n, hsuccess, hdata, hn, hnull⟩
  · rintro (⟨hsuccess, hempty, hbytes⟩ | ⟨n, hsuccess, hdata, hn, hnull⟩) hguard
    · exact hbytes (hguard.empty hsuccess hempty)
    · exact hguard.debt n hsuccess hdata hn hnull

/-- An empty answer is decoded. -/
theorem decodedIf_empty (hsuccess : borrowBalance.success = true)
    (hempty : borrowBalance.returnData = .null) (hbytes : exchangeRate.returnData ≠ .null) :
    decodedIf borrowBalance.success exchangeRate.returnData borrowBalance.returnData =
      .error (rawError "data out-of-bounds") := by
  rw [hsuccess, hempty]
  simp [decodedIf, hbytes, decodeFunctionResultData]

/-- A debt beside no exchange rate is taken for none, and so is the supply. -/
theorem walletOf_of_hidden (hbalance : Answered balanceOf) (hrate : Answered exchangeRate)
    (hnull : exchangeRate.returnData = .null) :
    walletOf market balanceOf exchangeRate borrowBalance = .ok none := by
  have hzero : decodedIf borrowBalance.success exchangeRate.returnData borrowBalance.returnData =
      .ok ZERO := by
    simp [decodedIf, hnull]
  unfold walletOf
  rw [decodedIf_own hbalance, decodedIf_own hrate, hzero]
  show Except.ok (if isZero (supplyAmount market balanceOf exchangeRate) && _ then _ else _) = _
  rw [supplyAmount_of_null hnull]
  simp [ZERO]

theorem expected_of_debt {n : ℕ} (hsuccess : borrowBalance.success = true)
    (hdata : borrowBalance.returnData = .uint256 n) (hn : n ≠ 0) :
    expected market balanceOf exchangeRate borrowBalance ≠ none := by
  have hborrow : borrowAmount market borrowBalance = .finite (n / 10 ^ market.token.decimals) := by
    rw [borrowAmount, rawAmount, hsuccess, hdata]
    exact divideDecimals_finite _ _
  have hpow := (pow_ten_pos market.token.decimals).ne'
  unfold expected
  rw [hborrow]
  simp [hn, hpow]

/-- Where it does not hold the request throws, or a debt is not reported. -/
theorem walletOf_of_not_guarded (market : Market) (hbalance : Answered balanceOf) (hrate : Answered exchangeRate)
    (hguard : ¬ Guarded exchangeRate borrowBalance) :
    (∃ e, walletOf market balanceOf exchangeRate borrowBalance = .error e) ∨
      walletOf market balanceOf exchangeRate borrowBalance = .ok none ∧
        expected market balanceOf exchangeRate borrowBalance ≠ none := by
  rcases not_guarded_iff.mp hguard with ⟨hsuccess, hempty, hbytes⟩ | ⟨n, hsuccess, hdata, hn, hnull⟩
  · left
    unfold walletOf
    rw [decodedIf_own hbalance, decodedIf_own hrate, decodedIf_empty hsuccess hempty hbytes]
    exact ⟨_, rfl⟩
  · right
    exact ⟨walletOf_of_hidden hbalance hrate hnull, expected_of_debt hsuccess hdata hn⟩

end

/-! ## A list of markets -/

/-- The answers to the calls of a market. -/
structure MarketAnswers where
  balanceOf : Result
  exchangeRate : Result
  borrowBalance : Result

/-- The answers to the calls of the `i`-th market. -/
def answersOf (answer : ℕ → WalletCall → Result) (walletAddress : String) (i : ℕ)
    (market : Market) : MarketAnswers :=
  ⟨answer (i * 3) ⟨market.lending.address, .balanceOf walletAddress⟩,
    answer (i * 3 + 1) ⟨market.lending.address, .exchangeRateStored⟩,
    answer (i * 3 + 2) ⟨market.lending.address, .borrowBalanceStored walletAddress⟩⟩

section
variable {answer : ℕ → WalletCall → Result} {walletAddress : String} {markets : List Market}

/-- Every answer failed, or returned nothing or a number. -/
structure AllAnswered (answer : ℕ → WalletCall → Result) (walletAddress : String)
    (markets : List Market) : Prop where
  balanceOf : ∀ i market, markets[i]? = some market →
    Answered (answersOf answer walletAddress i market).balanceOf
  exchangeRate : ∀ i market, markets[i]? = some market →
    Answered (answersOf answer walletAddress i market).exchangeRate
  borrowBalance : ∀ i market, markets[i]? = some market →
    Answered (answersOf answer walletAddress i market).borrowBalance

/-- The row of a market, as it is and as it should be. -/
def walletRow (answer : ℕ → WalletCall → Result) (walletAddress : String) (i : ℕ)
    (market : Market) : Except Thrown (Option MarketWallet) :=
  let answers := answersOf answer walletAddress i market
  walletOf market answers.balanceOf answers.exchangeRate answers.borrowBalance

def expectedRow (answer : ℕ → WalletCall → Result) (walletAddress : String) (i : ℕ)
    (market : Market) : Option MarketWallet :=
  let answers := answersOf answer walletAddress i market
  expected market answers.balanceOf answers.exchangeRate answers.borrowBalance

/-- The markets, in order, with a supply or a debt, by their own answers. -/
def Meets (answer : ℕ → WalletCall → Result) (walletAddress : String) (markets : List Market) :
    Prop :=
  getLendingWalletInfo (fun calls => .ok (calls.mapIdx answer)) markets walletAddress =
    .ok ((markets.mapIdx (expectedRow answer walletAddress)).filterMap id)

/-- Each market is read from the answers to its own calls. -/
theorem getLendingWalletInfo_eq (answer : ℕ → WalletCall → Result) (markets : List Market)
    (walletAddress : String) :
    getLendingWalletInfo (fun calls => .ok (calls.mapIdx answer)) markets walletAddress =
      mapIndex (walletRow answer walletAddress) 0 markets >>= fun output =>
        .ok (output.filterMap id) := by
  have hcalls : ∀ calls ∈ markets.map (walletCalls walletAddress), calls.length = 3 := by
    intro calls hcalls
    obtain ⟨market, _, rfl⟩ := List.mem_map.mp hcalls
    rfl
  have hrows : markets.zipIdx.mapM (fun p => marketWallet p.1
      ((markets.map (walletCalls walletAddress)).mapIdx (ownResults answer 3))[p.2]?) =
        mapIndex (walletRow answer walletAddress) 0 markets := by
    refine Eff.except_mapM_congr fun p hp => ?_
    have hget : markets[p.2]? = some p.1 := List.mem_zipIdx_iff_getElem?.mp hp
    rw [List.getElem?_mapIdx, List.getElem?_map, hget]
    rfl
  rw [← hrows, ← split_mapIdx (by decide : 1 ≤ 3) hcalls answer]
  rfl

theorem leavesOut_of_mapIndex {rows : List (Option MarketWallet)}
    (hanswered : AllAnswered answer walletAddress markets)
    (hrows : mapIndex (walletRow answer walletAddress) 0 markets = .ok rows) :
    LeavesOut rows (markets.mapIdx (expectedRow answer walletAddress)) := by
  have hpositions := Eff.forall₂_of_mapM hrows
  rw [List.mapIdx_eq_zipIdx_map]
  refine List.forall₂_map_right_iff.mpr ?_
  have hmembers : List.Forall₂ (fun p row => p ∈ markets.zipIdx ∧
      walletRow answer walletAddress p.2 p.1 = .ok row) markets.zipIdx rows :=
    (List.forall₂_and_left _ _).mpr ⟨fun p hp => hp, hpositions⟩
  refine (hmembers.imp ?_).flip
  rintro ⟨market, i⟩ row ⟨hmem, hrow⟩
  have hget : markets[i]? = some market := List.mk_mem_zipIdx_iff_getElem?.mp hmem
  have hbalance := hanswered.balanceOf i market hget
  have hrate := hanswered.exchangeRate i market hget
  by_cases hguard : Guarded (answersOf answer walletAddress i market).exchangeRate
      (answersOf answer walletAddress i market).borrowBalance
  · right
    have hrow' := walletOf_of_guarded market hbalance hrate
      (hanswered.borrowBalance i market hget) hguard
    exact Except.ok.inj (hrow.symm.trans hrow')
  · left
    rcases walletOf_of_not_guarded market hbalance hrate hguard with ⟨e, hthrow⟩ | hnone
    · cases hrow.symm.trans hthrow
    · exact Except.ok.inj (hrow.symm.trans hnone.1)

theorem guarded_of_meets (hanswered : AllAnswered answer walletAddress markets)
    (hmeets : Meets answer walletAddress markets) :
    ∀ i market, markets[i]? = some market →
      Guarded (answersOf answer walletAddress i market).exchangeRate
        (answersOf answer walletAddress i market).borrowBalance := by
  unfold Meets at hmeets
  rw [getLendingWalletInfo_eq] at hmeets
  obtain ⟨rows, hrows, hsame⟩ := Eff.except_bind_eq_ok.mp hmeets
  have hall := (leavesOut_of_mapIndex hanswered hrows).eq (Except.ok.inj hsame)
  rw [hall] at hrows
  intro i market hget
  have hrow := mapIndex_eq_ok_iff.mp hrows i market hget
  by_contra hguard
  rcases walletOf_of_not_guarded market (hanswered.balanceOf i market hget)
    (hanswered.exchangeRate i market hget) hguard with ⟨e, hthrow⟩ | hnone
  · cases hrow.symm.trans hthrow
  · exact hnone.2 (Except.ok.inj (hrow.symm.trans hnone.1))

theorem meets_of_guarded (hanswered : AllAnswered answer walletAddress markets)
    (hguard : ∀ i market, markets[i]? = some market →
      Guarded (answersOf answer walletAddress i market).exchangeRate
        (answersOf answer walletAddress i market).borrowBalance) :
    Meets answer walletAddress markets := by
  unfold Meets
  rw [getLendingWalletInfo_eq, mapIndex_of_ok (walletRow answer walletAddress)
    (expectedRow answer walletAddress)]
  · rfl
  · intro i market hget
    exact walletOf_of_guarded market (hanswered.balanceOf i market hget)
      (hanswered.exchangeRate i market hget) (hanswered.borrowBalance i market hget)
      (hguard i market hget)

/-- For every list of markets and whatever failed, empty or numeric answers there
are: the wallet's markets are reported by their own answers exactly when none of
the answers to what was borrowed is misread. -/
theorem getLendingWalletInfo_meets_iff (answer : ℕ → WalletCall → Result) (walletAddress : String)
    (markets : List Market) (hanswered : AllAnswered answer walletAddress markets) :
    Meets answer walletAddress markets ↔ ∀ i market, markets[i]? = some market →
      Guarded (answersOf answer walletAddress i market).exchangeRate
        (answersOf answer walletAddress i market).borrowBalance :=
  ⟨guarded_of_meets hanswered, meets_of_guarded hanswered⟩

end

/-! ## A debt without an exchange rate -/

def exampleWallet : String := "0x2222222222222222222222222222222222222222"

/-- vUSDT, which lends a token of 18 decimals. -/
def vUSDT : Market :=
  ⟨.new ⟨4, 9, "0xfD5840Cd36d94D7229439859C0112a4185BC0255"⟩,
    ⟨9, "0x55d398326f99059fF775485246999027B3197955", 18, 1, true, 2⟩⟩

/-- Nothing is supplied, and a hundred tokens are borrowed. -/
def debtAnswer (exchangeRate : Result) (_ : ℕ) (call : WalletCall) : Result :=
  match call.data with
  | .balanceOf _ => ⟨true, .uint256 0⟩
  | .exchangeRateStored => exchangeRate
  | .borrowBalanceStored _ => ⟨true, .uint256 (100 * 10 ^ 18)⟩

theorem debt_allAnswered {exchangeRate : Result} (h : Answered exchangeRate) :
    AllAnswered (debtAnswer exchangeRate) exampleWallet [vUSDT] :=
  ⟨fun _ _ _ _ hdata => (by cases hdata), fun _ _ _ => h, fun _ _ _ _ hdata => (by cases hdata)⟩

theorem getLendingWalletInfo_vUSDT :
    Meets (debtAnswer ⟨true, .uint256 (2 * 10 ^ 26)⟩) exampleWallet [vUSDT] := by
  refine (getLendingWalletInfo_meets_iff (debtAnswer ⟨true, .uint256 (2 * 10 ^ 26)⟩) exampleWallet
    [vUSDT] (debt_allAnswered fun _ hdata => (by cases hdata))).mpr fun i market _ => ⟨?_, ?_⟩
  · intro _ hdata
    cases hdata
  · intro _ _ _ _ hnull
    cases hnull

/-- The call for the exchange rate fails, and the debt is not reported. -/
theorem getLendingWalletInfo_hides_debt :
    AllAnswered (debtAnswer ⟨false, .null⟩) exampleWallet [vUSDT] ∧
      ¬ Meets (debtAnswer ⟨false, .null⟩) exampleWallet [vUSDT] := by
  have hanswered : AllAnswered (debtAnswer ⟨false, .null⟩) exampleWallet [vUSDT] :=
    debt_allAnswered fun hsuccess => (by cases hsuccess)
  refine ⟨hanswered, fun hmeets => ?_⟩
  exact (guarded_of_meets hanswered hmeets 0 vUSDT rfl).debt (100 * 10 ^ 18) rfl rfl (by decide) rfl

end BlockchainTask.Defi.VenusWallet

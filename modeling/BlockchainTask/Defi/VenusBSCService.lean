import BlockchainTask.Helper.BatchContract
import BlockchainTask.Library.Effect
import BlockchainTask.Repository.Lending

/-! # A wallet's lendings on Venus

`getLendingWalletInfo` asks every market for the wallet's balance, the exchange
rate and what the wallet has borrowed, in one batch, and reports the markets in
which there is anything. Both amounts are in the units of the market's token. -/
namespace BlockchainTask.Defi.VenusBSCService
open BlockchainTask.Common.Exception BlockchainTask.Helper BlockchainTask.Helper.Decimals
open BlockchainTask.Helper.BatchContract BlockchainTask.Library.Decimal BlockchainTask.Library.Effect
open BlockchainTask.Repository.Lending

inductive WalletCallData where
  | balanceOf (walletAddress : String)
  | exchangeRateStored
  | borrowBalanceStored (walletAddress : String)

structure WalletCall where
  target : Option String
  data : WalletCallData

/-- A row of the lending table with its token. -/
structure Market where
  lending : LendingRow
  token : LendingToken

structure MarketWallet where
  market : Market
  supply_amount : Number
  borrow_amount : Number

/-- An answer, when its call succeeded and the bytes that are checked are there. -/
def decodedIf (success : Bool) (checked returnData : ReturnData) : Except Thrown Number :=
  if success && checked != .null then decodeFunctionResultData returnData else .ok ZERO

/-- What is reported of a market. For what was borrowed the bytes of the exchange
rate are checked. -/
def walletOf (market : Market) (balanceOf exchangeRate borrowBalance : Result) :
    Except Thrown (Option MarketWallet) := do
  let balance ← decodedIf balanceOf.success balanceOf.returnData balanceOf.returnData
  let rate ← decodedIf exchangeRate.success exchangeRate.returnData exchangeRate.returnData
  let borrowed ←
    decodedIf borrowBalance.success exchangeRate.returnData borrowBalance.returnData
  let supplyAmount := divideDecimals
    ((div (mul balance rate) (.finite (10 ^ 18))).rounded 0) market.token.decimals
  let borrowAmount := divideDecimals borrowed market.token.decimals
  pure (if isZero supplyAmount && isZero borrowAmount then none
    else some ⟨market, supplyAmount, borrowAmount⟩)

/-- The three results of a market, which are destructured. -/
def marketWallet (market : Market) : Option (List Result) → Except Thrown (Option MarketWallet)
  | some (balanceOf :: exchangeRate :: borrowBalance :: _) =>
    walletOf market balanceOf exchangeRate borrowBalance
  | _ => .error typeError

def walletCalls (walletAddress : String) (market : Market) : List WalletCall :=
  [⟨market.lending.address, .balanceOf walletAddress⟩,
    ⟨market.lending.address, .exchangeRateStored⟩,
    ⟨market.lending.address, .borrowBalanceStored walletAddress⟩]

def getLendingWalletInfo (batch : List WalletCall → Except Thrown (List Result))
    (markets : List Market) (walletAddress : String) : Except Thrown (List MarketWallet) := do
  let walletInfoBatchCall ← batch (markets.map (walletCalls walletAddress)).flatten
  let walletInfoBatchCallMap := toSplitWithChunkSize walletInfoBatchCall 3
  let output ← markets.zipIdx.mapM fun p => marketWallet p.1 walletInfoBatchCallMap[p.2]?
  pure (output.filterMap id)

/-! ## The units of what is reported -/

/-- What is reported as borrowed, of a call that succeeded with a number. -/
theorem borrow_amount_of_walletOf {market : Market} {balanceOf exchangeRate : Result}
    {borrowed : ℕ} {wallet : MarketWallet} (hrate : exchangeRate.returnData ≠ .null)
    (h : walletOf market balanceOf exchangeRate ⟨true, .uint256 borrowed⟩ = .ok (some wallet)) :
    wallet.market = market ∧
      wallet.borrow_amount = .finite (borrowed / 10 ^ market.token.decimals) := by
  have hborrowed : decodedIf true exchangeRate.returnData (.uint256 borrowed) =
      .ok (.finite borrowed) := by
    have hchecked : (true && exchangeRate.returnData != .null) = true := by
      rw [Bool.true_and, bne_iff_ne]
      exact hrate
    rw [decodedIf, if_pos hchecked, decodeFunctionResultData]
  unfold walletOf at h
  obtain ⟨balance, _, h⟩ := Eff.except_bind_eq_ok.mp h
  obtain ⟨rate, _, h⟩ := Eff.except_bind_eq_ok.mp h
  obtain ⟨amount, hamount, h⟩ := Eff.except_bind_eq_ok.mp h
  obtain rfl := Except.ok.inj (hborrowed.symm.trans hamount)
  have hreported := Except.ok.inj h
  split at hreported
  · cases hreported
  · obtain rfl := Option.some.inj hreported
    exact ⟨rfl, divideDecimals_finite _ _⟩

end BlockchainTask.Defi.VenusBSCService

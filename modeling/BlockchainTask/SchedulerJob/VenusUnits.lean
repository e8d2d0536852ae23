import BlockchainTask.Defi.VenusBSCService
import BlockchainTask.SchedulerJob.VenusLending

/-! # The units of a Venus market

The cash of a market, what is borrowed from it and its reserves are raw numbers
of the underlying token. A refresh brings the cash to the token's units by the
token's decimals and the other two by eighteen, so its amounts fit together, and
fit what a wallet's lendings are reported in, for tokens of eighteen decimals,
as long as the columns of the lending have room for them. -/
namespace BlockchainTask.SchedulerJob.VenusUnits
open BlockchainTask.Helper.BatchContract BlockchainTask.Helper.Decimals
open BlockchainTask.Library.Decimal BlockchainTask.Library.Effect BlockchainTask.Library.Store
open BlockchainTask.Library.Transaction BlockchainTask.Repository.Lending
open BlockchainTask.Defi.VenusBSCService BlockchainTask.SchedulerJob.Base
open BlockchainTask.SchedulerJob.VenusLending

/-! ## The columns of a refresh -/

/-- The amounts of a market in units of its token. -/
structure Amounts where
  liquidity : ℚ
  borrow : ℚ
  reserve : ℚ

def Amounts.supply (a : Amounts) : ℚ := a.liquidity + a.borrow - a.reserve

/-- The amounts in underlying units: the raw numbers on the scale of the token. -/
def underlyingAmounts (decimals cash totalBorrows totalReserves : ℕ) : Amounts where
  liquidity := cash / 10 ^ decimals
  borrow := totalBorrows / 10 ^ decimals
  reserve := totalReserves / 10 ^ decimals

/-- A row holds amounts, and each amount's value at a price, as its columns round
them. -/
structure Holds (row : LendingRow) (a : Amounts) (price : ℚ) : Prop where
  liquidity_amount : row.liquidity_amount = decimalColumn (.finite a.liquidity)
  liquidity_value : row.liquidity_value = decimalColumn (.finite (a.liquidity * price))
  borrow_amount : row.borrow_amount = decimalColumn (.finite a.borrow)
  borrow_value : row.borrow_value = decimalColumn (.finite (a.borrow * price))
  reserve_amount : row.reserve_amount = decimalColumn (.finite a.reserve)
  reserve_value : row.reserve_value = decimalColumn (.finite (a.reserve * price))
  supply_amount : row.supply_amount = decimalColumn (.finite a.supply)
  supply_value : row.supply_value = decimalColumn (.finite (a.supply * price))

/-- The columns have room for the amounts and their values at a price. -/
def Amounts.Fits (a : Amounts) (price : ℚ) : Prop :=
  ∀ q ∈ [a.liquidity, a.liquidity * price, a.supply, a.supply * price, a.borrow, a.borrow * price,
    a.reserve, a.reserve * price], fitsDecimal (decimalColumn (.finite q)) = true

theorem Holds.fits_iff {row : LendingRow} {a : Amounts} {price : ℚ} (h : Holds row a price) :
    row.fits = true ↔ a.Fits price := by
  simp only [LendingRow.fits, Amounts.Fits, List.all_eq_true, List.forall_mem_cons,
    h.liquidity_amount, h.liquidity_value, h.supply_amount, h.supply_value, h.borrow_amount,
    h.borrow_value, h.reserve_amount, h.reserve_value]
  simp

section
variable {env : Env} {infos : MarketInfos} {collateralFactorMantissa cash : ℕ}
variable {token : LendingToken} {row : LendingRow}

/-- What a refresh writes: the cash on the token's scale, the rest on eighteen
decimals. -/
theorem holds_refreshed :
    Holds ((refreshed env infos collateralFactorMantissa token cash).apply row)
      ⟨cash / 10 ^ token.decimals, infos.totalBorrows / 10 ^ 18, infos.totalReserves / 10 ^ 18⟩
      token.price_value := by
  have hsupply : sub (add (.finite (cash / 10 ^ token.decimals))
      (.finite (infos.totalBorrows / 10 ^ 18))) (.finite (infos.totalReserves / 10 ^ 18)) =
        .finite (Amounts.supply ⟨cash / 10 ^ token.decimals, infos.totalBorrows / 10 ^ 18,
          infos.totalReserves / 10 ^ 18⟩) := by
    rw [Amounts.supply, sub_eq_add_neg]
    rfl
  constructor <;> simp only [refreshed, divideDecimals_finite, mul_finite, hsupply]

/-! ## One scale for another -/

/-- A raw number on two scales is written as the same column exactly when the
scales are the same, or it is nothing. -/
theorem decimalColumn_scale_iff {raw decimals : ℕ} :
    decimalColumn (.finite (raw / 10 ^ 18)) = decimalColumn (.finite (raw / 10 ^ decimals)) ↔
      decimals = 18 ∨ raw = 0 := by
  have hten : ∀ {k : ℕ}, k ≠ 0 → (10 : ℚ) ≤ 10 ^ k := fun hk => le_self_pow₀ (by norm_num) hk
  have hcolumn : ∀ p q : ℚ, decimalColumn (.finite p) = decimalColumn (.finite q) ↔
      roundHalfUp 22 p = roundHalfUp 22 q := fun p q => Number.finite.injEq _ _ ▸ Iff.rfl
  -- on eighteen decimals nothing is lost in a column
  have hzero : roundHalfUp 22 ((raw : ℚ) / 10 ^ 18) = 0 ↔ raw = 0 := by
    have hnonneg : (0 : ℚ) ≤ (raw : ℚ) / 10 ^ 18 := by positivity
    rw [roundHalfUp_eq_zero_iff, abs_of_nonneg hnonneg]
    constructor
    · intro h
      have hsmall : (raw : ℚ) < 1 := by
        rw [div_mul_eq_mul_div, div_lt_iff₀ (by norm_num)] at h
        norm_num at h
        linarith
      have hlt : raw < 1 := by exact_mod_cast hsmall
      omega
    · rintro rfl
      norm_num
  rw [hcolumn]
  rcases lt_trichotomy decimals 18 with hlt | rfl | hgt
  · have hscale : (raw : ℚ) / 10 ^ decimals = raw / 10 ^ 18 * 10 ^ (18 - decimals) := by
      rw [div_mul_eq_mul_div, div_eq_div_iff (by positivity) (by positivity), mul_assoc, ← pow_add,
        Nat.sub_add_cancel hlt.le]
    rw [hscale, eq_comm, roundHalfUp_eq_iff_of_ten_le (hten (by omega)), hzero,
      or_iff_right hlt.ne]
    refine ⟨fun h => h.2, fun h => ⟨?_, h⟩⟩
    rw [h]
    simp
  · exact ⟨fun _ => Or.inl rfl, fun _ => rfl⟩
  · have hscale : (raw : ℚ) / 10 ^ 18 = raw / 10 ^ decimals * 10 ^ (decimals - 18) := by
      rw [div_mul_eq_mul_div, div_eq_div_iff (by positivity) (by positivity), mul_assoc, ← pow_add,
        Nat.sub_add_cancel hgt.le]
    have hboth : roundHalfUp 22 ((raw : ℚ) / 10 ^ decimals * 10 ^ (decimals - 18)) =
        roundHalfUp 22 ((raw : ℚ) / 10 ^ decimals) ↔ _ :=
      roundHalfUp_eq_iff_of_ten_le (hten (by omega))
    rw [← hscale] at hboth
    rw [hboth, hzero, or_iff_right hgt.ne']
    refine ⟨fun h => h.1, fun h => ⟨h, ?_⟩⟩
    rw [h]
    simp

/-! ## When the units agree -/

/-- What is borrowed of a market is the amount a wallet would be reported that
has borrowed all of it. -/
def AgreesWithWallets (market : Market) (totalBorrows : ℕ) (row : LendingRow) : Prop :=
  ∀ balanceOf exchangeRate wallet, exchangeRate.returnData ≠ .null →
    walletOf market balanceOf exchangeRate ⟨true, .uint256 totalBorrows⟩ = .ok (some wallet) →
      row.borrow_amount = decimalColumn wallet.borrow_amount

/-- A row has the market's amounts in underlying units, with their values, and its
borrow amount is in the units of a wallet's. -/
def InUnderlying (infos : MarketInfos) (token : LendingToken) (cash : ℕ) (row : LendingRow) :
    Prop :=
  Holds row (underlyingAmounts token.decimals cash infos.totalBorrows infos.totalReserves)
      token.price_value ∧
    ∀ lending, AgreesWithWallets ⟨lending, token⟩ infos.totalBorrows row

/-- What is borrowed and reserved is on the scale of the token. -/
def OnScale (infos : MarketInfos) (token : LendingToken) : Prop :=
  token.decimals = 18 ∨ infos.totalBorrows = 0 ∧ infos.totalReserves = 0

theorem writtenAmounts_eq (h : OnScale infos token) :
    (⟨cash / 10 ^ token.decimals, infos.totalBorrows / 10 ^ 18, infos.totalReserves / 10 ^ 18⟩ :
      Amounts) = underlyingAmounts token.decimals cash infos.totalBorrows infos.totalReserves := by
  rcases h with hscale | ⟨hborrows, hreserves⟩
  · rw [underlyingAmounts, hscale]
  · rw [underlyingAmounts, hborrows, hreserves]
    simp

/-- The columns that a refresh gives any row are in underlying units exactly on the
scale of the token. -/
theorem refreshed_inUnderlying_iff :
    InUnderlying infos token cash
        ((refreshed env infos collateralFactorMantissa token cash).apply row) ↔
      OnScale infos token := by
  have hwritten := @holds_refreshed env infos collateralFactorMantissa cash token row
  constructor
  · intro h
    have hborrow := hwritten.borrow_amount.symm.trans h.1.borrow_amount
    have hreserve := hwritten.reserve_amount.symm.trans h.1.reserve_amount
    rcases decimalColumn_scale_iff.mp hborrow with hscale | hborrow
    · exact Or.inl hscale
    · rcases decimalColumn_scale_iff.mp hreserve with hscale | hreserve
      · exact Or.inl hscale
      · exact Or.inr ⟨hborrow, hreserve⟩
  · intro h
    rw [writtenAmounts_eq h] at hwritten
    refine ⟨hwritten, fun lending balanceOf exchangeRate wallet hrate hwallet => ?_⟩
    obtain ⟨_, hborrowed⟩ := borrow_amount_of_walletOf hrate hwallet
    rw [hwritten.borrow_amount, hborrowed]
    rfl

/-! ## The rows after a refresh -/

variable {market : String} {status : MarketStatus} {s : Session (Db Lendings) LoggerData}

/-- The refresh returns, and the rows of the market that its transaction then sees are
in underlying units. -/
def Stores (env : Env) (market : String) (infos : MarketInfos) (status : MarketStatus)
    (token : LendingToken) (cash : ℕ) (s : Session (Db Lendings) LoggerData) : Prop :=
  ∃ t, refreshLendingMarket env market infos status token s = (.ok (), t) ∧
    ∀ r ∈ t.view.tables.contents, (lendingWhere env market token).holds r = true →
      InUnderlying infos token cash r

/-- A refresh reads the cash and makes one update with it. -/
theorem stores_iff (hcash : marketLiquidity env market token = .ok cash) :
    Stores env market infos status token cash s ↔
      (env.faults market).refreshLending = none ∧
      ∀ r ∈ s.view.tables.contents, (lendingWhere env market token).holds r = true →
        let r' := (refreshed env infos status.collateralFactorMantissa token cash).apply r
        r'.fits = true ∧ InUnderlying infos token cash r' := by
  have hread : refreshLendingMarket env market infos status token s =
      updateLendingWith (env.faults market).refreshLending (lendingWhere env market token)
        (refreshed env infos status.collateralFactorMantissa token cash) s := by
    simp only [refreshLendingMarket, hcash, Eff.bind_eq, Eff.await]
  rw [Stores, hread]
  refine managerWrite_returns_iff.trans (and_congr_right fun _ => ?_)
  rw [updateRefused_eq_none_iff, Session.view_stage]
  refine (and_congr_right fun _ => forall_updateOne_iff).trans ?_
  exact ⟨fun h r hr hholds => ⟨h.1 r hr hholds, h.2 r hr hholds⟩,
    fun h => ⟨fun r hr hholds => (h r hr hholds).1, fun r hr hholds => (h r hr hholds).2⟩⟩

/-- **Underlying units.** For every market that has a row, every token and all raw
numbers: after a refresh the row has the market's amounts in underlying units, with
their values, and a borrow amount in the units of a wallet's, exactly when the update
does not fail, the token has eighteen decimals or nothing is borrowed and there are
no reserves, and the columns have room for the numbers. -/
theorem refreshLendingMarket_underlying_iff
    (hcash : marketLiquidity env market token = .ok cash)
    (hrow : ∃ r ∈ s.view.tables.contents, (lendingWhere env market token).holds r = true) :
    Stores env market infos status token cash s ↔
      (env.faults market).refreshLending = none ∧ OnScale infos token ∧
        (underlyingAmounts token.decimals cash infos.totalBorrows infos.totalReserves).Fits
          token.price_value := by
  refine (stores_iff hcash).trans (and_congr_right fun _ => ?_)
  constructor
  · intro h
    obtain ⟨r, hr, hholds⟩ := hrow
    obtain ⟨hfits, hunits⟩ := h r hr hholds
    exact ⟨refreshed_inUnderlying_iff.mp hunits, hunits.1.fits_iff.mp hfits⟩
  · intro h r hr hholds
    have hunits := (@refreshed_inUnderlying_iff env infos status.collateralFactorMantissa cash token
      r).mpr h.1
    exact ⟨hunits.1.fits_iff.mpr h.2, hunits⟩

end

/-! ## Tokens of eighteen and of eight decimals -/

def bnbToken : LendingToken := ⟨2, "0xbb", 18, 300, true, 1⟩

def dogeToken : LendingToken := ⟨1, "0xd0", 8, 1 / 5, true, 1⟩

/-- So much is borrowed, and there are no reserves. -/
def borrowedInfos (underlying : String) (totalBorrows : ℕ) : MarketInfos :=
  ⟨underlying, 0, 0, totalBorrows, 0, 0, some ⟨true, 0⟩⟩

/-- A market holds so much of either token. -/
def exampleRun (cash : ℕ) : Env where
  context := ⟨1, 1, 3⟩
  tokens := [dogeToken, bnbToken]
  getLendingAllMarkets := .ok []
  getLendingMarketInfos _ := .ok (borrowedInfos "0xd0" 0)
  getBalance _ := .ok 0
  getSafeERC20BalanceOf _ _ := .ok cash
  faults _ := .none
  checksummed := by
    intro markets h m hm
    cases h
    cases hm

/-- The row of a market, registered in the transaction that is open. -/
def registeredSession (token : LendingToken) : Session (Db Lendings) LoggerData where
  db := ⟨none, Table.empty⟩
  runner := some ⟨true, false,
    some (Db.setTables fun t => t.insertIgnore (.new ⟨1, token.id, "0x5a"⟩))⟩
  held := 1
  log := .empty

theorem registeredSession_row (cash : ℕ) (token : LendingToken) :
    ∃ r ∈ (registeredSession token).view.tables.contents,
      (lendingWhere (exampleRun cash) "0x5a" token).holds r = true := by
  refine ⟨.new ⟨1, token.id, "0x5a"⟩, List.mem_singleton_self _, ?_⟩
  simp [LendingWhere.holds, LendingRow.new, hasAddress, lendingWhere, exampleRun, Helper.sameText]

/-- Five whole tokens of eighteen decimals, one of which is borrowed. -/
theorem eighteen_decimals_underlying :
    Stores (exampleRun (5 * 10 ^ 18)) "0x5a" (borrowedInfos "0xbb" (10 ^ 18)) ⟨true, 0⟩ bnbToken
      (5 * 10 ^ 18) (registeredSession bnbToken) := by
  refine (refreshLendingMarket_underlying_iff rfl (registeredSession_row _ _)).mpr
    ⟨rfl, Or.inl rfl, ?_⟩
  unfold Amounts.Fits
  decide +kernel

/-- With eight decimals, the whole token is written as a ten-billionth of one. -/
theorem eight_decimals_not_underlying :
    ¬ Stores (exampleRun (5 * 10 ^ 8)) "0x5a" (borrowedInfos "0xd0" (10 ^ 8)) ⟨true, 0⟩ dogeToken
      (5 * 10 ^ 8) (registeredSession dogeToken) := by
  intro h
  obtain ⟨r, hr, hholds⟩ := registeredSession_row (5 * 10 ^ 8) dogeToken
  have hunits := ((stores_iff rfl).mp h).2 r hr hholds
  have hscale : 8 = 18 ∨ 10 ^ 8 = 0 ∧ 0 = 0 := refreshed_inUnderlying_iff.mp hunits.2
  omega

end BlockchainTask.SchedulerJob.VenusUnits

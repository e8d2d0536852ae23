import BlockchainTask.Library.Decimal

/-! # Amounts

The wrappers of the big-number library in `libs/helper`, on its default of
twenty places for a quotient, and the change from raw units to a token's own. -/
namespace BlockchainTask.Helper.Decimals
open BlockchainTask.Library.Decimal

def DECIMAL_PLACES : ℕ := 20

def ZERO : Number := .finite 0

def isZero (value : Number) : Bool := value.isZero

def toFixed (value : Number) : Number := value.rounded DECIMAL_PLACES

def add (a b : Number) : Number := a.plus b

def sub (a b : Number) : Number := a.minus b

def mul (a b : Number) : Number := a.times b

def div (a b : Number) : Number := a.dividedBy DECIMAL_PLACES b

def isGreaterThan (a b : Number) : Bool := a.isGreaterThan b

def multiplyDecimals (value : Number) (decimals : ℕ) : Number :=
  if value.isZero then value else value.shiftedBy decimals

def divideDecimals (value : Number) (decimals : ℕ) : Number :=
  if value.isZero then value else value.shiftedBy (decimals * -1)

@[simp] theorem isZero_finite (q : ℚ) : isZero (.finite q) = decide (q = 0) := rfl

@[simp] theorem toFixed_finite (q : ℚ) :
    toFixed (.finite q) = .finite (roundHalfUp DECIMAL_PLACES q) := rfl

@[simp] theorem mul_finite (a b : ℚ) : mul (.finite a) (.finite b) = .finite (a * b) := rfl

theorem div_finite {a b : ℚ} (h : b ≠ 0) :
    div (.finite a) (.finite b) = .finite (roundHalfUp DECIMAL_PLACES (a / b)) :=
  Number.dividedBy_finite h

@[simp] theorem multiplyDecimals_finite (q : ℚ) (decimals : ℕ) :
    multiplyDecimals (.finite q) decimals = .finite (q * 10 ^ decimals) := by
  unfold multiplyDecimals
  by_cases hq : q = 0
  · simp [hq]
  · simp [hq]

@[simp] theorem divideDecimals_finite (q : ℚ) (decimals : ℕ) :
    divideDecimals (.finite q) decimals = .finite (q / 10 ^ decimals) := by
  unfold divideDecimals
  by_cases hq : q = 0
  · simp [hq]
  · have hpow : (10 : ℚ) ^ ((decimals : ℤ) * -1) = (10 ^ decimals)⁻¹ := by
      rw [mul_neg, mul_one, zpow_neg, zpow_natCast]
    simp only [Number.isZero_finite, hq, decide_false, Bool.false_eq_true, if_false,
      Number.shiftedBy_finite, hpow, div_eq_mul_inv]

theorem isZero_iff {x : Number} : isZero x = true ↔ x = .finite 0 := by
  cases x with
  | finite q => simp
  | infinite s => simp [isZero, Number.isZero]
  | nan => simp [isZero, Number.isZero]

theorem isFinite_divideDecimals {x : Number} {decimals : ℕ} :
    (divideDecimals x decimals).IsFinite ↔ x.IsFinite := by
  cases x with
  | finite q => simp
  | infinite s => simp [divideDecimals, Number.isZero, Number.shiftedBy]
  | nan => simp [divideDecimals, Number.isZero, Number.shiftedBy]

theorem isNonneg_divideDecimals {x : Number} (decimals : ℕ) (h : x.IsNonneg) :
    (divideDecimals x decimals).IsNonneg := by
  obtain ⟨q, hq, rfl⟩ := Number.isNonneg_iff.mp h
  rw [divideDecimals_finite]
  exact div_nonneg hq (pow_ten_pos decimals).le

/-- A quotient that rounds to zero. -/
theorem div_natCast_eq_zero_iff {a b : ℕ} (hb : b ≠ 0) :
    div (.finite a) (.finite b) = .finite 0 ↔ 2 * a * 10 ^ DECIMAL_PLACES < b := by
  have hpos : (0 : ℚ) < b := by exact_mod_cast Nat.pos_of_ne_zero hb
  have hquotient : (0 : ℚ) ≤ (a : ℚ) / b := div_nonneg (Nat.cast_nonneg a) hpos.le
  rw [div_finite hpos.ne', Number.finite.injEq, roundHalfUp_eq_zero_iff, abs_of_nonneg hquotient,
    div_mul_eq_mul_div, div_lt_iff₀ hpos]
  constructor
  · intro h
    have h' : (2 * a * 10 ^ DECIMAL_PLACES : ℚ) < b := by linarith
    exact_mod_cast h'
  · intro h
    have h' : (2 * a * 10 ^ DECIMAL_PLACES : ℚ) < b := by exact_mod_cast h
    linarith

end BlockchainTask.Helper.Decimals

import Mathlib.Data.Rat.Floor
import Mathlib.Tactic.Linarith
import Mathlib.Tactic.NormNum
import Mathlib.Tactic.Ring

/-! # Decimal numbers

Arbitrary-precision decimals as a decimal library computes them: sums, products
and shifts are exact, a quotient is rounded half up to a number of places, and
next to the finite numbers there are two infinities and a value for what is not
a number. The sign of zero is not kept. A numeral is taken for the number it
denotes.

Rounding forgets a power of ten only on the way to zero: two numbers that differ
by a factor of at least ten round to the same number exactly when both round to
zero (`roundHalfUp_eq_iff_of_ten_le`). -/
namespace BlockchainTask.Library.Decimal

/-! ## Rounding -/

/-- The nearest integer, away from zero in the middle. -/
def halfUp (y : ℚ) : ℤ := if 0 ≤ y then ⌊y + 1 / 2⌋ else -⌊-y + 1 / 2⌋

theorem halfUp_neg (y : ℚ) : halfUp (-y) = -halfUp y := by
  unfold halfUp
  rcases lt_trichotomy y 0 with hy | rfl | hy
  · rw [if_pos (by linarith), if_neg (by linarith), neg_neg]
  · norm_num
  · rw [if_neg (by linarith), if_pos hy.le, neg_neg]

theorem halfUp_of_nonneg {y : ℚ} (h : 0 ≤ y) : halfUp y = ⌊y + 1 / 2⌋ := if_pos h

theorem halfUp_intCast (n : ℤ) : halfUp n = n := by
  have hnonneg : ∀ m : ℤ, 0 ≤ m → halfUp m = m := by
    intro m hm
    rw [halfUp_of_nonneg (by exact_mod_cast hm), Int.floor_eq_iff]
    constructor <;> linarith
  rcases le_total 0 n with hn | hn
  · exact hnonneg n hn
  · have hneg := hnonneg (-n) (by omega)
    rw [Int.cast_neg, halfUp_neg] at hneg
    omega

theorem halfUp_bounds {y : ℚ} (h : 0 ≤ y) : (halfUp y : ℚ) ≤ y + 1 / 2 ∧ y < halfUp y + 1 / 2 := by
  rw [halfUp_of_nonneg h]
  have hle := Int.floor_le (y + 1 / 2)
  have hlt := Int.lt_floor_add_one (y + 1 / 2)
  constructor <;> linarith

theorem halfUp_nonneg {y : ℚ} (h : 0 ≤ y) : 0 ≤ halfUp y := by
  rw [halfUp_of_nonneg h]
  exact Int.floor_nonneg.mpr (by linarith)

theorem halfUp_le_of_le {y : ℚ} {n : ℤ} (h : 0 ≤ y) (hn : y ≤ n) : halfUp y ≤ n := by
  rw [halfUp_of_nonneg h]
  have hlt : ⌊y + 1 / 2⌋ < n + 1 := by
    rw [Int.floor_lt]
    push_cast
    linarith
  omega

theorem halfUp_eq_zero_iff {y : ℚ} (h : 0 ≤ y) : halfUp y = 0 ↔ y < 1 / 2 := by
  rw [halfUp_of_nonneg h, Int.floor_eq_zero_iff, Set.mem_Ico]
  constructor
  · intro hy
    linarith [hy.2]
  · intro hy
    constructor <;> linarith

/-- Scaling by ten or more changes the nearest integer unless it is zero before
and after. -/
theorem halfUp_mul_eq_iff {y c : ℚ} (h : 0 ≤ y) (hc : 10 ≤ c) :
    halfUp (y * c) = halfUp y ↔ halfUp (y * c) = 0 ∧ halfUp y = 0 := by
  refine ⟨fun heq => ?_, fun hzero => hzero.1.trans hzero.2.symm⟩
  have hyc : y * 10 ≤ y * c := mul_le_mul_of_nonneg_left hc h
  have hscaled := halfUp_bounds (show 0 ≤ y * c by linarith)
  have hbounds := halfUp_bounds h
  rw [heq] at hscaled
  have hnonneg := halfUp_nonneg h
  -- `10 * (n - 1/2) < n + 1/2` leaves no integer but zero
  have hlt : (halfUp y : ℚ) < 1 := by linarith
  have hzero : halfUp y = 0 := by
    have hone : halfUp y < 1 := by exact_mod_cast hlt
    omega
  exact ⟨heq.trans hzero, hzero⟩

def roundHalfUp (places : ℕ) (q : ℚ) : ℚ := halfUp (q * 10 ^ places) / 10 ^ places

theorem pow_ten_pos (places : ℕ) : (0 : ℚ) < 10 ^ places := by positivity

@[simp] theorem roundHalfUp_zero (places : ℕ) : roundHalfUp places 0 = 0 := by
  have hzero : halfUp 0 = 0 := by exact_mod_cast halfUp_intCast 0
  rw [roundHalfUp, zero_mul, hzero, Int.cast_zero, zero_div]

theorem roundHalfUp_neg (places : ℕ) (q : ℚ) : roundHalfUp places (-q) = -roundHalfUp places q := by
  unfold roundHalfUp
  rw [neg_mul, halfUp_neg, Int.cast_neg, neg_div]

/-- A rounded number has no further places. -/
theorem roundHalfUp_roundHalfUp (places : ℕ) (q : ℚ) :
    roundHalfUp places (roundHalfUp places q) = roundHalfUp places q := by
  have hpos := pow_ten_pos places
  unfold roundHalfUp
  rw [div_mul_cancel₀ _ hpos.ne', halfUp_intCast]

theorem roundHalfUp_inj {places : ℕ} {p q : ℚ} :
    roundHalfUp places p = roundHalfUp places q ↔
      halfUp (p * 10 ^ places) = halfUp (q * 10 ^ places) := by
  have hpos := pow_ten_pos places
  unfold roundHalfUp
  rw [div_left_inj' hpos.ne', Int.cast_inj]

/-- What rounds to zero is less than half of the last place. -/
theorem roundHalfUp_eq_zero_iff {places : ℕ} {q : ℚ} :
    roundHalfUp places q = 0 ↔ |q| * 10 ^ places < 1 / 2 := by
  have hpos := pow_ten_pos places
  have hnonneg : ∀ p : ℚ, 0 ≤ p → (roundHalfUp places p = 0 ↔ |p| * 10 ^ places < 1 / 2) := by
    intro p hp
    have hscaled : 0 ≤ p * 10 ^ places := mul_nonneg hp hpos.le
    unfold roundHalfUp
    rw [div_eq_zero_iff, or_iff_left hpos.ne', Int.cast_eq_zero, halfUp_eq_zero_iff hscaled,
      abs_of_nonneg hp]
  rcases le_total 0 q with hq | hq
  · exact hnonneg q hq
  · have hneg := hnonneg (-q) (by linarith)
    rwa [roundHalfUp_neg, neg_eq_zero, abs_neg] at hneg

/-- A number with no more places is not rounded. -/
theorem roundHalfUp_div_pow {places decimals : ℕ} (h : decimals ≤ places) (n : ℤ) :
    roundHalfUp places (n / 10 ^ decimals) = n / 10 ^ decimals := by
  have hpos := pow_ten_pos decimals
  have hsplit : (10 : ℚ) ^ places = 10 ^ decimals * 10 ^ (places - decimals) := by
    rw [← pow_add, Nat.add_sub_cancel' h]
  have hscaled : (n : ℚ) / 10 ^ decimals * 10 ^ places =
      ((n * 10 ^ (places - decimals) : ℤ) : ℚ) := by
    rw [hsplit, ← mul_assoc, div_mul_cancel₀ _ hpos.ne']
    push_cast
    rfl
  rw [roundHalfUp, hscaled, halfUp_intCast, ← hscaled,
    mul_div_cancel_right₀ _ (pow_ten_pos places).ne']

theorem roundHalfUp_nonneg (places : ℕ) {q : ℚ} (h : 0 ≤ q) : 0 ≤ roundHalfUp places q := by
  have hpos := pow_ten_pos places
  have hint : (0 : ℚ) ≤ halfUp (q * 10 ^ places) := by
    exact_mod_cast halfUp_nonneg (mul_nonneg h hpos.le)
  exact div_nonneg hint hpos.le

/-- Rounding does not lift a number over an integer. -/
theorem roundHalfUp_le_of_le (places : ℕ) {q : ℚ} {n : ℤ} (h : 0 ≤ q) (hn : q ≤ n) :
    roundHalfUp places q ≤ n := by
  have hpos := pow_ten_pos places
  have hscaled : q * 10 ^ places ≤ (n * 10 ^ places : ℤ) := by
    push_cast
    exact mul_le_mul_of_nonneg_right hn hpos.le
  have hint : (halfUp (q * 10 ^ places) : ℚ) ≤ (n * 10 ^ places : ℤ) := by
    exact_mod_cast halfUp_le_of_le (mul_nonneg h hpos.le) hscaled
  push_cast at hint
  rw [roundHalfUp, div_le_iff₀ hpos]
  exact hint

/-- Scaling by ten or more changes the rounded number unless it is zero before
and after. -/
theorem roundHalfUp_eq_iff_of_ten_le {places : ℕ} {q c : ℚ} (hc : 10 ≤ c) :
    roundHalfUp places (q * c) = roundHalfUp places q ↔
      roundHalfUp places (q * c) = 0 ∧ roundHalfUp places q = 0 := by
  have hnonneg : ∀ p : ℚ, 0 ≤ p → (roundHalfUp places (p * c) = roundHalfUp places p ↔
      roundHalfUp places (p * c) = 0 ∧ roundHalfUp places p = 0) := by
    intro p hp
    have hpos := pow_ten_pos places
    have hscaled : 0 ≤ p * 10 ^ places := mul_nonneg hp hpos.le
    have hzero : ∀ r : ℚ, roundHalfUp places r = 0 ↔ halfUp (r * 10 ^ places) = 0 := by
      intro r
      unfold roundHalfUp
      rw [div_eq_zero_iff, or_iff_left hpos.ne', Int.cast_eq_zero]
    rw [roundHalfUp_inj, hzero, hzero, show p * c * 10 ^ places = p * 10 ^ places * c by ring]
    exact halfUp_mul_eq_iff hscaled hc
  rcases le_total 0 q with hq | hq
  · exact hnonneg q hq
  · have hneg := hnonneg (-q) (by linarith)
    rwa [neg_mul, roundHalfUp_neg, roundHalfUp_neg, neg_inj, neg_eq_zero, neg_eq_zero] at hneg

/-! ## Numbers -/

/-- Exponents have no range here. A library that has one gives zero below it and an
infinity above it; the default range ends at ten million both ways. -/
inductive Number where
  | finite (value : ℚ)
  | infinite (negative : Bool)
  | nan
  deriving DecidableEq

namespace Number

def isZero : Number → Bool
  | finite q => decide (q = 0)
  | _ => false

def times : Number → Number → Number
  | finite a, finite b => finite (a * b)
  | infinite s, finite b => if b = 0 then nan else infinite (s != decide (b < 0))
  | finite a, infinite t => if a = 0 then nan else infinite (decide (a < 0) != t)
  | infinite s, infinite t => infinite (s != t)
  | _, _ => nan

def plus : Number → Number → Number
  | finite a, finite b => finite (a + b)
  | infinite s, infinite t => if s = t then infinite s else nan
  | infinite s, finite _ => infinite s
  | finite _, infinite t => infinite t
  | _, _ => nan

def negated : Number → Number
  | finite q => finite (-q)
  | infinite s => infinite (!s)
  | nan => nan

def minus (a b : Number) : Number := a.plus b.negated

/-- The quotient, rounded to a number of places. -/
def dividedBy (places : ℕ) : Number → Number → Number
  | finite a, finite b =>
    if b = 0 then (if a = 0 then nan else infinite (decide (a < 0)))
    else finite (roundHalfUp places (a / b))
  | infinite s, finite b => infinite (s != decide (b < 0))
  | finite _, infinite _ => finite 0
  | _, _ => nan

def shiftedBy (n : ℤ) : Number → Number
  | finite q => finite (q * 10 ^ n)
  | x => x

def rounded (places : ℕ) : Number → Number
  | finite q => finite (roundHalfUp places q)
  | x => x

def isGreaterThan : Number → Number → Bool
  | finite a, finite b => decide (b < a)
  | infinite s, finite _ => !s
  | finite _, infinite t => t
  | infinite s, infinite t => !s && t
  | _, _ => false

@[simp] theorem isZero_finite (q : ℚ) : (finite q).isZero = decide (q = 0) := rfl

@[simp] theorem shiftedBy_finite (n : ℤ) (q : ℚ) :
    (finite q).shiftedBy n = finite (q * 10 ^ n) := rfl

theorem dividedBy_finite {places : ℕ} {a b : ℚ} (h : b ≠ 0) :
    dividedBy places (finite a) (finite b) = finite (roundHalfUp places (a / b)) := if_neg h

/-! ### Which numbers are finite

The infinities and what is not a number stay so, but for the quotient by an
infinity. -/

def IsFinite : Number → Prop
  | finite _ => True
  | _ => False

/-- Finite and not negative. -/
def IsNonneg : Number → Prop
  | finite q => 0 ≤ q
  | _ => False

@[simp] theorem isFinite_finite (q : ℚ) : (finite q).IsFinite := trivial

@[simp] theorem not_isFinite_infinite (s : Bool) : ¬(infinite s).IsFinite := id

@[simp] theorem not_isFinite_nan : ¬nan.IsFinite := id

@[simp] theorem isNonneg_finite {q : ℚ} : (finite q).IsNonneg ↔ 0 ≤ q := Iff.rfl

theorem isNonneg_iff {x : Number} : x.IsNonneg ↔ ∃ q, 0 ≤ q ∧ x = finite q := by
  cases x with
  | finite q => simp
  | infinite s => simp [IsNonneg]
  | nan => simp [IsNonneg]

theorem isFinite_iff {x : Number} : x.IsFinite ↔ ∃ q, x = finite q := by
  cases x with
  | finite q => simp
  | infinite s => simp
  | nan => simp

theorem IsNonneg.isFinite {x : Number} (h : x.IsNonneg) : x.IsFinite := by
  obtain ⟨q, _, rfl⟩ := isNonneg_iff.mp h
  exact isFinite_finite q

/-- A product is finite exactly when both factors are: zero times an infinity is
not a number. -/
theorem isFinite_times {x y : Number} : (x.times y).IsFinite ↔ x.IsFinite ∧ y.IsFinite := by
  cases x with
  | finite a =>
    cases y with
    | finite b => simp [times]
    | infinite t => by_cases ha : a = 0 <;> simp [times, ha]
    | nan => simp [times]
  | infinite s =>
    cases y with
    | finite b => by_cases hb : b = 0 <;> simp [times, hb]
    | infinite t => simp [times]
    | nan => simp [times]
  | nan => simp [times]

theorem not_isFinite_dividedBy {places : ℕ} {x y : Number} (h : ¬x.IsFinite) :
    ¬(dividedBy places x y).IsFinite := by
  cases x with
  | finite a => exact absurd (isFinite_finite a) h
  | infinite s => cases y <;> simp [dividedBy]
  | nan => simp [dividedBy]

theorem not_isFinite_dividedBy_zero (places : ℕ) (x : Number) :
    ¬(dividedBy places x (finite 0)).IsFinite := by
  cases x with
  | finite a => by_cases ha : a = 0 <;> simp [dividedBy, ha]
  | infinite s => simp [dividedBy]
  | nan => simp [dividedBy]

/-- A sum with what is not finite is not finite. -/
theorem isFinite_plus_iff {x : Number} (q : ℚ) : (x.plus (finite q)).IsFinite ↔ x.IsFinite := by
  cases x <;> simp [plus]

theorem IsNonneg.times {x y : Number} (hx : x.IsNonneg) (hy : y.IsNonneg) :
    (x.times y).IsNonneg := by
  obtain ⟨a, ha, rfl⟩ := isNonneg_iff.mp hx
  obtain ⟨b, hb, rfl⟩ := isNonneg_iff.mp hy
  exact mul_nonneg ha hb

theorem IsNonneg.plus {x y : Number} (hx : x.IsNonneg) (hy : y.IsNonneg) :
    (x.plus y).IsNonneg := by
  obtain ⟨a, ha, rfl⟩ := isNonneg_iff.mp hx
  obtain ⟨b, hb, rfl⟩ := isNonneg_iff.mp hy
  exact add_nonneg ha hb

theorem IsNonneg.dividedBy {places : ℕ} {x : Number} {b : ℚ} (hx : x.IsNonneg) (hb : 0 < b) :
    (x.dividedBy places (finite b)).IsNonneg := by
  obtain ⟨a, ha, rfl⟩ := isNonneg_iff.mp hx
  rw [dividedBy_finite hb.ne']
  exact roundHalfUp_nonneg places (div_nonneg ha hb.le)

end Number

end BlockchainTask.Library.Decimal

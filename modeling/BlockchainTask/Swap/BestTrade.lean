import Mathlib.Tactic.Linarith
import BlockchainTask.Library.Selection
import BlockchainTask.Swap.ChainIndependence

/-! # The trade that a search selects

`getBestTrade` asks the router for a trade at one number of hops after the other
and holds the best one so far. `isTradeBetter` takes another one only for a gain
of a least part of the price, so what is selected need not have the best price
of all, but none of the others is better by more than that part. -/
namespace BlockchainTask.Swap.BestTrade
open BlockchainTask.Common.Exception BlockchainTask.Helper BlockchainTask.Library.Selection
open BlockchainTask.Library.Decimal BlockchainTask.Swap.SwapService
open BlockchainTask.Swap.ChainIndependence

/-- `isTradeBetter` with its third argument. Without a trade on either side the
answer is `undefined`, which counts as false. -/
def isTradeBetterBy (minimumDelta : ℚ) (tradeA tradeB : Option Trade) : Bool :=
  if tradeA.isSome && !tradeB.isSome then false
  else if tradeB.isSome && !tradeA.isSome then true
  else tradeA.any fun a => tradeB.any fun b =>
    if minimumDelta = 0 then decide (a.executionPrice < b.executionPrice)
    else decide (a.executionPrice * (minimumDelta + 1) < b.executionPrice)

/-- The loop of `getBestTrade`, over what the router returned for each number of
hops. -/
def selectTrade (minimumDelta : ℚ) (currentTrades : List (Option Trade)) : Option Trade :=
  currentTrades.foldl (fun bestTrade currentTrade =>
    if isTradeBetterBy minimumDelta bestTrade currentTrade then currentTrade else bestTrade) none

/-- What the loop of `getBestTrade` is called with. -/
def leastGain : ℚ := 50 / 10000

theorem isTradeBetter_eq : isTradeBetter = isTradeBetterBy leastGain := by
  funext tradeA tradeB
  cases tradeA with
  | none => cases tradeB <;> rfl
  | some a =>
    cases tradeB with
    | none => rfl
    | some b =>
      have hgain : leastGain ≠ 0 := by norm_num [leastGain]
      simp only [isTradeBetterBy, Option.isSome_some, Option.any_some, if_neg hgain]
      rfl

/-- When the router answers every time, the search's trade is the selected one. -/
theorem bestOf_eq (tradesOfHops : List (List Trade)) (bestTrade : Option Trade) :
    bestOf (tradesOfHops.map .ok) bestTrade =
      .ok ((tradesOfHops.map List.head?).foldl (fun bestTrade currentTrade =>
        if isTradeBetterBy leastGain bestTrade currentTrade then currentTrade else bestTrade)
          bestTrade) := by
  induction tradesOfHops generalizing bestTrade with
  | nil => rfl
  | cons trades rest ih =>
    rw [List.map_cons, bestOf_ok, ih, isTradeBetter_eq]
    rfl

theorem getBestTrade_eq {router : Router} {inputToken outputToken : TokenInstance}
    {pairs : List Pair} {inputAmount : Number} {amountSpecified : CurrencyAmount}
    {tradesOf : Nat → List Trade}
    (hamount : fromRawAmount inputToken inputAmount = .ok amountSpecified)
    (hrouter : ∀ hops ∈ List.range' 1 maxHops,
      router pairs amountSpecified outputToken hops = .ok (tradesOf hops)) :
    getBestTrade router inputToken outputToken pairs inputAmount =
      .ok (selectTrade leastGain
        ((List.range' 1 maxHops).map fun hops => (tradesOf hops).head?)) := by
  unfold getBestTrade
  rw [hamount]
  show bestOf ((List.range' 1 maxHops).map fun hops =>
    router pairs amountSpecified outputToken hops) none = _
  rw [List.map_congr_left hrouter]
  have hselected := bestOf_eq ((List.range' 1 maxHops).map tradesOf) none
  rw [List.map_map, List.map_map] at hselected
  exact hselected

/-! ## The comparison as a comparison with a margin -/

/-- A price and the least part of it. -/
def raisedBy (minimumDelta price : ℚ) : ℚ := price * (minimumDelta + 1)

theorem isTradeBetterBy_eq (d : ℚ) :
    isTradeBetterBy d = improves Trade.executionPrice (raisedBy d) := by
  funext tradeA tradeB
  cases tradeA with
  | none => cases tradeB <;> rfl
  | some a =>
    cases tradeB with
    | none => rfl
    | some b =>
      rw [Bool.eq_iff_iff, improves_some]
      by_cases hd : d = 0
      · simp [isTradeBetterBy, raisedBy, hd]
      · simp [isTradeBetterBy, raisedBy, hd]

theorem selectTrade_eq (d : ℚ) (currentTrades : List (Option Trade)) :
    selectTrade d currentTrades = scan Trade.executionPrice (raisedBy d) none currentTrades := by
  unfold selectTrade
  rw [isTradeBetterBy_eq]
  rfl

theorem monotone_raisedBy {d : ℚ} (hd : 0 ≤ d) : Monotone (raisedBy d) := by
  intro p q hpq
  have hfactor : 0 ≤ d + 1 := by linarith
  exact mul_le_mul_of_nonneg_right hpq hfactor

theorem le_raisedBy {d : ℚ} (hd : 0 ≤ d) {price : ℚ} (hprice : 0 ≤ price) :
    price ≤ raisedBy d price := by
  have hpart : 0 ≤ price * d := mul_nonneg hprice hd
  unfold raisedBy
  linarith

/-! ## The selection -/

/-- For every least part `d` and every sequence of candidates, the selected trade
is a candidate, missing only when all are, and no candidate's price exceeds its
own by more than `d`. The price held never falls, and among trades that are
there the comparison is a strict order. -/
theorem selectTrade_within {d : ℚ} (hd : 0 ≤ d) {currentTrades : List (Option Trade)}
    (hprices : ∀ t, some t ∈ currentTrades → 0 ≤ t.executionPrice) :
    (∀ best, selectTrade d currentTrades = some best → some best ∈ currentTrades) ∧
    (selectTrade d currentTrades = none ↔ ∀ t ∈ currentTrades, t = none) ∧
    (∀ t, some t ∈ currentTrades → ∃ best, selectTrade d currentTrades = some best ∧
      t.executionPrice ≤ (1 + d) * best.executionPrice) ∧
    (∀ done rest, currentTrades = done ++ rest → ∀ held, selectTrade d done = some held →
      ∃ best, selectTrade d currentTrades = some best ∧
        held.executionPrice ≤ best.executionPrice) ∧
    (∀ a : Trade, 0 ≤ a.executionPrice → isTradeBetterBy d (some a) (some a) = false) ∧
    (∀ a b : Trade, 0 ≤ a.executionPrice → 0 ≤ b.executionPrice →
      isTradeBetterBy d (some a) (some b) = true → isTradeBetterBy d (some b) (some a) = false) ∧
    (∀ a b c : Trade, 0 ≤ a.executionPrice → 0 ≤ b.executionPrice → 0 ≤ c.executionPrice →
      isTradeBetterBy d (some a) (some b) = true → isTradeBetterBy d (some b) (some c) = true →
        isTradeBetterBy d (some a) (some c) = true) := by
  have hraised : ∀ t, some t ∈ currentTrades →
      t.executionPrice ≤ raisedBy d t.executionPrice := fun t ht => le_raisedBy hd (hprices t ht)
  rw [isTradeBetterBy_eq, selectTrade_eq]
  refine ⟨?candidate, ?missing, ?within, ?rising, ?irrefl, ?asymm, ?trans⟩
  case candidate =>
    intro best hbest
    rcases mem_of_scan hbest with h | h
    · cases h
    · exact h
  case missing =>
    rw [scan_eq_none_iff]
    exact ⟨fun h => h.2, fun h => ⟨rfl, h⟩⟩
  case within =>
    intro t ht
    have hnone : ∀ y : Trade, (none : Option Trade) = some y →
        y.executionPrice ≤ raisedBy d y.executionPrice := fun y hy => by cases hy
    obtain ⟨best, hbest, hle⟩ := le_raised_scan (monotone_raisedBy hd) hnone hraised ht
    refine ⟨best, hbest, ?_⟩
    rw [mul_comm, add_comm]
    exact hle
  case rising =>
    intro done rest hsplit held hheld
    rw [selectTrade_eq] at hheld
    subst hsplit
    rw [scan_append, hheld]
    have hmem : some held ∈ done := by
      rcases mem_of_scan hheld with h | h
      · cases h
      · exact h
    refine le_scan (hraised held (List.mem_append_left _ hmem)) fun y hy => ?_
    exact hraised y (List.mem_append_right _ hy)
  case irrefl =>
    intro a ha
    exact improves_irrefl (le_raisedBy hd ha)
  case asymm =>
    intro a b ha hb hbetter
    exact improves_asymm (le_raisedBy hd ha) (le_raisedBy hd hb) hbetter
  case trans =>
    intro a b c _ hb _ hab hbc
    exact improves_trans (le_raisedBy hd hb) hab hbc

theorem selectTrade_within_three :
    ∃ best, selectTrade leastGain [some ⟨100, "a"⟩, none, some ⟨1001 / 10, "b"⟩] = some best ∧
      (1001 / 10 : ℚ) ≤ (1 + leastGain) * best.executionPrice :=
  (selectTrade_within (by norm_num [leastGain]) (by
    intro t ht
    simp only [List.mem_cons, Option.some.injEq, reduceCtorEq, List.not_mem_nil, or_false,
      false_or] at ht
    rcases ht with rfl | rfl <;> norm_num)).2.2.1 ⟨1001 / 10, "b"⟩ (by simp)

end BlockchainTask.Swap.BestTrade

import BlockchainTask.Library.Selection
import BlockchainTask.SchedulerJob.TokenPriceScale

/-! # The most liquid pair of a token

The single job prices a token in the configured pair of the greatest liquidity. The
loop that finds it is a scan that holds the best pair so far, where a pair without
liquidity does not count: it ends with the first of the greatest ones. The token's
counterpart there is the other constituent. -/
namespace BlockchainTask.SchedulerJob.LiquidityPair
open BlockchainTask.Common.Exception BlockchainTask.Helper.Decimals
open BlockchainTask.Helper.BatchContract
open BlockchainTask.Library.Decimal BlockchainTask.Library.Effect BlockchainTask.Library.Selection
open BlockchainTask.SchedulerJob.TokenPrice BlockchainTask.SchedulerJob.TokenPrice.SingleAMM
open BlockchainTask.SchedulerJob.TokenPriceScale

def liquidity (pair : PairEntity) : ℚ := pair.total_supply * pair.price_value

/-- A pair counts where it has liquidity. -/
def counted (pair : PairEntity) : Option PairEntity :=
  if 0 < liquidity pair then some pair else none

/-- The first pair of the greatest liquidity. -/
def FirstMostLiquid (pairs : List PairEntity) (best : PairEntity) : Prop :=
  ∃ before after, pairs = before ++ best :: after ∧
    (∀ pair ∈ before, liquidity pair < liquidity best) ∧
      ∀ pair ∈ after, liquidity pair ≤ liquidity best

variable {pairs : List PairEntity} {pair best : PairEntity}

theorem counted_eq_some_iff : counted pair = some best ↔ pair = best ∧ 0 < liquidity best := by
  unfold counted
  split
  · rename_i hpos
    exact ⟨fun h => Option.some.inj h ▸ ⟨rfl, hpos⟩, fun h => congrArg some h.1⟩
  · rename_i hnot
    exact ⟨fun h => (by cases h), fun h => absurd (h.1 ▸ h.2) hnot⟩

theorem counted_eq_none_iff : counted pair = none ↔ liquidity pair ≤ 0 := by
  unfold counted
  split
  · rename_i hpos
    exact ⟨fun h => (by cases h), fun h => absurd hpos (not_lt.mpr h)⟩
  · rename_i hnot
    exact ⟨fun _ => not_lt.mp hnot, fun _ => rfl⟩

/-! ## The loop -/

/-- The `maxLiquidity` beside a `bestPair`. -/
def maxLiquidity (bestPair : Option PairEntity) : Number :=
  .finite ((bestPair.map liquidity).getD 0)

/-- What one pair does to `bestPair` and `maxLiquidity`. -/
theorem keep_counted {held : Option PairEntity} (hheld : ∀ p, held = some p → 0 < liquidity p)
    (pair : PairEntity) :
    (if isGreaterThan (.finite (liquidity pair)) (maxLiquidity held) then
        (some pair, .finite (liquidity pair)) else (held, maxLiquidity held)) =
      (keep liquidity id held (counted pair), maxLiquidity (keep liquidity id held (counted pair))) := by
  cases held with
  | none =>
    show (if decide (0 < liquidity pair) = true then _ else _) = _
    unfold counted
    by_cases hpos : 0 < liquidity pair
    · simp only [hpos, decide_true, if_true]
      rfl
    · simp only [hpos, decide_false, Bool.false_eq_true, if_false]
      rfl
  | some best =>
    have hbest : 0 < liquidity best := hheld best rfl
    show (if decide (liquidity best < liquidity pair) = true then _ else _) = _
    by_cases hgreater : liquidity best < liquidity pair
    · have htaken : keep liquidity id (some best) (counted pair) = some pair := by
        rw [counted_eq_some_iff.mpr ⟨rfl, hbest.trans hgreater⟩]
        exact if_pos (improves_some.mpr hgreater)
      rw [htaken, if_pos (decide_eq_true hgreater)]
      rfl
    · have hkept : keep liquidity id (some best) (counted pair) = some best := by
        cases hcounted : counted pair with
        | none => rfl
        | some p =>
          obtain ⟨rfl, _⟩ := counted_eq_some_iff.mp hcounted
          exact if_neg fun h => hgreater (improves_some.mp h)
      rw [hkept, if_neg (by simpa using hgreater)]

/-- The loop is a scan of the pairs that count. -/
theorem findHighestLiquidityPair_eq_scan (pairs : List PairEntity) :
    findHighestLiquidityPair pairs = scan liquidity id none (pairs.map counted) := by
  suffices hfrom : ∀ held : Option PairEntity, (∀ p, held = some p → 0 < liquidity p) →
      (pairs.foldl (fun (best : Option PairEntity × Number) pair =>
        let liquidity := mul (.finite pair.total_supply) (.finite pair.price_value)
        if isGreaterThan liquidity best.2 then (some pair, liquidity) else best)
        (held, maxLiquidity held)).1 = scan liquidity id held (pairs.map counted) from
    hfrom none fun _ h => (by cases h)
  induction pairs with
  | nil => exact fun _ _ => rfl
  | cons pair pairs ih =>
    intro held hheld
    rw [List.foldl_cons, List.map_cons, scan_cons]
    show (List.foldl _ (if isGreaterThan (.finite (liquidity pair)) (maxLiquidity held) then
      (some pair, .finite (liquidity pair)) else (held, maxLiquidity held)) pairs).1 = _
    rw [keep_counted hheld]
    refine ih _ fun p hp => ?_
    rcases mem_of_keep hp with hsame | hcounted
    · exact hheld p hsame
    · exact (counted_eq_some_iff.mp hcounted).2

theorem findHighestLiquidityPair_eq_none_iff :
    findHighestLiquidityPair pairs = none ↔ ∀ pair ∈ pairs, liquidity pair ≤ 0 := by
  rw [findHighestLiquidityPair_eq_scan, scan_eq_none_iff]
  simp only [true_and, List.forall_mem_map, counted_eq_none_iff]

/-- What the loop ends with. -/
theorem findHighestLiquidityPair_some (h : findHighestLiquidityPair pairs = some best) :
    0 < liquidity best ∧ FirstMostLiquid pairs best := by
  rw [findHighestLiquidityPair_eq_scan] at h
  obtain ⟨before, after, hsplit, hbefore, hafter⟩ := firstGreatest_of_scan h
  obtain ⟨before', rest, rfl, rfl, hrest⟩ := List.map_eq_append_iff.mp hsplit
  obtain ⟨pair, after', rfl, hpair, rfl⟩ := List.map_eq_cons_iff.mp hrest
  obtain ⟨rfl, hpos⟩ := counted_eq_some_iff.mp hpair
  -- a pair that does not count has less than any that does
  have hle : ∀ p, counted p = none → liquidity p < liquidity pair := fun p hp =>
    (counted_eq_none_iff.mp hp).trans_lt hpos
  refine ⟨hpos, before', after', rfl, fun p hp => ?_, fun p hp => ?_⟩
  · cases hcounted : counted p with
    | none => exact hle p hcounted
    | some q =>
      obtain ⟨rfl, _⟩ := counted_eq_some_iff.mp hcounted
      exact hbefore p (List.mem_map.mpr ⟨p, hp, hcounted⟩)
  · cases hcounted : counted p with
    | none => exact (hle p hcounted).le
    | some q =>
      obtain ⟨rfl, _⟩ := counted_eq_some_iff.mp hcounted
      exact hafter p (List.mem_map.mpr ⟨p, hp, hcounted⟩)

theorem mem_of_findHighestLiquidityPair (h : findHighestLiquidityPair pairs = some best) :
    best ∈ pairs := by
  obtain ⟨_, before, after, rfl, _, _⟩ := findHighestLiquidityPair_some h
  exact List.mem_append_right _ List.mem_cons_self

/-! ## The counterpart -/

variable {targetPair : PairEntity} {token other : TokenEntity}

/-- The token is one of two different constituents. -/
def IsConstituent (targetPair : PairEntity) (token : TokenEntity) : Prop :=
  ∃ pair0 pair1, targetPair.pair0 = some pair0 ∧ targetPair.pair1 = some pair1 ∧
    pair0.id ≠ pair1.id ∧ (pair0.id = token.id ∨ pair1.id = token.id)

/-- The constituent beside the token, and not the token. -/
structure Counterpart (targetPair : PairEntity) (token other : TokenEntity) : Prop where
  beside : (∃ own, targetPair.pair0 = some own ∧ own.id = token.id ∧ targetPair.pair1 = some other) ∨
    ∃ own, targetPair.pair1 = some own ∧ own.id = token.id ∧ targetPair.pair0 = some other
  ne : other.id ≠ token.id

theorem otherToken_of_isConstituent (h : IsConstituent targetPair token) :
    ∃ other, otherToken targetPair token.id = .ok other ∧ Counterpart targetPair token other := by
  obtain ⟨pair0, pair1, hpair0, hpair1, hne, htoken⟩ := h
  unfold otherToken
  rw [hpair0, hpair1]
  by_cases hfirst : pair0.id = token.id
  · refine ⟨pair1, if_pos hfirst, Or.inl ⟨pair0, hpair0, hfirst, hpair1⟩, ?_⟩
    rw [← hfirst]
    exact hne.symm
  · have hsecond : pair1.id = token.id := htoken.resolve_left hfirst
    exact ⟨pair0, if_neg hfirst, Or.inr ⟨pair1, hpair1, hsecond, hpair0⟩, hfirst⟩

theorem findOther_of_isConstituent {tokens : List PairEntity}
    (hpair : findHighestLiquidityPair (findConfiguredPairs tokens token) = some targetPair)
    (h : IsConstituent targetPair token) :
    ∃ other, findOther tokens token = .ok (some (targetPair, other)) ∧
      Counterpart targetPair token other := by
  obtain ⟨other, hother, hcounterpart⟩ := otherToken_of_isConstituent h
  refine ⟨other, ?_, hcounterpart⟩
  unfold findOther
  rw [hpair]
  show (otherToken targetPair token.id).map _ = _
  rw [hother]
  rfl

/-- What is found beside a token is its counterpart in the pair. -/
theorem counterpart_of_findOther {tokens : List PairEntity}
    (hfound : findOther tokens token = .ok (some (targetPair, other)))
    (h : IsConstituent targetPair token) : Counterpart targetPair token other := by
  unfold findOther at hfound
  cases hpair : findHighestLiquidityPair (findConfiguredPairs tokens token) with
  | none =>
    rw [hpair] at hfound
    cases hfound
  | some best =>
    rw [hpair] at hfound
    simp only at hfound
    cases hother : otherToken best token.id with
    | error e =>
      rw [hother] at hfound
      cases hfound
    | ok found =>
      rw [hother] at hfound
      cases hfound
      obtain ⟨other', hother', hcounterpart⟩ := otherToken_of_isConstituent h
      rw [hother] at hother'
      exact Except.ok.inj hother' ▸ hcounterpart

/-- A token with a counterpart has an update. -/
theorem updateParam_some {found : PairEntity × TokenEntity} {results : List Result}
    {row : Option UpdateParam} (h : updateParam token (some found) results = .ok row) :
    ∃ param, row = some param := by
  unfold updateParam at h
  simp only at h
  split at h
  · obtain ⟨_, _, h⟩ := Eff.except_bind_eq_ok.mp h
    obtain ⟨_, _, h⟩ := Eff.except_bind_eq_ok.mp h
    obtain ⟨_, _, h⟩ := Eff.except_bind_eq_ok.mp h
    exact ⟨_, (Except.ok.inj h).symm⟩
  · cases h

/-- A token and what was found for it, with its update: the update is made of the
answers about both, and what was found is the counterpart in the pair. -/
def PricedBy (node : Node) (target : TokenEntity × PairEntity × TokenEntity)
    (param : UpdateParam) : Prop :=
  (IsConstituent target.2.1 target.1 → Counterpart target.2.1 target.1 target.2.2) ∧
    updateParam target.1 (some target.2)
      ((infoEncode target.1 (some target.2)).map node.answer) = .ok (some param)

theorem crawl_pricedBy {node : Node} {tokens : List PairEntity} {targetTokens : List TokenEntity}
    {params : List UpdateParam}
    (h : crawlTokenSupplyAndPrice node tokens targetTokens = .ok params) :
    List.Forall₂ (PricedBy node) (withFound (findOther tokens) targetTokens) params := by
  have hrel := crawl_rel (by decide) (fun token other => by cases other <;> rfl)
    (R := fun target param => updateParam target.1 (some target.2)
      ((infoEncode target.1 (some target.2)).map node.answer) = .ok (some param))
    (fun token o row hrow => ?_) h
  · refine (List.forall₂_and_left _ _).mpr ⟨fun target htarget hconstituent => ?_, hrel⟩
    exact counterpart_of_findOther (mem_withFound htarget).2 hconstituent
  · cases o with
    | none =>
      cases hrow
      exact .none
    | some found =>
      obtain ⟨param, rfl⟩ := updateParam_some hrow
      exact .some hrow

/-! ## The pair and the counterpart -/

/-- **The most liquid pair.** On pairs without negative amounts there is none
exactly where no pair has any liquidity; otherwise it is the first of the greatest
liquidity. The counterpart that the crawl finds there for a constituent is the
other one, and the update of the token is made of the answers about both. -/
theorem highest_liquidity_pair (pairs : List PairEntity)
    (h : ∀ pair ∈ pairs, 0 ≤ pair.total_supply ∧ 0 ≤ pair.price_value) :
    (findHighestLiquidityPair pairs = none ↔
        ∀ pair ∈ pairs, pair.total_supply * pair.price_value = 0) ∧
      ((∃ pair ∈ pairs, pair.total_supply * pair.price_value ≠ 0) →
        ∃ best, findHighestLiquidityPair pairs = some best ∧ FirstMostLiquid pairs best) ∧
      (∀ (tokens : List PairEntity) (token : TokenEntity) (targetPair : PairEntity),
        findHighestLiquidityPair (findConfiguredPairs tokens token) = some targetPair →
          IsConstituent targetPair token →
            ∃ other, findOther tokens token = .ok (some (targetPair, other)) ∧
              Counterpart targetPair token other) ∧
      ∀ (node : Node) (tokens : List PairEntity) (targetTokens : List TokenEntity)
        (params : List UpdateParam),
        crawlTokenSupplyAndPrice node tokens targetTokens = .ok params →
          List.Forall₂ (PricedBy node) (withFound (findOther tokens) targetTokens) params := by
  have hnone : findHighestLiquidityPair pairs = none ↔
      ∀ pair ∈ pairs, pair.total_supply * pair.price_value = 0 := by
    rw [findHighestLiquidityPair_eq_none_iff]
    refine forall₂_congr fun pair hpair => ?_
    have hnonneg : 0 ≤ liquidity pair := mul_nonneg (h pair hpair).1 (h pair hpair).2
    exact ⟨fun hle => le_antisymm hle hnonneg, fun hzero => hzero.le⟩
  refine ⟨hnone, fun hexists => ?_, fun _ _ _ => findOther_of_isConstituent,
    fun _ _ _ _ => crawl_pricedBy⟩
  cases hbest : findHighestLiquidityPair pairs with
  | none =>
    obtain ⟨pair, hpair, hne⟩ := hexists
    exact absurd (hnone.mp hbest pair hpair) hne
  | some best => exact ⟨best, rfl, (findHighestLiquidityPair_some hbest).2⟩

/-! ## Two equal pairs behind one without supply -/

def drained : PairEntity := { examplePair 18 with id := 1, total_supply := 0 }

def twin : PairEntity := { examplePair 18 with id := 3 }

/-- The coin is priced in the first of the two pairs that are equal. -/
theorem tied_pairs :
    (findHighestLiquidityPair [drained] = none ∧
      ∃ best, findHighestLiquidityPair [drained, examplePair 18, twin] = some best ∧
        FirstMostLiquid [drained, examplePair 18, twin] best) ∧
      (∃ other, findOther [drained, examplePair 18, twin] coin = .ok (some (examplePair 18, other)) ∧
        Counterpart (examplePair 18) coin other) ∧
      List.Forall₂ (PricedBy (exampleNode 18)) (withFound (findOther [examplePair 18]) [coin])
        [⟨1, .finite 1, .finite 1⟩] := by
  have hconstituent : IsConstituent (examplePair 18) coin :=
    ⟨dollar 18, coin, rfl, rfl, by decide, Or.inr rfl⟩
  have hcrawl : crawlTokenSupplyAndPrice (exampleNode 18) [examplePair 18] [coin] =
      .ok [⟨1, .finite 1, .finite 1⟩] := ok_of_toOption (by decide +kernel)
  have hnone := (highest_liquidity_pair [drained] (by decide +kernel)).1
  obtain ⟨_, hbest, hother, hpriced⟩ :=
    highest_liquidity_pair [drained, examplePair 18, twin] (by decide +kernel)
  refine ⟨⟨hnone.mpr (by decide +kernel), hbest ⟨examplePair 18, ?_, by decide +kernel⟩⟩,
    hother _ coin (examplePair 18) (by decide +kernel) hconstituent, hpriced _ _ _ _ hcrawl⟩
  exact List.mem_cons_of_mem _ List.mem_cons_self

end BlockchainTask.SchedulerJob.LiquidityPair

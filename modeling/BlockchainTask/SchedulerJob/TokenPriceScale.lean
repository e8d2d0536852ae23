import BlockchainTask.Library.Effect
import BlockchainTask.SchedulerJob.TokenPrice
import Mathlib.Tactic.FieldSimp

/-! # The scale of the AMM prices

A raw amount is in the smallest unit of its own token. The single job divides
each raw amount by the decimals of that token. The multi job divides the balance
of the key token by the decimals of the pair, so its price is off by the
difference of the two, except where that does not show in twenty places. -/
namespace BlockchainTask.SchedulerJob.TokenPriceScale
open BlockchainTask.Common.Exception
open BlockchainTask.Library.Decimal BlockchainTask.Library.Effect
open BlockchainTask.Helper BlockchainTask.Helper.Decimals BlockchainTask.Helper.BatchContract
open BlockchainTask.SchedulerJob.TokenPrice

/-! ## Each token and its own results -/

/-- Each target is updated by the results of exactly its own calls. -/
theorem aligned {T : Type} {node : Node} {chunkSize : ℕ} (hsize : 0 < chunkSize)
    {encode : T → List Call} (hencode : ∀ target, (encode target).length = chunkSize)
    (update : T → List Result → Except Thrown (Option UpdateParam)) {targets : List T}
    {batch : List Result} {rows : List (Option UpdateParam)}
    (hbatch : getBatchStaticAggregator node (targets.map encode).flatten = .ok batch)
    (hrows : targets.zipIdx.mapM (fun p =>
      update p.1 ((toSplitWithChunkSize batch chunkSize).getD p.2 [])) = .ok rows) :
    List.Forall₂ (fun target row => update target ((encode target).map node.answer) = .ok row)
      targets rows := by
  have hgroups : ∀ calls ∈ targets.map encode, calls.length = chunkSize := by
    intro calls hcalls
    obtain ⟨target, _, rfl⟩ := List.mem_map.mp hcalls
    exact hencode target
  rw [split_answers hsize hgroups hbatch] at hrows
  have hown : ∀ p ∈ targets.zipIdx,
      ((targets.map encode).map fun calls => calls.map node.answer).getD p.2 [] =
        (encode p.1).map node.answer := by
    intro p hp
    have hget : targets[p.2]? = some p.1 := List.mem_zipIdx_iff_getElem?.mp hp
    simp only [List.getD_eq_getElem?_getD, List.getElem?_map, hget, Option.map_some,
      Option.getD_some]
  have hpositions := (List.forall₂_and_left _ _).mpr ⟨hown, Eff.forall₂_of_mapM hrows⟩
  have htargets : List.Forall₂ (fun target row =>
      update target ((encode target).map node.answer) = .ok row) (targets.zipIdx.map Prod.fst) rows :=
    List.forall₂_map_left_iff.mpr (hpositions.imp fun p row h => h.1 ▸ h.2)
  rwa [List.zipIdx_map_fst] at htargets

/-- The tokens that something was found for, with it. -/
def withFound {T O : Type} (find : T → Except Thrown (Option O)) (targetTokens : List T) :
    List (T × O) :=
  targetTokens.filterMap fun token =>
    match find token with
    | .ok (some o) => some (token, o)
    | _ => none

theorem withFound_eq {T O : Type} {find : T → Except Thrown (Option O)} {targetTokens : List T}
    {found : List (Option O)}
    (h : List.Forall₂ (fun token o => find token = .ok o) targetTokens found) :
    withFound find targetTokens =
      (targetTokens.zip found).filterMap fun p => p.2.map fun o => (p.1, o) := by
  induction h with
  | nil => rfl
  | @cons token o targetTokens found hfind _ ih =>
    rw [withFound, List.filterMap_cons, hfind, List.zip_cons_cons, List.filterMap_cons, ← ih]
    cases o <;> rfl

theorem mem_withFound {T O : Type} {find : T → Except Thrown (Option O)} {targetTokens : List T}
    {token : T} {o : O} (h : (token, o) ∈ withFound find targetTokens) :
    token ∈ targetTokens ∧ find token = .ok (some o) := by
  obtain ⟨found, hmem, hfound⟩ := List.mem_filterMap.mp h
  cases hfind : find found with
  | error e =>
    rw [hfind] at hfound
    cases hfound
  | ok result =>
    cases result with
    | none =>
      rw [hfind] at hfound
      cases hfound
    | some o' =>
      rw [hfind] at hfound
      cases hfound
      exact ⟨hmem, hfind⟩

/-- **A crawl, token by token.** What holds of each update by its token, what was
found for it and the results of its own calls, holds of all updates in order. -/
theorem crawl_rel {T O : Type} {node : Node} {chunkSize : ℕ} (hsize : 0 < chunkSize)
    {find : T → Except Thrown (Option O)} {infoEncode : T → Option O → List Call}
    {updateParam : T → Option O → List Result → Except Thrown (Option UpdateParam)}
    (hencode : ∀ token o, (infoEncode token o).length = chunkSize)
    {R : T × O → UpdateParam → Prop}
    (hupdate : ∀ token o row, updateParam token o ((infoEncode token o).map node.answer) = .ok row →
      Option.Rel R (o.map fun o => (token, o)) row)
    {targetTokens : List T} {params : List UpdateParam}
    (h : crawl chunkSize find infoEncode updateParam node targetTokens = .ok params) :
    List.Forall₂ R (withFound find targetTokens) params := by
  unfold crawl at h
  cases hfound : targetTokens.mapM find with
  | error e =>
    rw [hfound] at h
    cases h
  | ok found =>
    rw [hfound] at h
    simp only [bind, Except.bind] at h
    generalize hbatch : getBatchStaticAggregator node _ = answered at h
    cases answered with
    | error e => cases h
    | ok batch =>
      simp only at h
      generalize hrows : List.mapM (m := Except Thrown) _ _ = updates at h
      cases updates with
      | error e => cases h
      | ok rows =>
        cases h
        have hown := aligned hsize (fun target : T × Option O => hencode target.1 target.2)
          (fun target results => updateParam target.1 target.2 results) hbatch hrows
        rw [withFound_eq (Eff.forall₂_of_mapM hfound)]
        exact List.rel_filterMap (fun _ _ hrel => hrel)
          (hown.imp fun target row hrow => hupdate target.1 target.2 row hrow)

/-! ## The multi job -/

section
variable (node : Node)

/-- The tokens that have a key token, with it. -/
def keyed (targetTokens : List PairEntity) : List (PairEntity × TokenEntity) :=
  withFound (fun token => MultiAMM.findKeyPair token.pair0 token.pair1) targetTokens

def rawTotalSupply (token : TokenEntity) : ℚ := rawAmount (node.answer ⟨token.address, .totalSupply⟩)

def rawBalance (token : TokenEntity) (holder : String) : ℚ :=
  rawAmount (node.answer ⟨token.address, .balanceOf holder⟩)

/-- The value of a pair by its key token, whose balance is taken to have the
given decimals. -/
def pairValue (decimals : ℕ) (token : PairEntity) (keyPair : TokenEntity) : ℚ :=
  2 * (rawBalance node keyPair token.address / 10 ^ decimals) * keyPair.price_value /
    (rawTotalSupply node token.toTokenEntity / 10 ^ token.decimals)

def pairPrice (decimals : ℕ) (token : PairEntity) (keyPair : TokenEntity) : ℚ :=
  if rawTotalSupply node token.toTokenEntity = 0 then 0
  else roundHalfUp DECIMAL_PLACES (pairValue node decimals token keyPair)

/-- Every pair with a key token has an update, in order, whose price scales the
balance by the decimals of the key token. -/
def MultiScaled (targetTokens : List PairEntity) (params : List UpdateParam) : Prop :=
  List.Forall₂ (fun p param => param.id = p.1.id ∧
      param.price_value = .finite (pairPrice node p.2.decimals p.1 p.2))
    (keyed targetTokens) params

/-- There is no supply, or the key token has as many decimals as the pair, or
with either number of decimals the value is less than half of the twentieth
place. -/
def SameScale (token : PairEntity) (keyPair : TokenEntity) : Prop :=
  rawTotalSupply node token.toTokenEntity = 0 ∨ keyPair.decimals = token.decimals ∨
    |pairValue node token.decimals token keyPair| * 10 ^ 20 < 1 / 2 ∧
      |pairValue node keyPair.decimals token keyPair| * 10 ^ 20 < 1 / 2

end

variable {node : Node}

/-- The arithmetic of the multi job, on amounts in the pair's units. -/
theorem multi_value (supply balance price : ℚ) (decimals : ℕ) :
    toFixed (if isZero (.finite (supply / 10 ^ decimals)) then ZERO
      else div (mul (mul (.finite (balance / 10 ^ decimals)) (.finite price)) (.finite 2))
        (.finite (supply / 10 ^ decimals))) =
      .finite (if supply = 0 then 0 else roundHalfUp DECIMAL_PLACES
        (2 * (balance / 10 ^ decimals) * price / (supply / 10 ^ decimals))) := by
  have hpos : (0 : ℚ) < 10 ^ decimals := pow_ten_pos decimals
  by_cases hsupply : supply = 0
  · simp [hsupply, ZERO]
  · have hne : supply / 10 ^ decimals ≠ 0 := div_ne_zero hsupply hpos.ne'
    simp only [isZero_finite, hne, decide_false, Bool.false_eq_true, if_false, mul_finite,
      div_finite hne, toFixed_finite, roundHalfUp_roundHalfUp, if_neg hsupply]
    congr 2
    ring

/-- What the multi job computes for one pair. -/
theorem multi_updateParam {token : PairEntity} {keyPair : Option TokenEntity}
    {row : Option UpdateParam}
    (h : MultiAMM.updateParam token keyPair
      ((MultiAMM.infoEncode token keyPair).map node.answer) = .ok row) :
    Option.Rel (fun p param => param.id = p.1.id ∧
        param.price_value = .finite (pairPrice node p.1.decimals p.1 p.2))
      (keyPair.map fun keyPair => (token, keyPair)) row := by
  cases keyPair with
  | none =>
    cases h
    exact .none
  | some keyPair =>
    simp only [MultiAMM.updateParam, MultiAMM.infoEncode, List.map_cons, List.map_nil] at h
    cases hsupply : decodedAmount (node.answer ⟨token.address, .totalSupply⟩) token.decimals with
    | error e =>
      rw [hsupply] at h
      cases h
    | ok supply =>
      cases hbalance : decodedAmount (node.answer ⟨keyPair.address, .balanceOf token.address⟩)
          token.decimals with
      | error e =>
        rw [hsupply, hbalance] at h
        cases h
      | ok balance =>
        rw [hsupply, hbalance] at h
        cases h
        refine .some ⟨rfl, ?_⟩
        rw [decodedAmount_ok hsupply, decodedAmount_ok hbalance]
        exact multi_value _ _ _ _

/-- What the multi job computes, in the decimals of the pairs. -/
theorem multi_prices {targetTokens : List PairEntity} {params : List UpdateParam}
    (h : MultiAMM.crawlTokenSupplyAndPrice node targetTokens = .ok params) :
    List.Forall₂ (fun p param => param.id = p.1.id ∧
      param.price_value = .finite (pairPrice node p.1.decimals p.1 p.2)) (keyed targetTokens) params :=
  crawl_rel (by decide) (fun token keyPair => by cases keyPair <;> rfl)
    (fun _ _ _ => multi_updateParam) h

/-- A value in fewer decimals is larger by a power of ten. -/
theorem pairValue_scale (node : Node) {decimals decimals' : ℕ} (h : decimals ≤ decimals')
    (token : PairEntity) (keyPair : TokenEntity) :
    pairValue node decimals token keyPair =
      pairValue node decimals' token keyPair * 10 ^ (decimals' - decimals) := by
  have hsplit : (10 : ℚ) ^ decimals' = 10 ^ decimals * 10 ^ (decimals' - decimals) := by
    rw [← pow_add, Nat.add_sub_cancel' h]
  have hpos : (0 : ℚ) < 10 ^ decimals := pow_ten_pos decimals
  have hpos' : (0 : ℚ) < 10 ^ (decimals' - decimals) := pow_ten_pos _
  unfold pairValue
  rw [hsplit]
  field_simp

theorem ten_le_pow {n : ℕ} (h : 0 < n) : (10 : ℚ) ≤ 10 ^ n := by
  calc (10 : ℚ) = 10 ^ 1 := (pow_one _).symm
    _ ≤ 10 ^ n := pow_le_pow_right₀ (by norm_num) h

/-- The price in the decimals of the pair is that in the decimals of the key
token exactly on the same scale. -/
theorem pairPrice_eq_iff (token : PairEntity) (keyPair : TokenEntity) :
    pairPrice node token.decimals token keyPair = pairPrice node keyPair.decimals token keyPair ↔
      SameScale node token keyPair := by
  unfold SameScale
  by_cases hsupply : rawTotalSupply node token.toTokenEntity = 0
  · simp [pairPrice, hsupply]
  · have hplaces : DECIMAL_PLACES = 20 := rfl
    simp only [pairPrice, hsupply, if_false, false_or]
    rw [← hplaces, ← roundHalfUp_eq_zero_iff, ← roundHalfUp_eq_zero_iff]
    rcases lt_trichotomy keyPair.decimals token.decimals with hlt | heq | hgt
    · have hscale := pairValue_scale node hlt.le token keyPair
      rw [hscale, eq_comm, roundHalfUp_eq_iff_of_ten_le (ten_le_pow (Nat.sub_pos_of_lt hlt)), and_comm,
        or_iff_right hlt.ne]
    · simp [heq]
    · have hscale := pairValue_scale node hgt.le token keyPair
      rw [hscale, roundHalfUp_eq_iff_of_ten_le (ten_le_pow (Nat.sub_pos_of_lt hgt)),
        or_iff_right hgt.ne']

/-- The prices of the multi job are scaled exactly when every pair with a key
token is on the same scale as it. -/
theorem multiScaled_iff {targetTokens : List PairEntity} {params : List UpdateParam}
    (h : MultiAMM.crawlTokenSupplyAndPrice node targetTokens = .ok params) :
    MultiScaled node targetTokens params ↔
      ∀ p ∈ keyed targetTokens, SameScale node p.1 p.2 := by
  refine Eff.forall₂_iff_of_forall₂ (multi_prices h) fun p param hparam => ?_
  obtain ⟨hid, hprice⟩ := hparam
  rw [hid, hprice, ← pairPrice_eq_iff, Number.finite.injEq]
  exact and_iff_right rfl

/-! ## The single job -/

section
variable (node : Node) (tokens : List PairEntity)

/-- The tokens that have a counterpart, with the pair and the counterpart. -/
def paired (targetTokens : List TokenEntity) : List (TokenEntity × PairEntity × TokenEntity) :=
  withFound (SingleAMM.findOther tokens) targetTokens

/-- The value of a token by its counterpart in a pair. -/
def tokenValue (token : TokenEntity) (pair : PairEntity) (other : TokenEntity) : ℚ :=
  rawBalance node other pair.address / 10 ^ other.decimals * other.price_value /
    (rawBalance node token pair.address / 10 ^ token.decimals)

/-- Every token with a counterpart has an update, in order, whose price, if the
pair holds any of the token, scales each balance by its own decimals. -/
def SingleScaled (targetTokens : List TokenEntity) (params : List UpdateParam) : Prop :=
  List.Forall₂ (fun p param => param.id = p.1.id ∧
      (rawBalance node p.1 p.2.1.address ≠ 0 →
        param.price_value =
          .finite (roundHalfUp DECIMAL_PLACES (tokenValue node p.1 p.2.1 p.2.2))))
    (paired tokens targetTokens) params

end

variable {tokens : List PairEntity}

/-- What the single job computes for one token. -/
theorem single_updateParam {token : TokenEntity} {other : Option (PairEntity × TokenEntity)}
    {row : Option UpdateParam}
    (h : SingleAMM.updateParam token other
      ((SingleAMM.infoEncode token other).map node.answer) = .ok row) :
    Option.Rel (fun p param => param.id = p.1.id ∧
        (rawBalance node p.1 p.2.1.address ≠ 0 →
          param.price_value =
            .finite (roundHalfUp DECIMAL_PLACES (tokenValue node p.1 p.2.1 p.2.2))))
      (other.map fun other => (token, other)) row := by
  cases other with
  | none =>
    cases h
    exact .none
  | some found =>
    obtain ⟨pair, other⟩ := found
    simp only [SingleAMM.updateParam, SingleAMM.infoEncode, List.map_cons, List.map_nil] at h
    cases hsupply : decodedAmount (node.answer ⟨token.address, .totalSupply⟩) token.decimals with
    | error e =>
      rw [hsupply] at h
      cases h
    | ok supply =>
      cases htarget : decodedAmount (node.answer ⟨token.address, .balanceOf pair.address⟩)
          token.decimals with
      | error e =>
        rw [hsupply, htarget] at h
        cases h
      | ok target =>
        cases hother : decodedAmount (node.answer ⟨other.address, .balanceOf pair.address⟩)
            other.decimals with
        | error e =>
          rw [hsupply, htarget, hother] at h
          cases h
        | ok balance =>
          rw [hsupply, htarget, hother] at h
          cases h
          refine .some ⟨rfl, fun hheld => ?_⟩
          have hpos : (0 : ℚ) < 10 ^ token.decimals := pow_ten_pos _
          have hheld : (rawAmount (node.answer ⟨token.address, .balanceOf pair.address⟩) : ℚ) ≠ 0 :=
            hheld
          rw [decodedAmount_ok htarget, decodedAmount_ok hother, mul_finite,
            div_finite (div_ne_zero hheld hpos.ne'), toFixed_finite, roundHalfUp_roundHalfUp]
          rfl

/-- The prices of the single job are scaled. -/
theorem singleScaled {targetTokens : List TokenEntity} {params : List UpdateParam}
    (h : SingleAMM.crawlTokenSupplyAndPrice node tokens targetTokens = .ok params) :
    SingleScaled node tokens targetTokens params :=
  crawl_rel (by decide) (fun token other => by cases other <;> rfl)
    (fun _ _ _ => single_updateParam) h

/-! ## Both jobs -/

/-- **The scale of the prices.** On whatever the node answers, both jobs scale
each raw amount by the decimals of its own token exactly when every pair that the
multi job prices is on the same scale as its key token. -/
theorem prices_scaled_iff {multiNode singleNode : Node} {multiTokens : List PairEntity}
    {singleTokens : List TokenEntity} {multiParams singleParams : List UpdateParam}
    (hmulti : MultiAMM.crawlTokenSupplyAndPrice multiNode multiTokens = .ok multiParams)
    (hsingle : SingleAMM.crawlTokenSupplyAndPrice singleNode tokens singleTokens =
      .ok singleParams) :
    (MultiScaled multiNode multiTokens multiParams ∧
        SingleScaled singleNode tokens singleTokens singleParams) ↔
      ∀ p ∈ keyed multiTokens, SameScale multiNode p.1 p.2 := by
  rw [and_iff_left (singleScaled hsingle), multiScaled_iff hmulti]

/-! ## A pair with a key token of six decimals

The pair holds one unit of each token and has one unit of supply. -/

def dollar (decimals : ℕ) : TokenEntity where
  id := 0
  type := .SINGLE
  address := "0xd0"
  decimals := decimals
  total_supply := 1
  price_address := some "0xfeed"
  price_value := 1
  status := true
  network_status := true

def coin : TokenEntity where
  id := 1
  type := .SINGLE
  address := "0xc0"
  decimals := 18
  total_supply := 1
  price_address := none
  price_value := 0
  status := true
  network_status := true

def examplePair (decimals : ℕ) : PairEntity where
  id := 2
  type := .MULTI
  address := "0xab"
  decimals := 18
  total_supply := 1
  price_address := none
  price_value := 2
  status := true
  network_status := true
  pair0 := some (dollar decimals)
  pair1 := some coin

def exampleNode (decimals : ℕ) : Node where
  answer call :=
    ⟨true, .uint256 (if call.target = "0xd0" then 10 ^ decimals else 10 ^ 18)⟩
  fault := none

theorem ok_of_toOption {α : Type} {answer : Except Thrown α} {a : α}
    (h : answer.toOption = some a) : answer = .ok a := by
  cases answer with
  | error e => cases h
  | ok b =>
    cases h
    rfl

/-- With eighteen decimals everywhere both jobs are right. -/
theorem eighteen_decimals_scaled :
    MultiScaled (exampleNode 18) [examplePair 18] [⟨2, .finite 2, .finite 1⟩] ∧
      SingleScaled (exampleNode 18) [examplePair 18] [coin] [⟨1, .finite 1, .finite 1⟩] := by
  have hmulti : MultiAMM.crawlTokenSupplyAndPrice (exampleNode 18) [examplePair 18] =
      .ok [⟨2, .finite 2, .finite 1⟩] := ok_of_toOption (by decide +kernel)
  have hsingle : SingleAMM.crawlTokenSupplyAndPrice (exampleNode 18) [examplePair 18] [coin] =
      .ok [⟨1, .finite 1, .finite 1⟩] := ok_of_toOption (by decide +kernel)
  refine (prices_scaled_iff hmulti hsingle).mpr fun p hp => Or.inr (Or.inl ?_)
  have hkeyed : keyed [examplePair 18] = [(examplePair 18, dollar 18)] := rfl
  rw [hkeyed, List.mem_singleton] at hp
  rw [hp]
  rfl

/-- With six decimals of the key token the multi job prices the pair, worth two,
at two millionth of a millionth. -/
theorem six_decimals_not_scaled :
    MultiAMM.crawlTokenSupplyAndPrice (exampleNode 6) [examplePair 6] =
        .ok [⟨2, .finite (2 / 10 ^ 12), .finite 1⟩] ∧
      ¬ MultiScaled (exampleNode 6) [examplePair 6] [⟨2, .finite (2 / 10 ^ 12), .finite 1⟩] := by
  refine ⟨ok_of_toOption (by decide +kernel), fun h => ?_⟩
  have hkeyed : keyed [examplePair 6] = [(examplePair 6, dollar 6)] := rfl
  have hprice : pairPrice (exampleNode 6) 6 (examplePair 6) (dollar 6) = 2 := by decide +kernel
  rw [MultiScaled, hkeyed] at h
  obtain ⟨⟨_, hscaled⟩, _⟩ := List.forall₂_cons.mp h
  have hdecimals : (dollar 6).decimals = 6 := rfl
  rw [hdecimals, hprice] at hscaled
  exact absurd hscaled (by decide +kernel)

end BlockchainTask.SchedulerJob.TokenPriceScale

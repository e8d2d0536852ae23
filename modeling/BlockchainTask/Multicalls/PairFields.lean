import BlockchainTask.Multicalls.BatchSafety

/-! # The two fields of a pair info

`isPair` asks both tokens of an address and is true when both calls succeeded
with bytes. `safePairInfo` asks the same and puts in each field the address that
the call returned. A decoded address may be the zero one, so what is followed
here is whether a field was decoded, and not only its value. The second field is
guarded by the bytes of the first call: it is right as long as the two calls
agree on whether there are bytes. -/
namespace BlockchainTask.Multicalls.PairFields
open BlockchainTask.Library.Abi BlockchainTask.Library.Effect
open BlockchainTask.Multicalls.MultiCall BlockchainTask.Multicalls.BatchSafety

section
variable {α : Type} {decoder : Bytes → Option α} {returned : Returned}

/-- No bytes, or bytes that decode. -/
def WellFormed (decoder : Bytes → Option α) (returned : Returned) : Prop :=
  returned.data = [] ∨ (decoder returned.data).isSome

/-- What a call answered: nothing when it failed or gave no bytes. -/
def answered (decoder : Bytes → Option α) (returned : Returned) : Option α :=
  if returned.success && !isEmptyBytes returned.data then decoder returned.data else none

/-- A decoder that tells a decoded value from a default. -/
def marked (decoder : Bytes → Option α) (data : Bytes) : Option (Option α) :=
  (decoder data).map some

theorem decodeIf_marked (decoder : Bytes → Option α) (success : Bool) (checked data : Bytes)
    (unknown : α) :
    decodeIf decoder success checked data unknown =
      (decodeIf (marked decoder) success checked data none).map fun field =>
        field.getD unknown := by
  unfold decodeIf abiDecode marked
  split
  · cases decoder data <;> rfl
  · rfl

/-- What a field becomes that is guarded by the bytes `checked`. -/
theorem decodeIf_answered_iff {checked : Bytes} (hwell : WellFormed decoder returned)
    (hnil : decoder [] = none) :
    decodeIf (marked decoder) returned.success checked returned.data none =
        .ok (answered decoder returned) ↔
      (returned.success = true → (checked = [] ↔ returned.data = [])) := by
  unfold decodeIf answered abiDecode marked
  cases hsuccess : returned.success with
  | false => simp
  | true =>
    by_cases hchecked : checked = [] <;> by_cases hdata : returned.data = []
    · simp [hchecked, hdata, isEmptyBytes]
    · obtain ⟨value, hvalue⟩ := Option.isSome_iff_exists.mp (hwell.resolve_left hdata)
      simp [hchecked, hdata, hvalue, isEmptyBytes]
    · simp [hchecked, hdata, hnil, isEmptyBytes]
    · obtain ⟨value, hvalue⟩ := Option.isSome_iff_exists.mp (hwell.resolve_left hdata)
      simp [hchecked, hdata, hvalue, isEmptyBytes]

theorem answered_isSome_iff (hwell : WellFormed decoder returned) :
    (answered decoder returned).isSome ↔ returned.success ∧ returned.data ≠ [] := by
  unfold answered
  cases hwell with
  | inl hempty => simp [hempty, isEmptyBytes]
  | inr hdecodes =>
    obtain ⟨value, hvalue⟩ := Option.isSome_iff_exists.mp hdecodes
    by_cases hguard : returned.success && !isEmptyBytes returned.data
    · rw [if_pos hguard, hvalue]
      rw [Bool.and_eq_true, Bool.not_eq_true', ← Bool.not_eq_true, isEmptyBytes_iff] at hguard
      simp [hguard.1, hguard.2]
    · rw [if_neg hguard]
      rw [Bool.and_eq_true, Bool.not_eq_true', ← Bool.not_eq_true, isEmptyBytes_iff] at hguard
      simpa using hguard

end

section
variable {chain : Chain} {pair : Address}

/-- The fields as `safePairInfo` comes to them, without the default. -/
def pairFields (chain : Chain) (pair : Address) :
    Except Revert (Option Address × Option Address) := do
  let token0Returned := chain.staticcall pair token0
  let token1Returned := chain.staticcall pair token1
  let token0Address ← decodeIf (marked (decodeUint 160)) token0Returned.success
    token0Returned.data token0Returned.data none
  let token1Address ← decodeIf (marked (decodeUint 160)) token1Returned.success
    token0Returned.data token1Returned.data none
  pure (token0Address, token1Address)

/-- An info with the default in the place of a field that was not decoded. -/
def infoOf (pair : Address) (fields : Option Address × Option Address) : PairInfo :=
  ⟨pair, fields.1.getD UNKNOWN_ADDRESS, fields.2.getD UNKNOWN_ADDRESS⟩

theorem safePairInfo_eq (chain : Chain) (pair : Address) :
    safePairInfo chain pair = (pairFields chain pair).map (infoOf pair) := by
  unfold safePairInfo pairFields
  simp only [decodeIf_marked (decodeUint 160)]
  cases decodeIf (marked (decodeUint 160)) (chain.staticcall pair token0).success
      (chain.staticcall pair token0).data (chain.staticcall pair token0).data none with
  | error e => rfl
  | ok first =>
    cases decodeIf (marked (decodeUint 160)) (chain.staticcall pair token1).success
        (chain.staticcall pair token0).data (chain.staticcall pair token1).data none with
    | error e => rfl
    | ok second => rfl

/-- What the two functions should say of an address: in each field the answer of
its own call, the default where there is none, and a pair when both were decoded. -/
structure EachOwnAnswer (chain : Chain) (pair : Address) : Prop where
  fields : pairFields chain pair = .ok (answered (decodeUint 160) (chain.staticcall pair token0),
    answered (decodeUint 160) (chain.staticcall pair token1))
  info : safePairInfo chain pair =
    .ok (infoOf pair (answered (decodeUint 160) (chain.staticcall pair token0),
      answered (decodeUint 160) (chain.staticcall pair token1)))
  isPair : isPair chain pair = true ↔ ∃ first second,
    pairFields chain pair = .ok (some first, some second)

theorem decodeUint_nil : decodeUint 160 [] = none := rfl

theorem pairFields_eq_ok_iff (hfirst : WellFormed (decodeUint 160) (chain.staticcall pair token0))
    (hsecond : WellFormed (decodeUint 160) (chain.staticcall pair token1)) :
    pairFields chain pair = .ok (answered (decodeUint 160) (chain.staticcall pair token0),
        answered (decodeUint 160) (chain.staticcall pair token1)) ↔
      ((chain.staticcall pair token1).success = true →
        ((chain.staticcall pair token0).data = [] ↔ (chain.staticcall pair token1).data = [])) := by
  have htoken0 : decodeIf (marked (decodeUint 160)) (chain.staticcall pair token0).success
      (chain.staticcall pair token0).data (chain.staticcall pair token0).data none =
        .ok (answered (decodeUint 160) (chain.staticcall pair token0)) :=
    (decodeIf_answered_iff hfirst decodeUint_nil).mpr fun _ => Iff.rfl
  rw [← decodeIf_answered_iff hsecond decodeUint_nil, pairFields]
  simp only [htoken0, Eff.except_bind_eq_ok]
  constructor
  · intro h
    obtain ⟨first, _, second, hdecoded, hpair⟩ := h
    rw [hdecoded, (Prod.mk.inj (Except.ok.inj hpair)).2]
  · intro h
    exact ⟨_, rfl, _, h, rfl⟩

/-- Two fields are decoded only if the address is a pair. -/
theorem isPair_of_pairFields {first second : Address}
    (h : pairFields chain pair = .ok (some first, some second)) :
    isPair chain pair = true := by
  unfold pairFields decodeIf at h
  simp only [Eff.except_bind_eq_ok] at h
  obtain ⟨first', htoken0, second', htoken1, hpair⟩ := h
  obtain ⟨rfl, rfl⟩ := Prod.mk.inj (Except.ok.inj hpair)
  split at htoken0
  · rename_i hguard
    split at htoken1
    · rename_i hguard'
      rw [abiDecode_eq_ok_iff] at htoken1
      have hdata : (chain.staticcall pair token1).data ≠ [] := by
        intro hempty
        rw [hempty] at htoken1
        cases htoken1
      simp_all [isPair, isEmptyBytes]
    · cases htoken1
  · cases htoken0

theorem isPair_iff : isPair chain pair = true ↔
    ((chain.staticcall pair token0).success = true ∧ (chain.staticcall pair token0).data ≠ []) ∧
      (chain.staticcall pair token1).success = true ∧ (chain.staticcall pair token1).data ≠ [] := by
  simp only [isPair, Bool.and_eq_true, Bool.not_eq_true', ← Bool.not_eq_true, isEmptyBytes_iff]
  tauto

/-- A pair is an address of which both fields are decoded. -/
theorem isPair_iff_pairFields
    (hfirst : WellFormed (decodeUint 160) (chain.staticcall pair token0))
    (hsecond : WellFormed (decodeUint 160) (chain.staticcall pair token1)) :
    isPair chain pair = true ↔ ∃ first second,
      pairFields chain pair = .ok (some first, some second) := by
  refine ⟨fun h => ?_, fun ⟨first, second, h⟩ => isPair_of_pairFields h⟩
  obtain ⟨hsuccess0, hsuccess1⟩ := isPair_iff.mp h
  obtain ⟨first, hanswer0⟩ := Option.isSome_iff_exists.mp
    ((answered_isSome_iff hfirst).mpr hsuccess0)
  obtain ⟨second, hanswer1⟩ := Option.isSome_iff_exists.mp
    ((answered_isSome_iff hsecond).mpr hsuccess1)
  have hfields := (pairFields_eq_ok_iff hfirst hsecond).mpr fun _ =>
    ⟨fun hempty => absurd hempty hsuccess0.2, fun hempty => absurd hempty hsuccess1.2⟩
  rw [hanswer0, hanswer1] at hfields
  exact ⟨first, second, hfields⟩

/-- The two batches of the crawler, for addresses of which each says what it should. -/
theorem batches_eachOwnAnswer {chain : ℕ → Chain} {pairs : List Address}
    (h : ∀ i pair, pairs[i]? = some pair → EachOwnAnswer (chain i) pair) :
    getBatchIsPairs chain pairs = .ok (pairs.mapIdx fun i pair => isPair (chain i) pair) ∧
      getBatchPairInfos chain pairs = .ok (pairs.mapIdx fun i pair =>
        infoOf pair (answered (decodeUint 160) ((chain i).staticcall pair token0),
          answered (decodeUint 160) ((chain i).staticcall pair token1))) :=
  ⟨batchOf_eq_ok_iff.mpr fun _ _ _ => rfl, batchOf_eq_ok_iff.mpr fun i pair hi => (h i pair hi).info⟩

/-- For calls that return addresses or no bytes: the info and `isPair` say of an
address what they should exactly when a second call that succeeds has bytes if and
only if the first one has. -/
theorem safePairInfo_eachOwnAnswer_iff (chain : Chain) (pair : Address)
    (hfirst : WellFormed (decodeUint 160) (chain.staticcall pair token0))
    (hsecond : WellFormed (decodeUint 160) (chain.staticcall pair token1)) :
    EachOwnAnswer chain pair ↔ ((chain.staticcall pair token1).success = true →
      ((chain.staticcall pair token0).data = [] ↔ (chain.staticcall pair token1).data = [])) := by
  rw [← pairFields_eq_ok_iff hfirst hsecond]
  constructor
  · intro h
    exact h.fields
  · intro h
    refine ⟨h, ?_, isPair_iff_pairFields hfirst hsecond⟩
    rw [safePairInfo_eq, h]
    rfl

/-- `abi.encode(address)`. -/
def encodedAddress (last : UInt8) : Bytes := List.replicate 31 0 ++ [last]

/-- A contract that answers `token0()` and has no `token1()`, behind a fallback
that returns nothing. -/
def halfPair : Chain where
  staticcall _ data := ⟨true, if data = token0 then encodedAddress 7 else []⟩
  balance _ := 0

/-- A contract that answers both. -/
def wholePair : Chain where
  staticcall _ data := ⟨true, encodedAddress (if data = token0 then 7 else 8)⟩
  balance _ := 0

theorem safePairInfo_wholePair : EachOwnAnswer wholePair 0x1111111111111111111111111111111111111111 :=
  (safePairInfo_eachOwnAnswer_iff wholePair 0x1111111111111111111111111111111111111111
    (.inr (by decide +kernel)) (.inr (by decide +kernel))).mpr (by decide +kernel)

/-- The first address is known, and the whole call reverts. -/
theorem safePairInfo_halfPair :
    ¬ ∀ (chain : Chain) (pair : Address),
      WellFormed (decodeUint 160) (chain.staticcall pair token0) →
      WellFormed (decodeUint 160) (chain.staticcall pair token1) →
      EachOwnAnswer chain pair := by
  intro hall
  have h := (hall halfPair 0x1111111111111111111111111111111111111111 (.inr (by decide +kernel))
    (.inl rfl)).info
  have hreverts : safePairInfo halfPair 0x1111111111111111111111111111111111111111 =
      .error .decoding := rfl
  rw [hreverts] at h
  cases h

end
end BlockchainTask.Multicalls.PairFields

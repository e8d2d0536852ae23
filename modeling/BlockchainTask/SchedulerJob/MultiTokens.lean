import BlockchainTask.SchedulerJob.PairEffect

/-! # Pairs made of pairs of the same chunk

`createMultiTokens` registers the pairs of a chunk in two passes. The first
takes the pairs whose constituents are registered, the second those that were
left. The second pass reads the status of a constituent without asking, as the
first one does, whether the constituent is there: a pair whose constituent was
not registered by the first pass either, because it was left itself or was
skipped, makes the whole call throw. -/
namespace BlockchainTask.SchedulerJob.MultiTokens
open BlockchainTask.Helper BlockchainTask.Common.Exception
open BlockchainTask.Library.Effect BlockchainTask.Library.Transaction BlockchainTask.Library.Store
open BlockchainTask.Repository.Token BlockchainTask.SchedulerJob.Base
open BlockchainTask.SchedulerJob.PairTemplate BlockchainTask.SchedulerJob.PairEffect

/-! ## A chunk -/

/-- The arguments of `createMultiTokens` as `doTask` gives them: an info for
every address, every address with its reported composition. -/
structure Chunk where
  addresses : List String
  infos : List InfoEntry
  composed : List PairInfo
  invalid : List String
  infos_length : infos.length = addresses.length
  reported : ∀ a ∈ addresses, (composedOf composed a).isSome = true
  written : ∀ a ∈ addresses, a ≠ ""

/-- The addresses that `doTask` hands over: those it has a composition for, in
lower case, without the registered ones. -/
theorem reported_of_doTask {composed : List PairInfo} {registered : List (Option String)}
    {a : String}
    (h : a ∈ (removeStringValues ((grouping composed).1.map some) registered).filterMap id) :
    (composedOf composed a).isSome = true ∧ ∃ info ∈ composed, a = toLowerCase info.pair := by
  obtain ⟨value, hvalue, rfl⟩ := List.mem_filterMap.mp h
  obtain ⟨⟨v, hv, hlower⟩, _⟩ := mem_removeStringValues hvalue
  obtain ⟨u, hu, rfl⟩ := List.mem_map.mp hv
  obtain ⟨info, hinfo, rfl⟩ := List.mem_map.mp (List.mem_eraseDups.mp hu)
  have ha : a = toLowerCase info.pair := Option.some.inj hlower
  refine ⟨List.find?_isSome.mpr ⟨info, hinfo, ?_⟩, info, hinfo, ha⟩
  rw [ha, toLowerCase_toLowerCase, beq_self_eq_true]

/-- The chunk of a task. -/
def Chunk.ofTask (composed : List PairInfo) (registered : List (Option String))
    (infos : List InfoEntry) (invalid : List String)
    (hinfos : infos.length =
      ((removeStringValues ((grouping composed).1.map some) registered).filterMap id).length)
    (hwritten : ∀ info ∈ composed, info.pair ≠ "") : Chunk where
  addresses := (removeStringValues ((grouping composed).1.map some) registered).filterMap id
  infos := infos
  composed := composed
  invalid := invalid
  infos_length := hinfos
  reported a ha := (reported_of_doTask ha).1
  written a ha := by
    obtain ⟨info, hinfo, rfl⟩ := (reported_of_doTask ha).2
    exact toLowerCase_ne_empty (hwritten info hinfo)

namespace Chunk
variable (chunk : Chunk)

/-- Every info of the chunk can be read. -/
def Readable : Prop := ∀ entry ∈ chunk.infos, ∃ info, entry = .ok info

/-- The pair at a position. -/
def pairAt (p : String × Nat) : Option Deferred := do
  let entry ← chunk.infos[p.2]?
  let info ← entry.toOption
  let composed ← composedOf chunk.composed p.1
  pure ⟨p.1, info, composed.token0, composed.token1⟩

/-- The pairs of the chunk, in order. -/
def pairs : List Deferred := chunk.addresses.zipIdx.filterMap chunk.pairAt

end Chunk

theorem pairAt_some {chunk : Chunk} {p : String × Nat} {pair : Deferred}
    (h : chunk.pairAt p = some pair) :
    pair.address = p.1 ∧ chunk.infos[p.2]? = some (.ok pair.info) ∧
      ∃ composed, composedOf chunk.composed p.1 = some composed ∧
        pair.token0 = composed.token0 ∧ pair.token1 = composed.token1 := by
  simp only [Chunk.pairAt, Option.bind_eq_bind] at h
  obtain ⟨entry, hentry, hrest⟩ := Option.bind_eq_some_iff.mp h
  obtain ⟨info, hinfo, hrest⟩ := Option.bind_eq_some_iff.mp hrest
  obtain ⟨composed, hcomposed, hpair⟩ := Option.bind_eq_some_iff.mp hrest
  cases hpair
  cases entry with
  | error e => cases hinfo
  | ok value =>
    cases hinfo
    exact ⟨rfl, hentry, composed, hcomposed, rfl, rfl⟩

theorem pairAt_isSome {chunk : Chunk} (hreadable : chunk.Readable) {p : String × Nat}
    (h : p ∈ chunk.addresses.zipIdx) : ∃ pair, chunk.pairAt p = some pair := by
  have hindex : p.2 < chunk.infos.length := by
    rw [chunk.infos_length]
    exact (List.mem_zipIdx' h).1
  obtain ⟨composed, hcomposed⟩ :=
    Option.isSome_iff_exists.mp (chunk.reported p.1 (List.fst_mem_of_mem_zipIdx h))
  obtain ⟨info, hinfo⟩ := hreadable _ (List.getElem_mem hindex)
  refine ⟨⟨p.1, info, composed.token0, composed.token1⟩, ?_⟩
  simp only [Chunk.pairAt, List.getElem?_eq_getElem hindex, hinfo, Except.toOption, hcomposed,
    Option.bind_eq_bind, Option.bind_some]
  rfl

/-- Pairs with the same address are made of the same tokens. -/
theorem same_composition {chunk : Chunk} {p q : Deferred} (hp : p ∈ chunk.pairs)
    (hq : q ∈ chunk.pairs) (h : sameText p.address q.address) :
    p.token0 = q.token0 ∧ p.token1 = q.token1 := by
  obtain ⟨i, _, hpi⟩ := List.mem_filterMap.mp hp
  obtain ⟨j, _, hqj⟩ := List.mem_filterMap.mp hq
  obtain ⟨hai, _, ci, hci, hp0, hp1⟩ := pairAt_some hpi
  obtain ⟨haj, _, cj, hcj, hq0, hq1⟩ := pairAt_some hqj
  have hsame : composedOf chunk.composed i.1 = composedOf chunk.composed j.1 := by
    have h : toLowerCase p.address = toLowerCase q.address := h
    rw [hai, haj] at h
    simp only [composedOf, h]
  rw [hci, hcj] at hsame
  cases hsame
  exact ⟨hp0.trans hq0.symm, hp1.trans hq1.symm⟩

theorem written_of_mem {chunk : Chunk} {pair : Deferred} (h : pair ∈ chunk.pairs) :
    pair.address ≠ "" := by
  obtain ⟨p, hp, hpair⟩ := List.mem_filterMap.mp h
  rw [(pairAt_some hpair).1]
  exact chunk.written p.1 (List.fst_mem_of_mem_zipIdx hp)

/-! ## The two passes as functions of the table -/

section
variable (context : Context) (invalid : List String) (t : Tokens)

/-- No constituent is among the invalid tokens. -/
def Valid (pair : Deferred) : Prop :=
  ∀ a ∈ invalid, some a ≠ pair.token0 ∧ some a ≠ pair.token1

instance (pair : Deferred) : Decidable (Valid invalid pair) :=
  inferInstanceAs (Decidable (∀ a ∈ invalid, some a ≠ pair.token0 ∧ some a ≠ pair.token1))

def decisionOf (pair : Deferred) : Decision :=
  if Valid invalid pair then
    decide₁ context pair (findOne context.network pair.token0 t)
      (findOne context.network pair.token1 t)
  else .skip

def firstRow (pair : Deferred) : Option TokenRow :=
  match decisionOf context invalid t pair with
  | .push row => some row
  | _ => none

/-- The pair is left for the second pass. -/
def IsDeferred (pair : Deferred) : Prop :=
  Valid invalid pair ∧
    (findOne context.network pair.token0 t = none ∨ findOne context.network pair.token1 t = none)

/-- The table after the first pass. -/
def afterFirst (pairs : List Deferred) : Tokens :=
  t.insertAll ((pairs.filterMap (firstRow context invalid t)).map TokenRow.kept)

def secondRow (pair : Deferred) : Except Thrown (Option TokenRow) :=
  match findOne context.network pair.token0 t, findOne context.network pair.token1 t with
  | none, _ => .error typeError
  | some token0, registeredToken1 =>
    if !token0.row.status then .ok none
    else
      match registeredToken1 with
      | none => .error typeError
      | some token1 =>
        .ok (if token1.row.status then some (multiRow context pair token0 token1) else none)

end

variable {context : Context} {chunk : Chunk} {invalid : List String} {t : Tokens}

theorem decisionOf_defer {pair left : Deferred} :
    decisionOf context invalid t pair = .defer left ↔
      left = pair ∧ IsDeferred context invalid t pair := by
  unfold decisionOf IsDeferred
  by_cases hvalid : Valid invalid pair
  · rw [if_pos hvalid]
    cases h0 : findOne context.network pair.token0 t with
    | none => simp [decide₁, hvalid, eq_comm]
    | some token0 =>
      cases h1 : findOne context.network pair.token1 t with
      | none => simp [decide₁, hvalid, eq_comm]
      | some token1 =>
        simp only [decide₁, reduceCtorEq, or_self, and_false, iff_false]
        split <;> simp
  · rw [if_neg hvalid]
    simp [hvalid]

theorem firstRow_some {pair : Deferred} {row : TokenRow} :
    firstRow context invalid t pair = some row ↔ Valid invalid pair ∧ ∃ token0 token1,
      findOne context.network pair.token0 t = some token0 ∧
      findOne context.network pair.token1 t = some token1 ∧
      token0.row.status = true ∧ token1.row.status = true ∧
      row = multiRow context pair token0 token1 := by
  unfold firstRow decisionOf
  by_cases hvalid : Valid invalid pair
  · rw [if_pos hvalid]
    cases h0 : findOne context.network pair.token0 t with
    | none => simp [decide₁]
    | some token0 =>
      cases h1 : findOne context.network pair.token1 t with
      | none => simp [decide₁]
      | some token1 =>
        cases hs0 : token0.row.status with
        | false => simp [decide₁, hs0]
        | true =>
          cases hs1 : token1.row.status with
          | false => simp [decide₁, hs0, hs1]
          | true =>
            simp only [decide₁, hs0, hs1, Bool.and_self, if_true, Option.some.injEq, hvalid,
              true_and]
            refine ⟨fun h => ⟨token0, token1, rfl, rfl, hs0, hs1, h.symm⟩, ?_⟩
            intro hmade
            obtain ⟨_, _, rfl, rfl, _, _, rfl⟩ := hmade
            rfl
  · rw [if_neg hvalid]
    simp [hvalid]

theorem secondRow_some {pair : Deferred} {row : TokenRow}
    (h : secondRow context t pair = .ok (some row)) :
    ∃ token0 token1, row = multiRow context pair token0 token1 := by
  unfold secondRow at h
  cases h0 : findOne context.network pair.token0 t with
  | none => simp only [h0, reduceCtorEq] at h
  | some token0 =>
    simp only [h0] at h
    split at h
    · cases h
    · cases h1 : findOne context.network pair.token1 t with
      | none => simp only [h1, reduceCtorEq] at h
      | some token1 =>
        simp only [h1, Except.ok.injEq] at h
        split at h
        · exact ⟨token0, token1, (Option.some.inj h).symm⟩
        · cases h

/-- A pair passes the second pass when its first constituent is there, and the
second one too unless the first is inactive. -/
theorem secondRow_ok_iff {pair : Deferred} :
    (∃ row, secondRow context t pair = .ok row) ↔
      ∃ token0, findOne context.network pair.token0 t = some token0 ∧
        (token0.row.status = true → (findOne context.network pair.token1 t).isSome = true) := by
  unfold secondRow
  cases h0 : findOne context.network pair.token0 t with
  | none => simp
  | some token0 =>
    cases hs : token0.row.status with
    | false => simp [hs]
    | true =>
      cases h1 : findOne context.network pair.token1 t with
      | none => simp [hs]
      | some token1 => simp [hs]

theorem firstPass_run {s : Session (Db Tokens) LoggerData} {p : String × Nat} {pair : Deferred}
    (h : chunk.pairAt p = some pair) :
    firstPass context .none chunk.infos chunk.composed chunk.invalid p s =
      (.ok (decisionOf context chunk.invalid s.view.tables pair), s) := by
  obtain ⟨haddress, hinfo, composed, hcomposed, h0, h1⟩ := pairAt_some h
  have hpair : pair = ⟨p.1, pair.info, composed.token0, composed.token1⟩ := by
    rw [← haddress, ← h0, ← h1]
  have hinvalid : (chunk.invalid.any fun address =>
      some address == composed.token0 || some address == composed.token1) = true ↔
      ¬ Valid chunk.invalid pair := by
    rw [List.any_eq_true, Valid, h0, h1]
    simp only [Bool.or_eq_true, beq_iff_eq, not_forall, not_and_or, ne_eq, not_not, exists_prop]
  have hread : infoAt chunk.infos p.2 s = (.ok pair.info, s) := by
    simp only [infoAt, hinfo]
    rfl
  rw [firstPass, Eff.bind_of_ok hread]
  simp only [hcomposed]
  by_cases hvalid : Valid chunk.invalid pair
  · rw [decisionOf, if_pos hvalid, if_neg (fun hany => hinvalid.mp hany hvalid), h0, h1]
    rw [hpair]
    rfl
  · rw [decisionOf, if_neg hvalid, if_pos (hinvalid.mpr hvalid)]
    rfl

theorem findToken_run (pass number : Nat) (address : Option String)
    (s : Session (Db Tokens) LoggerData) :
    findToken context (Faults.none.findToken pass number) address s =
      (.ok (findOne context.network address s.view.tables), s) := rfl

theorem secondPass_run (p : Deferred × Nat) (s : Session (Db Tokens) LoggerData) :
    secondPass context .none p s = (secondRow context s.view.tables p.1, s) := by
  rw [secondPass, Eff.bind_of_ok (findToken_run 1 (2 * p.2) p.1.token0 s),
    Eff.bind_of_ok (findToken_run 1 (2 * p.2 + 1) p.1.token1 s), secondRow]
  cases findOne context.network p.1.token0 s.view.tables with
  | none => rfl
  | some token0 =>
    cases hs : token0.row.status with
    | false => simp only [hs]; rfl
    | true =>
      cases findOne context.network p.1.token1 s.view.tables with
      | none => simp only [hs]; rfl
      | some token1 => simp only [hs]; rfl

/-- An insert inside the transaction is seen by what follows. -/
theorem createTokensIfNotExist_run (number : Nat) {params : List TokenRow}
    {s : Session (Db Tokens) LoggerData} (hactive : s.isTransactionActive = true)
    (hwritten : ∀ r ∈ params, r.address ≠ "") :
    ∃ s', createTokensIfNotExist (Faults.none.createTokensIfNotExist number) params s = (.ok (), s') ∧
      s'.isTransactionActive = true ∧
      s'.view.tables = s.view.tables.insertAll (params.map TokenRow.kept) := by
  have hrefuse : params.findSome? checkInsert = none := by
    rw [List.findSome?_eq_none_iff]
    intro r hr
    exact if_neg (hwritten r hr)
  have hstages := createTokensIfNotExist_stages (d := s.db)
    (Faults.none.createTokensIfNotExist number) params s rfl hactive
  cases hrun : createTokensIfNotExist (Faults.none.createTokensIfNotExist number) params s with
  | mk r s' =>
    cases r with
    | ok u =>
      obtain ⟨_, hactive', _, hview⟩ := (Eff.wp_iff.mp hstages).1 u s' hrun
      exact ⟨s', rfl, hactive', by rw [hview]; rfl⟩
    | error e =>
      have hok : (createTokensIfNotExist (Faults.none.createTokensIfNotExist number) params s).1 =
          .ok () := by
        simp only [createTokensIfNotExist, managerWrite, Faults.none, Eff.bind_eq, Eff.mayFail,
          Eff.read, hrefuse, Eff.update]
      rw [hrun] at hok
      cases hok

/-- What the first pass decides on a position of the task. -/
def decisionAt (context : Context) (chunk : Chunk) (t : Tokens) (p : String × Nat) : Decision :=
  match chunk.pairAt p with
  | some pair => decisionOf context chunk.invalid t pair
  | none => .skip

theorem decisionAt_of_pair {t : Tokens} {p : String × Nat} {pair : Deferred}
    (h : chunk.pairAt p = some pair) :
    decisionAt context chunk t p = decisionOf context chunk.invalid t pair := by
  rw [decisionAt, h]

theorem pushed_decisionAt (t : Tokens) :
    pushed (chunk.addresses.zipIdx.map (decisionAt context chunk t)) =
      chunk.pairs.filterMap (firstRow context chunk.invalid t) := by
  rw [pushed, Chunk.pairs, List.filterMap_map, List.filterMap_filterMap]
  congr 1
  funext p
  simp only [Function.comp, decisionAt]
  cases chunk.pairAt p with
  | none => rfl
  | some pair => rfl

theorem mem_deferred {decisions : List Decision} {pair : Deferred} :
    pair ∈ deferred decisions ↔ .defer pair ∈ decisions := by
  rw [deferred, List.mem_filterMap]
  constructor
  · rintro ⟨decision, hdecision, hpair⟩
    cases decision with
    | skip => cases hpair
    | push row => cases hpair
    | defer left =>
      cases hpair
      exact hdecision
  · exact fun hmem => ⟨_, hmem, rfl⟩

theorem mem_deferred_decisionAt {t : Tokens} {pair : Deferred} :
    pair ∈ deferred (chunk.addresses.zipIdx.map (decisionAt context chunk t)) ↔
      pair ∈ chunk.pairs ∧ IsDeferred context chunk.invalid t pair := by
  rw [mem_deferred, List.mem_map, Chunk.pairs, List.mem_filterMap]
  constructor
  · rintro ⟨p, hp, hdecision⟩
    cases hpair' : chunk.pairAt p with
    | none =>
      rw [decisionAt, hpair'] at hdecision
      cases hdecision
    | some pair' =>
      rw [decisionAt_of_pair hpair'] at hdecision
      obtain ⟨rfl, hdeferred⟩ := decisionOf_defer.mp hdecision
      exact ⟨⟨p, hp, hpair'⟩, hdeferred⟩
  · rintro ⟨⟨p, hp, hpair⟩, hdeferred⟩
    exact ⟨p, hp, (decisionAt_of_pair hpair).trans (decisionOf_defer.mpr ⟨rfl, hdeferred⟩)⟩

/-- The decisions of the first pass, as they are taken on a table. -/
theorem decisions_run (hreadable : chunk.Readable) (s : Session (Db Tokens) LoggerData) :
    ∃ decisions,
      Eff.mapEach chunk.addresses.zipIdx
          (firstPass context .none chunk.infos chunk.composed chunk.invalid) s =
        (.ok decisions, s) ∧
      pushed decisions =
        chunk.pairs.filterMap (firstRow context chunk.invalid s.view.tables) ∧
      ∀ pair, pair ∈ deferred decisions ↔
        pair ∈ chunk.pairs ∧ IsDeferred context chunk.invalid s.view.tables pair := by
  refine ⟨chunk.addresses.zipIdx.map (decisionAt context chunk s.view.tables),
    Eff.mapEach_of_ok fun p hp => ?_, pushed_decisionAt _, fun _ => mem_deferred_decisionAt⟩
  obtain ⟨pair, hpair⟩ := pairAt_isSome hreadable hp
  rw [firstPass_run hpair, decisionAt_of_pair hpair]

/-- The first pass over a position leaves the session as it was. -/
theorem firstPass_reads (infos : List InfoEntry) (composed : List PairInfo) (invalid : List String)
    (p : String × Nat) (s : Session (Db Tokens) LoggerData) :
    firstPass context .none infos composed invalid p s =
      ((firstPass context .none infos composed invalid p s).1, s) := by
  have hinfo : infoAt infos p.2 s = ((infoAt infos p.2 s).1, s) := by
    unfold infoAt
    cases infos[p.2]? with
    | none => rfl
    | some entry => rfl
  cases hread : (infoAt infos p.2 s).1 with
  | error e => rw [firstPass, Eff.bind_of_error (hinfo.trans (by rw [hread]))]
  | ok info =>
    rw [firstPass, Eff.bind_of_ok (hinfo.trans (by rw [hread]))]
    cases composedOf composed p.1 with
    | none => rfl
    | some found =>
      dsimp only
      split
      · rfl
      · rfl

/-- An info that cannot be read makes the call throw. -/
theorem createMultiTokens_unreadable (hunreadable : ¬ chunk.Readable)
    (s : Session (Db Tokens) LoggerData) :
    ∃ e, createMultiTokens context .none chunk.addresses chunk.infos chunk.composed
      chunk.invalid s = (.error e, s) := by
  obtain ⟨entry, hmem, hentry⟩ : ∃ entry ∈ chunk.infos, ¬ ∃ info, entry = .ok info := by
    simpa only [Chunk.Readable, not_forall, exists_prop] using hunreadable
  obtain ⟨i, hi, rfl⟩ := List.getElem_of_mem hmem
  have hbound : i < chunk.addresses.length := chunk.infos_length ▸ hi
  have hposition : (chunk.addresses[i], i) ∈ chunk.addresses.zipIdx :=
    List.mk_mem_zipIdx_iff_getElem?.mpr (List.getElem?_eq_getElem hbound)
  cases hthrown : chunk.infos[i] with
  | ok info => exact absurd ⟨info, hthrown⟩ hentry
  | error e =>
    have hread : infoAt chunk.infos i s = (.error e, s) := by
      simp only [infoAt, List.getElem?_eq_getElem hi, hthrown, Eff.await]
    have hfirst : (firstPass context .none chunk.infos chunk.composed chunk.invalid
        (chunk.addresses[i], i) s).1 = .error e := by
      rw [firstPass, Eff.bind_of_error hread]
    obtain ⟨e', hdecisions⟩ := Eff.mapEach_of_error
      (fun p _ => firstPass_reads chunk.infos chunk.composed chunk.invalid p s) hposition hfirst
    exact ⟨e', Eff.bind_of_error hdecisions⟩

theorem pushed_written {decisions : List Decision} {t : Tokens}
    (h : pushed decisions = chunk.pairs.filterMap (firstRow context chunk.invalid t)) :
    ∀ r ∈ pushed decisions, r.address ≠ "" := by
  intro r hr
  rw [h] at hr
  obtain ⟨pair, hpair, hrow⟩ := List.mem_filterMap.mp hr
  obtain ⟨_, token0, token1, _, _, _, _, rfl⟩ := firstRow_some.mp hrow
  exact written_of_mem hpair

/-- The row that the second pass makes of a pair, if any. -/
def madeRow (context : Context) (t : Tokens) (pair : Deferred) : Option TokenRow :=
  match secondRow context t pair with
  | .ok row => row
  | .error _ => none

theorem madeRow_of_ok {t : Tokens} {pair : Deferred} {row : Option TokenRow}
    (h : secondRow context t pair = .ok row) : madeRow context t pair = row := by
  rw [madeRow, h]

/-- The rows that the second pass makes of some pairs. -/
def madeRows (context : Context) (t : Tokens) (pairs : List Deferred) : List TokenRow :=
  (pairs.zipIdx.map fun p => madeRow context t p.1).filterMap id

theorem mem_madeRows {t : Tokens} {pairs : List Deferred} {row : TokenRow} :
    row ∈ madeRows context t pairs ↔ ∃ pair ∈ pairs, madeRow context t pair = some row := by
  simp only [madeRows, List.mem_filterMap, List.mem_map, id_eq]
  constructor
  · rintro ⟨_, ⟨p, hp, rfl⟩, hrow⟩
    exact ⟨p.1, List.fst_mem_of_mem_zipIdx hp, hrow⟩
  · rintro ⟨pair, hpair, hrow⟩
    obtain ⟨i, hi, hget⟩ := List.getElem_of_mem hpair
    have hzip : (pair, i) ∈ pairs.zipIdx :=
      List.mk_mem_zipIdx_iff_getElem?.mpr (List.getElem?_eq_some_iff.mpr ⟨hi, hget⟩)
    exact ⟨_, ⟨(pair, i), hzip, rfl⟩, hrow⟩

/-- The second pass over pairs that do not make it fail. -/
theorem secondPass_each {s : Session (Db Tokens) LoggerData} {pairs : List Deferred}
    (h : ∀ pair ∈ pairs, ∃ row, secondRow context s.view.tables pair = .ok row) :
    Eff.mapEach pairs.zipIdx (secondPass context .none) s =
      (.ok (pairs.zipIdx.map fun p => madeRow context s.view.tables p.1), s) := by
  refine Eff.mapEach_of_ok fun p hp => ?_
  obtain ⟨row, hrow⟩ := h p.1 (List.fst_mem_of_mem_zipIdx hp)
  rw [secondPass_run, madeRow_of_ok hrow, hrow]

/-- The call on a table, when no deferred pair makes the second pass fail. -/
theorem createMultiTokens_ok {s : Session (Db Tokens) LoggerData} (hreadable : chunk.Readable)
    (hactive : s.isTransactionActive = true)
    (hrows : ∀ pair ∈ chunk.pairs, IsDeferred context chunk.invalid s.view.tables pair →
      ∃ row, secondRow context (afterFirst context chunk.invalid s.view.tables chunk.pairs) pair =
        .ok row) :
    ∃ s' later, createMultiTokens context .none chunk.addresses chunk.infos chunk.composed
        chunk.invalid s = (.ok (), s') ∧
      s'.view.tables =
        (afterFirst context chunk.invalid s.view.tables chunk.pairs).insertAll later ∧
      ∀ pair ∈ chunk.pairs, IsDeferred context chunk.invalid s.view.tables pair → ∀ row,
        secondRow context (afterFirst context chunk.invalid s.view.tables chunk.pairs) pair =
          .ok (some row) → row.kept ∈ later := by
  obtain ⟨decisions, hdecisions, hpushed, hdeferred⟩ := decisions_run hreadable s
  obtain ⟨s₁, hfirst, hactive₁, htable₁⟩ :=
    createTokensIfNotExist_run 1 hactive (pushed_written hpushed)
  rw [hpushed] at htable₁
  have htable₁ : s₁.view.tables = afterFirst context chunk.invalid s.view.tables chunk.pairs :=
    htable₁
  rw [← htable₁] at hrows ⊢
  have hmade : ∀ pair ∈ deferred decisions,
      ∃ row, secondRow context s₁.view.tables pair = .ok row := by
    intro pair hpair
    obtain ⟨hmem, hleft⟩ := (hdeferred pair).mp hpair
    exact hrows pair hmem hleft
  have hwritten : ∀ r ∈ madeRows context s₁.view.tables (deferred decisions), r.address ≠ "" := by
    intro r hr
    obtain ⟨pair, hpair, hmadeRow⟩ := mem_madeRows.mp hr
    obtain ⟨row, hrow⟩ := hmade pair hpair
    rw [← madeRow_of_ok hrow, hmadeRow] at hrow
    obtain ⟨token0, token1, rfl⟩ := secondRow_some hrow
    exact written_of_mem ((hdeferred pair).mp hpair).1
  rw [createMultiTokens, Eff.bind_of_ok hdecisions, Eff.bind_of_ok hfirst]
  by_cases hany : (deferred decisions).length > 0
  · obtain ⟨s₂, hinsert, _, htable₂⟩ := createTokensIfNotExist_run 2 hactive₁ hwritten
    refine ⟨s₂, _, ?_, htable₂, fun pair hpair hleft row hrow => ?_⟩
    · rw [Eff.when, if_pos hany, Eff.bind_of_ok (secondPass_each hmade)]
      exact hinsert
    · exact List.mem_map_of_mem
        (mem_madeRows.mpr ⟨pair, (hdeferred pair).mpr ⟨hpair, hleft⟩, madeRow_of_ok hrow⟩)
  · refine ⟨s₁, [], ?_, rfl, fun pair hpair hleft _ _ => ?_⟩
    · rw [Eff.when, if_neg hany]
      rfl
    · have hin := (hdeferred pair).mpr ⟨hpair, hleft⟩
      exact absurd (List.length_pos_of_mem hin) hany

/-- A deferred pair that makes the second pass fail makes the call throw. -/
theorem createMultiTokens_error {s : Session (Db Tokens) LoggerData} (hreadable : chunk.Readable)
    (hactive : s.isTransactionActive = true) {pair : Deferred} (hpair : pair ∈ chunk.pairs)
    (hdefer : IsDeferred context chunk.invalid s.view.tables pair) {e : Thrown}
    (hfail : secondRow context (afterFirst context chunk.invalid s.view.tables chunk.pairs) pair =
      .error e) :
    ∃ e' s', createMultiTokens context .none chunk.addresses chunk.infos chunk.composed
      chunk.invalid s = (.error e', s') := by
  obtain ⟨decisions, hdecisions, hpushed, hdeferred⟩ := decisions_run hreadable s
  obtain ⟨s₁, hfirst, _, htable₁⟩ := createTokensIfNotExist_run 1 hactive (pushed_written hpushed)
  rw [hpushed] at htable₁
  have htable₁ : s₁.view.tables = afterFirst context chunk.invalid s.view.tables chunk.pairs :=
    htable₁
  have hin := (hdeferred pair).mpr ⟨hpair, hdefer⟩
  obtain ⟨i, hi, hget⟩ := List.getElem_of_mem hin
  have hzip : (pair, i) ∈ (deferred decisions).zipIdx :=
    List.mk_mem_zipIdx_iff_getElem?.mpr (List.getElem?_eq_some_iff.mpr ⟨hi, hget⟩)
  rw [← htable₁] at hfail
  obtain ⟨e', hsecond⟩ := Eff.mapEach_of_error (r := fun p => secondRow context s₁.view.tables p.1)
    (fun p _ => secondPass_run p s₁) hzip hfail
  refine ⟨e', s₁, ?_⟩
  rw [createMultiTokens, Eff.bind_of_ok hdecisions, Eff.bind_of_ok hfirst, Eff.when,
    if_pos (List.length_pos_of_mem hin), Eff.bind_of_error hsecond]

end BlockchainTask.SchedulerJob.MultiTokens

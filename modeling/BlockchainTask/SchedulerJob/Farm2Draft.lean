import BlockchainTask.SchedulerJob.Farm2
import BlockchainTask.SchedulerJob.FarmDraft

/-! # When a SmartChef's turn writes

The transaction of a SmartChef follows a program on the row of its farm, and
what that program does is decided by the row and by the answers it gets: it
writes when it registers a farm or refreshes an active one. -/
namespace BlockchainTask.SchedulerJob.Farm2Draft
open BlockchainTask.Common.Exception BlockchainTask.Helper
open BlockchainTask.Library.Effect BlockchainTask.Library.Transaction BlockchainTask.Library.Store
open BlockchainTask.Library.Simulation
open BlockchainTask.Repository.Farm BlockchainTask.SchedulerJob.Base
open BlockchainTask.SchedulerJob.FarmTemplate BlockchainTask.SchedulerJob.FarmDraft
open BlockchainTask.SchedulerJob.Farm2

variable (env : Farm2.Env) (currentBlockNumber : ℕ)

/-! ## The turn of a SmartChef, on its own row -/

def registerDraft (pid : ℕ) (farmInfo : SmartChef) : DraftEff Bool := do
  .mayFail (env.faults pid).findStakeToken
  .mayFail (env.faults pid).findRewardToken
  match findToken env.tokens env.context.chainId farmInfo.stakeToken,
      findToken env.tokens env.context.chainId farmInfo.earnToken with
  | some stakeToken, some rewardToken =>
    Draft.createFarm (env.faults pid).createFarm farmInfo.id
      (Farm2.newFarm env pid farmInfo stakeToken rewardToken)
    pure true
  | _, _ => pure false

def refreshDraft (pid : ℕ) (farmInfo : SmartChef) : DraftEff Unit := do
  match ← Draft.findFarm (env.faults pid).findFarmAgain env.context.farm2Name with
  | none => .throw typeError
  | some row =>
    if !row.status then pure ()
    else
      match (relation env.tokens row.stake_tokens).head? with
      | none => .throw typeError
      | some targetStakeToken =>
        let amount ← .await (env.getSafeERC20BalanceOf pid targetStakeToken.address farmInfo.id)
        match (relation env.tokens row.reward_tokens).head? with
        | none => .throw typeError
        | some targetRewardToken =>
          Draft.updateFarm (env.faults pid).refreshFarm
            (Farm2.refreshed env farmInfo.reward targetStakeToken targetRewardToken amount)

def registerAndRefreshDraft (pid : ℕ) (farmInfo : SmartChef) (row : Option FarmRow) :
    DraftEff Unit := do
  let initialized ← (if row.isNone then registerDraft env pid farmInfo else pure true)
  .when initialized (refreshDraft env pid farmInfo)

/-- The turn of a SmartChef that is still running. -/
def liveDraft (pid : ℕ) (farmInfo : SmartChef) : DraftEff Unit := do
  let row ← Draft.findFarm (env.faults pid).findFarm env.context.farm2Name
  .mayFail (env.faults pid).connect
  .mayFail (env.faults pid).startTransaction
  registerAndRefreshDraft env pid farmInfo row

/-- The turn of one that has ended. -/
def endedDraft (pid : ℕ) : DraftEff Unit := do
  let row ← Draft.findFarm (env.faults pid).findFarm env.context.farm2Name
  match row with
  | some _ => Draft.updateFarm (env.faults pid).disableFarm .disabled
  | none => pure ()

section
variable (d : Db Farms) (pid : ℕ) (farmInfo : SmartChef)

theorem simulates_registerFarm :
    Simulates d (Follows d (env.context.farmWhere pid farmInfo))
      (Farm2.registerFarm env pid farmInfo)
      (registerDraft env pid farmInfo)
      (fun q b x y => Follows d (env.context.farmWhere pid farmInfo) q b ∧ y = x) := by
  refine Simulates.bind (Simulates.mayFail _) fun _ _ => ?_
  refine Simulates.bind (Simulates.mayFail _) fun _ _ => ?_
  rcases findToken env.tokens env.context.chainId farmInfo.stakeToken with _ | stakeToken
  · exact Simulates.pure fun _ _ h => ⟨h, rfl⟩
  · rcases findToken env.tokens env.context.chainId farmInfo.earnToken with _ | rewardToken
    · exact Simulates.pure fun _ _ h => ⟨h, rfl⟩
    · refine Simulates.bind ?_ fun _ _ => Simulates.pure fun _ _ h => ⟨h, rfl⟩
      exact simulates_createFarm d (env.context.farmWhere pid farmInfo) _ _ _ _

theorem simulates_refreshFarm :
    Simulates d (Follows d (env.context.farmWhere pid farmInfo))
      (Farm2.refreshFarm env pid farmInfo)
      (refreshDraft env pid farmInfo)
      (fun q b _ _ => Follows d (env.context.farmWhere pid farmInfo) q b) := by
  refine Simulates.bind (simulates_findFarm d (env.context.farmWhere pid farmInfo) _)
    fun found row => Simulates.assuming fun hrow => ?_
  subst hrow
  cases found with
  | none => exact Simulates.throw _
  | some farm =>
    refine Simulates.ite (fun _ => Simulates.pure fun _ _ h => h.1) fun _ => ?_
    cases (relation env.tokens farm.row.stake_tokens).head? with
    | none => exact Simulates.throw _
    | some targetStakeToken =>
      refine Simulates.bindSame (Simulates.await _) fun amount => ?_
      cases (relation env.tokens farm.row.reward_tokens).head? with
      | none => exact Simulates.throw _
      | some targetRewardToken =>
        exact simulates_refresh d (env.context.farmWhere pid farmInfo) _ farm _ _ _

theorem simulates_registerAndRefresh (farm : Option (Stored FarmRow)) :
    Simulates d (Follows d (env.context.farmWhere pid farmInfo))
      (Farm2.registerAndRefresh env pid farmInfo farm)
      (registerAndRefreshDraft env pid farmInfo (farm.map Stored.row))
      (fun q b _ _ => Follows d (env.context.farmWhere pid farmInfo) q b) :=
  FarmDraft.simulates_registerAndRefresh farm (simulates_registerFarm env d pid farmInfo)
    (simulates_refreshFarm env d pid farmInfo)

end

/-! ## When it writes -/

/-- The refresh of a row gets to its update and through it. -/
structure Refreshes (pid : ℕ) (farmInfo : SmartChef) (row : FarmRow) : Prop where
  found : (env.faults pid).findFarmAgain = none
  active : row.status = true
  staked : ∃ token amount, (relation env.tokens row.stake_tokens).head? = some token ∧
    env.getSafeERC20BalanceOf pid token.address farmInfo.id = .ok amount
  rewarded : ∃ token, (relation env.tokens row.reward_tokens).head? = some token
  updated : (env.faults pid).refreshFarm = none

/-- The registration of a farm, where the key has no row, gets through. -/
structure Registers (pid : ℕ) (farmInfo : SmartChef) (row : Option FarmRow) (new : FarmRow) :
    Prop where
  searched : (env.faults pid).findStakeToken = none ∧ (env.faults pid).findRewardToken = none
  known : ∃ stakeToken rewardToken,
    findToken env.tokens env.context.chainId farmInfo.stakeToken = some stakeToken ∧
    findToken env.tokens env.context.chainId farmInfo.earnToken = some rewardToken ∧
    new = Farm2.newFarm env pid farmInfo stakeToken rewardToken
  accepted : newRefused farmInfo.id row = none
  created : (env.faults pid).createFarm = none

/-- One of the tokens is not known, and so the SmartChef is left out. -/
structure LeftOut (pid : ℕ) (farmInfo : SmartChef) : Prop where
  searched : (env.faults pid).findStakeToken = none ∧ (env.faults pid).findRewardToken = none
  unknown : findToken env.tokens env.context.chainId farmInfo.stakeToken = none ∨
    findToken env.tokens env.context.chainId farmInfo.earnToken = none

/-- The turn of a running SmartChef ends with its transaction open and nothing
written in it: the farm that is there is not active, or there is none and the
SmartChef is left out. -/
structure LeavesOpen (pid : ℕ) (farmInfo : SmartChef) (row : Option FarmRow) : Prop where
  searched : (env.faults pid).findFarm = none
  opened : (env.faults pid).connect = none ∧ (env.faults pid).startTransaction = none
  kept : (∃ r, found env.context.farm2Name row = some r ∧ (env.faults pid).findFarmAgain = none ∧
      r.status = false) ∨
    (found env.context.farm2Name row = none ∧ LeftOut env pid farmInfo)

/-- The turn of a running SmartChef ends with something written: it refreshes the
farm that is there, if it is active, or registers and refreshes a new one. -/
structure Writes (pid : ℕ) (farmInfo : SmartChef) (row : Option FarmRow) : Prop where
  searched : (env.faults pid).findFarm = none
  opened : (env.faults pid).connect = none ∧ (env.faults pid).startTransaction = none
  written : (∃ r, found env.context.farm2Name row = some r ∧ Refreshes env pid farmInfo r) ∨
    (found env.context.farm2Name row = none ∧
      ∃ new, Registers env pid farmInfo row new ∧ Refreshes env pid farmInfo new)

section
variable {env} {pid : ℕ} {farmInfo : SmartChef}

theorem LeftOut.not_registers {row : Option FarmRow} {new : FarmRow}
    (h : LeftOut env pid farmInfo) : ¬ Registers env pid farmInfo row new := by
  intro hregisters
  obtain ⟨stakeToken, rewardToken, hstake, hreward, _⟩ := hregisters.known
  rcases h.unknown with hnone | hnone
  · rw [hstake] at hnone
    cases hnone
  · rw [hreward] at hnone
    cases hnone

/-- A refresh that returns has written, or its row is not active. -/
theorem wp_refreshDraft (draft : Draft) {r : FarmRow}
    (hfound : found env.context.farm2Name draft.row = some r) :
    Eff.wp (refreshDraft env pid farmInfo)
      (fun _ draft' => (Refreshes env pid farmInfo r ∧ draft'.written = true) ∨
        (((env.faults pid).findFarmAgain = none ∧ r.status = false) ∧ draft' = draft))
      (fun _ _ => ¬ Refreshes env pid farmInfo r) draft := by
  simp only [refreshDraft, Draft.findFarm, Eff.wp_bind, Eff.wp_mayFail, Eff.wp_read, hfound]
  refine ⟨fun hagain => ?_, fun e hagain hcan => ?_⟩
  rotate_left
  · rw [hcan.found] at hagain
    cases hagain
  rw [Eff.wp_ite]
  refine ⟨fun hidle => Or.inr ⟨⟨hagain, by simpa using hidle⟩, rfl⟩, fun hactive => ?_⟩
  cases hstake : (relation env.tokens r.stake_tokens).head? with
  | none =>
    intro hcan
    obtain ⟨token, amount, hhead, _⟩ := hcan.staked
    rw [hstake] at hhead
    cases hhead
  | some targetStakeToken =>
    simp only [Eff.wp_bind]
    rw [Eff.wp_await]
    refine ⟨fun amount hamount => ?_, fun e hamount hcan => ?_⟩
    rotate_left
    · obtain ⟨token, amount, hhead, hanswer⟩ := hcan.staked
      rw [hstake] at hhead
      rw [← Option.some.inj hhead, hamount] at hanswer
      cases hanswer
    cases hreward : (relation env.tokens r.reward_tokens).head? with
    | none =>
      intro hcan
      obtain ⟨token, hhead⟩ := hcan.rewarded
      rw [hreward] at hhead
      cases hhead
    | some targetRewardToken =>
      simp only [Draft.updateFarm, Eff.wp_bind, Eff.wp_mayFail, Eff.wp_update]
      refine ⟨fun hupdate => Or.inl ⟨?_, trivial⟩, fun e hupdate hcan => ?_⟩
      · exact ⟨hagain, by simpa using hactive, ⟨_, amount, hstake, hamount⟩, ⟨_, hreward⟩, hupdate⟩
      · rw [hcan.updated] at hupdate
        cases hupdate

/-- A registration that returns has inserted its row, or one of the tokens is not
known. -/
theorem wp_registerDraft (draft : Draft) :
    Eff.wp (registerDraft env pid farmInfo)
      (fun initialized draft' =>
        (initialized = true ∧ ∃ new, Registers env pid farmInfo draft.row new ∧
          draft' = ⟨some new, true⟩) ∨
        (initialized = false ∧ draft' = draft ∧ LeftOut env pid farmInfo))
      (fun _ _ => ∀ new, ¬ Registers env pid farmInfo draft.row new) draft := by
  simp only [registerDraft, Eff.wp_bind, Eff.wp_mayFail]
  refine ⟨fun hsearch => ⟨fun hsearch' => ?_, fun e hfail new h => ?_⟩, fun e hfail new h => ?_⟩
  rotate_left
  · rw [h.searched.2] at hfail
    cases hfail
  · rw [h.searched.1] at hfail
    cases hfail
  rcases hstake : findToken env.tokens env.context.chainId farmInfo.stakeToken with _ | stakeToken
  · exact Or.inr ⟨rfl, rfl, ⟨hsearch, hsearch'⟩, Or.inl hstake⟩
  rcases hreward : findToken env.tokens env.context.chainId farmInfo.earnToken with _ | rewardToken
  · exact Or.inr ⟨rfl, rfl, ⟨hsearch, hsearch'⟩, Or.inr hreward⟩
  simp only [Draft.createFarm, Eff.wp_bind, Eff.wp_mayFail, Eff.wp_read, Eff.wp_update, Eff.wp_pure,
    id_eq]
  refine ⟨fun hcreate => ⟨fun hfree => Or.inl ⟨trivial, _, ?_, rfl⟩, fun e hfail new h => ?_⟩,
    fun e hfail new h => ?_⟩
  · exact ⟨⟨hsearch, hsearch'⟩, ⟨stakeToken, rewardToken, hstake, hreward, rfl⟩, hfree, hcreate⟩
  · rw [h.accepted] at hfail
    cases hfail
  · rw [h.created] at hfail
    cases hfail

/-- The tokens of a registration are determined, and so is its row, which the
next search finds. -/
theorem Registers.eq {row : Option FarmRow} {new new' : FarmRow}
    (h : Registers env pid farmInfo row new) (h' : Registers env pid farmInfo row new') :
    new' = new := by
  obtain ⟨stakeToken, rewardToken, hstake, hreward, rfl⟩ := h.known
  obtain ⟨stakeToken', rewardToken', hstake', hreward', rfl⟩ := h'.known
  rw [hstake] at hstake'
  rw [hreward] at hreward'
  rw [Option.some.inj hstake', Option.some.inj hreward']

theorem Registers.search {row : Option FarmRow} {new : FarmRow}
    (h : Registers env pid farmInfo row new) :
    found env.context.farm2Name (some new) = some new ∧ new.status = true := by
  obtain ⟨stakeToken, rewardToken, _, _, rfl⟩ := h.known
  refine ⟨?_, rfl⟩
  exact Option.filter_some_pos (decide_eq_true rfl)

/-- The turn of a running SmartChef, once its transaction is open: it refreshes the farm
that is there, or registers one and refreshes that, or leaves it. -/
theorem wp_liveDraft_cases {row : Option FarmRow} {Q : Unit → Draft → Prop}
    {R : Thrown → Draft → Prop}
    (hthere : ∀ r, found env.context.farm2Name row = some r → (env.faults pid).findFarm = none →
      (env.faults pid).connect = none ∧ (env.faults pid).startTransaction = none →
      Eff.wp (refreshDraft env pid farmInfo) Q R (.start row))
    (hnew : ∀ new, found env.context.farm2Name row = none → Registers env pid farmInfo row new →
      (env.faults pid).findFarm = none →
      (env.faults pid).connect = none ∧ (env.faults pid).startTransaction = none →
      Eff.wp (refreshDraft env pid farmInfo) Q R ⟨some new, true⟩)
    (hleft : found env.context.farm2Name row = none → LeftOut env pid farmInfo →
      (env.faults pid).findFarm = none →
      (env.faults pid).connect = none ∧ (env.faults pid).startTransaction = none →
      Q () (.start row))
    (hfails : ∀ e draft, ¬ Writes env pid farmInfo row → R e draft) :
    Eff.wp (liveDraft env pid farmInfo) Q R (.start row) := by
  simp only [liveDraft, Draft.findFarm, Draft.start, Eff.wp_bind, Eff.wp_mayFail, Eff.wp_read]
  refine ⟨fun hsearch => ⟨fun hconnect => ⟨fun hstart => ?_, fun e hfail => hfails _ _ fun h => ?_⟩,
    fun e hfail => hfails _ _ fun h => ?_⟩, fun e hfail => hfails _ _ fun h => ?_⟩
  rotate_left
  · rw [h.opened.2] at hfail
    cases hfail
  · rw [h.opened.1] at hfail
    cases hfail
  · rw [h.searched] at hfail
    cases hfail
  simp only [registerAndRefreshDraft, Eff.wp_bind]
  cases hfound : found env.context.farm2Name row with
  | some r =>
    simp only [Option.isNone_some, Bool.false_eq_true, if_false, Eff.wp_pure, Eff.wp_when,
      not_true, false_implies, true_implies, and_true]
    exact hthere r hfound hsearch ⟨hconnect, hstart⟩
  | none =>
    simp only [Option.isNone_none, if_true]
    refine Eff.wp_mono (wp_registerDraft _) (fun initialized draft h => ?_)
      (fun e draft h => hfails e draft fun hw => ?_)
    rotate_left
    · rcases hw.written with ⟨r, hr, _⟩ | ⟨_, new, hregisters, _⟩
      · rw [hfound] at hr
        cases hr
      · exact h new hregisters
    rw [Eff.wp_when]
    rcases h with ⟨rfl, new, hregisters, rfl⟩ | ⟨rfl, rfl, hunknown⟩
    · exact ⟨fun _ => hnew new hfound hregisters hsearch ⟨hconnect, hstart⟩, fun h => absurd rfl h⟩
    · exact ⟨fun h => (by cases h), fun _ => hleft hfound hunknown hsearch ⟨hconnect, hstart⟩⟩

/-- The turn of a running SmartChef that returns has written exactly when it
could, and one that throws could not. -/
theorem wp_liveDraft (env : Farm2.Env) (pid : ℕ) (farmInfo : SmartChef) (row : Option FarmRow) :
    Eff.wp (liveDraft env pid farmInfo)
      (fun _ draft => draft.written = true ↔ Writes env pid farmInfo row)
      (fun _ _ => ¬ Writes env pid farmInfo row) (.start row) := by
  refine wp_liveDraft_cases (fun r hfound hsearch hopened => ?_)
    (fun new hfound hregisters hsearch hopened => ?_) (fun hfound hleftOut _ _ => ?_) fun _ _ h => h
  · have hwrites : Writes env pid farmInfo row → Refreshes env pid farmInfo r := by
      intro h
      rcases h.written with ⟨r', hr', hcan⟩ | ⟨hnone, _⟩
      · rw [hfound] at hr'
        rw [Option.some.inj hr']
        exact hcan
      · rw [hfound] at hnone
        cases hnone
    refine Eff.wp_mono (wp_refreshDraft _ hfound) (fun _ draft h => ?_)
      (fun _ _ h hw => h (hwrites hw))
    rcases h with ⟨hcan, hwritten⟩ | ⟨⟨_, hidle⟩, rfl⟩
    · exact ⟨fun _ => ⟨hsearch, hopened, Or.inl ⟨r, hfound, hcan⟩⟩, fun _ => hwritten⟩
    · refine ⟨fun h => (by cases h), fun hw => ?_⟩
      rw [(hwrites hw).active] at hidle
      cases hidle
  · obtain ⟨hagain, hactive⟩ := hregisters.search
    have hcan : Writes env pid farmInfo row → Refreshes env pid farmInfo new := by
      intro h
      rcases h.written with ⟨r, hr, _⟩ | ⟨_, new', hregisters', hcan'⟩
      · rw [hfound] at hr
        cases hr
      · rw [← hregisters.eq hregisters']
        exact hcan'
    refine Eff.wp_mono (wp_refreshDraft ⟨some new, true⟩ hagain) (fun _ draft' h => ?_)
      (fun _ _ h hw => h (hcan hw))
    rcases h with ⟨hdone, hwritten⟩ | ⟨⟨_, hidle⟩, _⟩
    · refine ⟨fun _ => ?_, fun _ => hwritten⟩
      exact ⟨hsearch, hopened, Or.inr ⟨hfound, new, hregisters, hdone⟩⟩
    · rw [hactive] at hidle
      cases hidle
  · refine ⟨fun h => (by cases h), fun hw => ?_⟩
    rcases hw.written with ⟨r, hr, _⟩ | ⟨_, new, hregisters, _⟩
    · rw [hfound] at hr
      cases hr
    · exact absurd hregisters hleftOut.not_registers

/-- One that returns without a statement leaves its transaction open. -/
theorem wp_liveDraft_open (env : Farm2.Env) (pid : ℕ) (farmInfo : SmartChef)
    (row : Option FarmRow) :
    Eff.wp (liveDraft env pid farmInfo)
      (fun _ draft => draft.written = true ∨ LeavesOpen env pid farmInfo row)
      (fun _ _ => True) (.start row) := by
  refine wp_liveDraft_cases (fun r hfound hsearch hopened => ?_)
    (fun new hfound hregisters hsearch hopened => ?_)
    (fun hfound hleftOut hsearch hopened =>
      Or.inr ⟨hsearch, hopened, Or.inr ⟨hfound, hleftOut⟩⟩) fun _ _ _ => trivial
  · refine Eff.wp_mono (wp_refreshDraft _ hfound) (fun _ draft h => ?_) fun _ _ _ => trivial
    rcases h with hdone | ⟨hidle, _⟩
    · exact Or.inl hdone.2
    · exact Or.inr ⟨hsearch, hopened, Or.inl ⟨r, hfound, hidle⟩⟩
  · obtain ⟨hagain, _⟩ := hregisters.search
    refine Eff.wp_mono (wp_refreshDraft ⟨some new, true⟩ hagain) (fun _ draft h => ?_)
      fun _ _ _ => trivial
    rcases h with hdone | ⟨_, rfl⟩
    · exact Or.inl hdone.2
    · exact Or.inl rfl

/-- And where it would leave it open it returns. -/
theorem LeavesOpen.returns {row : Option FarmRow} (h : LeavesOpen env pid farmInfo row) :
    liveDraft env pid farmInfo (.start row) = (.ok (), .start row) := by
  obtain ⟨hsearch, ⟨hconnect, hstart⟩, hkept⟩ := h
  rcases hkept with ⟨r, hfound, hagain, hidle⟩ | ⟨hnone, hleftOut⟩
  · have hrefresh : refreshDraft env pid farmInfo (.start row) = (.ok (), .start row) := by
      simp only [refreshDraft, hagain, Draft.findFarm_none, Draft.start_row, hfound, hidle,
        Bool.not_false, if_true]
      rfl
    simp only [liveDraft, registerAndRefreshDraft, hsearch, Draft.findFarm_none, Draft.start_row,
      hfound, hconnect, hstart]
    exact hrefresh
  · have hrefused : registerDraft env pid farmInfo (.start row) = (.ok false, .start row) := by
      simp only [registerDraft, Eff.bind_eq, Eff.mayFail, hleftOut.searched.1, hleftOut.searched.2]
      rcases hleftOut.unknown with hstake | hreward
      · rw [hstake]
        rfl
      · rw [hreward]
        cases findToken env.tokens env.context.chainId farmInfo.stakeToken <;> rfl
    simp only [liveDraft, registerAndRefreshDraft, Draft.findFarm, Eff.bind_eq, Eff.mayFail,
      Eff.read, Draft.start_row, hsearch, hconnect, hstart, hnone, Option.isNone_none, if_true,
      hrefused]
    rfl

end

end BlockchainTask.SchedulerJob.Farm2Draft

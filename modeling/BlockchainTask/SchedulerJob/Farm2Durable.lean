import BlockchainTask.SchedulerJob.Farm2Durability

/-! # Farm2 runs whose writes become durable

The job never commits what it writes for a SmartChef that is running. The runs
here are its runs where these writes become durable all the same: what is pending
when the try block of a pid has ended without an error takes effect before the
query runner is released. Such a run leaves in the row of each pid that it gets
to what the turn of the pid makes of it. -/
namespace BlockchainTask.SchedulerJob.Farm2Durable
open BlockchainTask.Common.Exception BlockchainTask.Helper
open BlockchainTask.Library.Effect BlockchainTask.Library.Transaction BlockchainTask.Library.Store
open BlockchainTask.Library.Simulation
open BlockchainTask.Repository.Farm BlockchainTask.SchedulerJob.Base
open BlockchainTask.SchedulerJob.FarmDraft
open BlockchainTask.SchedulerJob.Farm2 BlockchainTask.SchedulerJob.Farm2Draft
open BlockchainTask.SchedulerJob.Farm2Durability

section
variable (env : Farm2.Env) (currentBlockNumber : ℕ) (farmInfos : List (Option SmartChef))

/-- The pending statements, if there are any, take effect. -/
def becomeDurable : JobEff Farms Unit :=
  .update fun s => s.pending.elim s s.committed

/-- The try block of a pid, and what it wrote becomes durable. -/
def durableAttempt (pid : ℕ) : JobEff Farms Bool := do
  let go ← attempt env currentBlockNumber farmInfos pid
  becomeDurable
  pure go

/-- `turn`, with the durable try block. -/
def durableTurn (pid : ℕ) : JobEff Farms Bool := do
  noQueryRunner
  .tryFinally
    (.tryCatch (durableAttempt env currentBlockNumber farmInfos pid) fun e => do
      rollbackIfActive (env.faults pid).rollbackTransaction
      writeLog fun l => { l with failed := l.failed ++ [(pid, e)] }
      pure true)
    releaseIfHeld

/-- `run`, with the durable turns. -/
def durableRun : JobEff Farms Unit := do
  writeLog fun _ => .empty
  .tryCatch
    (do
      let currentBlockNumber ← .await env.getBlockNumber
      let networkPid ← .await env.networkPid
      writeLog fun l => { l with total := some networkPid }
      let pids := fillSequenceNumber networkPid 0
      let farmInfos ← .await (env.getFarm2Infos networkPid)
      .whileEach pids (durableTurn env currentBlockNumber farmInfos))
    fun e => .throw (errorHandler e)

/-- What the turn of a pid makes of its row, where its writes become durable. -/
def durableRow (pid : ℕ) (farmInfo : SmartChef) (row : Option FarmRow) : Option FarmRow :=
  match (if currentBlockNumber ≥ farmInfo.endBlock then endedDraft env pid
      else liveDraft env pid farmInfo) (.start row) with
  | (.ok _, draft) => draft.row
  | (.error _, _) => row

end

/-! ## A turn -/

section
variable {env : Farm2.Env} {currentBlockNumber pid : ℕ} {farmInfo : SmartChef}
  {farmInfos : List (Option SmartChef)} {s : Session (Db Farms) LoggerData}

/-- A turn that throws leaves its row as it was. -/
theorem durableRow_of_throws {row : Option FarmRow} {e : Thrown}
    (h : ((if currentBlockNumber ≥ farmInfo.endBlock then endedDraft env pid
      else liveDraft env pid farmInfo) (.start row)).1 = .error e) :
    durableRow env currentBlockNumber pid farmInfo row = row := by
  unfold durableRow
  generalize (if currentBlockNumber ≥ farmInfo.endBlock then endedDraft env pid
    else liveDraft env pid farmInfo) (.start row) = outcome at h ⊢
  obtain ⟨result, draft⟩ := outcome
  cases h
  rfl

theorem wp_becomeDurable {s : Session (Db Farms) LoggerData}
    {Q : Unit → Session (Db Farms) LoggerData → Prop}
    {R : Thrown → Session (Db Farms) LoggerData → Prop}
    (h : ∀ t : Session (Db Farms) LoggerData, t.db = s.view → Q () t) :
    Eff.wp becomeDurable Q R s := by
  refine h _ ?_
  show (s.pending.elim s s.committed).db = s.view
  rcases Option.eq_none_or_eq_some s.pending with hnone | ⟨p, hp⟩
  · simp only [Session.view, hnone, Option.elim]
  · simp only [Session.view, hp, Option.elim, Session.committed_db]

/-- A turn that ended its try block leaves its own row as the turn makes it. -/
theorem wp_smartChef_view (env : Farm2.Env) (currentBlockNumber pid : ℕ) (farmInfo : SmartChef)
    {s : Session (Db Farms) LoggerData} (hs : s.runner = none) :
    Eff.wp (smartChef env currentBlockNumber pid farmInfo)
      (fun _ t => RowAt (env.context.farmWhere pid farmInfo).key
        (durableRow env currentBlockNumber pid farmInfo (rowOf env pid farmInfo s.db)) s.db t.view)
      (fun _ _ => durableRow env currentBlockNumber pid farmInfo (rowOf env pid farmInfo s.db) =
        rowOf env pid farmInfo s.db) s := by
  by_cases hended : currentBlockNumber ≥ farmInfo.endBlock
  · refine Eff.wp_mono (Eff.wp_and (settles_smartChef_ended hended) (wp_smartChef_ended hended))
      (fun _ t ht => ?_) (fun e t ht => ?_)
    · obtain ⟨⟨_, draft, hdraft, hrow⟩, hrunner⟩ := ht
      have hafter : durableRow env currentBlockNumber pid farmInfo (rowOf env pid farmInfo s.db) =
          draft.row := by
        rw [durableRow, if_pos hended, rowOf, hdraft]
      have hview : t.view = t.db := by
        rw [Session.view, Session.pending, hrunner, hs]
        rfl
      rw [hafter, hview]
      exact hrow
    · obtain ⟨⟨_, _, hthrow⟩, _⟩ := ht
      refine durableRow_of_throws (e := e) ?_
      rw [if_pos hended]
      exact hthrow
  · refine Eff.wp_mono (wp_smartChef_live (Nat.lt_of_not_le hended) hs) (fun _ t ht => ?_)
      (fun e t ht => ?_)
    · obtain ⟨hdb, p, draft, hp, hdraft, hfollows⟩ := ht
      have hafter : durableRow env currentBlockNumber pid farmInfo (rowOf env pid farmInfo s.db) =
          draft.row := by
        rw [durableRow, if_neg hended, hdraft]
      rw [hafter, Session.view_of_pending hp, hdb]
      exact hfollows.rowAt
    · obtain ⟨_, hthrow, _⟩ := ht
      refine durableRow_of_throws (e := e) ?_
      rw [if_neg hended]
      exact hthrow

/-- The row is what the step of the SmartChef makes of it, as its own query runner sees
it. -/
theorem durableRow_eq_effect (env : Farm2.Env) (currentBlockNumber : ℕ) (db : Db Farms) (pid : ℕ)
    (farmInfo : SmartChef) :
    durableRow env currentBlockNumber pid farmInfo (rowOf env pid farmInfo db) =
      effect env currentBlockNumber db pid farmInfo := by
  have hwp := Eff.wp_iff.mp
    (wp_smartChef_view env currentBlockNumber pid farmInfo (s := startSession db) rfl)
  unfold effect
  generalize smartChef env currentBlockNumber pid farmInfo (startSession db) = outcome at hwp ⊢
  obtain ⟨result, t⟩ := outcome
  cases result with
  | ok a => exact (hwp.1 a t rfl).tables.own.symm
  | error e => exact hwp.2 e t rfl

theorem wp_durableTurn_missing (env : Farm2.Env) (currentBlockNumber : ℕ)
    (s : Session (Db Farms) LoggerData) (hentry : entry farmInfos pid = none) :
    Eff.wp (durableTurn env currentBlockNumber farmInfos pid)
      (fun go t => go = false ∧ t.db = s.db) (fun _ _ => False) s := by
  simp only [durableTurn, durableAttempt, attempt, hentry, noQueryRunner, Eff.wp_bind, Eff.wp_update,
    Eff.wp_tryFinally, Eff.wp_tryCatch, Eff.wp_pure]
  refine wp_becomeDurable fun t ht => ?_
  exact Eff.wp_mono wp_releaseIfHeld (fun _ u hu => ⟨trivial, hu.1.trans ht⟩) (fun _ _ h => h)

/-- The durable turn stops where the job's turn stops, and otherwise leaves its own row
as the turn makes it. -/
theorem wp_durableTurn (env : Farm2.Env) (currentBlockNumber : ℕ)
    (s : Session (Db Farms) LoggerData) (hentry : entry farmInfos pid = some farmInfo) :
    Eff.wp (durableTurn env currentBlockNumber farmInfos pid)
      (fun go t => go = true ∧
        ¬ Stuck env currentBlockNumber pid farmInfo (rowOf env pid farmInfo s.db) ∧
        RowAt (env.context.farmWhere pid farmInfo).key
          (durableRow env currentBlockNumber pid farmInfo (rowOf env pid farmInfo s.db)) s.db t.db)
      (fun _ t => Stuck env currentBlockNumber pid farmInfo (rowOf env pid farmInfo s.db) ∧
        t.db = s.db) s := by
  rw [durableTurn, Eff.wp_bind]
  refine wp_recordedStep
    (f := fun e (l : LoggerData) => { l with failed := l.failed ++ [(pid, e)] })
    (P := fun go db _ => go = true ∧
      ¬ Stuck env currentBlockNumber pid farmInfo (rowOf env pid farmInfo s.db) ∧
      RowAt (env.context.farmWhere pid farmInfo).key
        (durableRow env currentBlockNumber pid farmInfo (rowOf env pid farmInfo s.db)) s.db db)
    (F := fun db _ => Stuck env currentBlockNumber pid farmInfo (rowOf env pid farmInfo s.db) ∧
      db = s.db)
    (fun _ _ => rfl) ?_
  simp only [durableAttempt, attempt, hentry]
  rw [Eff.wp_bind, Eff.wp_bind]
  refine Eff.wp_mono (Eff.wp_and
    (wp_smartChef env currentBlockNumber pid farmInfo (s := { s with runner := none }) rfl)
    (wp_smartChef_view env currentBlockNumber pid farmInfo rfl)) (fun _ t ht => ?_) (fun e t ht => ?_)
  · obtain ⟨hreturned, hrow⟩ := ht
    rw [Eff.wp_pure, Eff.wp_bind]
    refine wp_becomeDurable fun u hu => ?_
    rw [Eff.wp_pure, hu]
    exact ⟨rfl, hreturned.free, hrow⟩
  · obtain ⟨hfailed, hkept⟩ := ht
    have hdb : t.db = s.db := hfailed.db
    have hkept : durableRow env currentBlockNumber pid farmInfo (rowOf env pid farmInfo s.db) =
        rowOf env pid farmInfo s.db := hkept
    refine ⟨fun hfree => ⟨trivial, fun h => hfree (hfailed.stuck.mp h), ?_⟩,
      fun hactive => ⟨hfailed.stuck.mpr hactive, hdb⟩⟩
    rw [hkept, hdb]
    exact RowAt.refl _ s.db

end

/-! ## The turns of a run -/

section
variable (env : Farm2.Env) (currentBlockNumber : ℕ) (farmInfos : List (Option SmartChef))

/-- The loop over the pids from `first` on gets to a pid. -/
def Gets (first : ℕ) (db : Db Farms) (pid : ℕ) : Prop :=
  ∀ q, first ≤ q → q < pid → ¬ Stops env currentBlockNumber farmInfos db q

/-- What a loop over the `count` pids from `first` on leaves: in the row of each pid
that it gets to what its turn makes of it, and all other rows as they were. -/
structure Leaves (first count : ℕ) (d d' : Db Farms) : Prop where
  own : ∀ pid, first ≤ pid → pid < first + count → ∀ farmInfo,
    entry farmInfos pid = some farmInfo → Gets env currentBlockNumber farmInfos first d pid →
    rowOf env pid farmInfo d' =
      durableRow env currentBlockNumber pid farmInfo (rowOf env pid farmInfo d)
  left : ∀ pid farmInfo, entry farmInfos pid = some farmInfo →
    ¬ Gets env currentBlockNumber farmInfos first d pid →
    rowOf env pid farmInfo d' = rowOf env pid farmInfo d
  others : ∀ key, (∀ pid, first ≤ pid → pid < first + count → ∀ farmInfo,
    entry farmInfos pid = some farmInfo → key ≠ (env.context.farmWhere pid farmInfo).key) →
    d'.tables.content key = d.tables.content key

variable {env currentBlockNumber farmInfos} {first count : ℕ} {d d' : Db Farms}

theorem durableRow_stuck {pid : ℕ} {farmInfo : SmartChef} {row : Option FarmRow}
    (h : Stuck env currentBlockNumber pid farmInfo row) :
    durableRow env currentBlockNumber pid farmInfo row = row := by
  obtain ⟨e, hthrow⟩ := h.throws
  refine durableRow_of_throws (e := e) ?_
  rw [if_neg (Nat.not_le.mpr h.live)]
  exact hthrow

/-- A loop that its first pid stops. -/
theorem leaves_of_stops (h : Stops env currentBlockNumber farmInfos d first) :
    Leaves env currentBlockNumber farmInfos first count d d where
  own pid hfirst hpid farmInfo hentry hgets := by
    rcases Nat.eq_or_lt_of_le hfirst with rfl | hlt
    · exact (durableRow_stuck (h.stuckOf hentry)).symm
    · exact absurd h (hgets first (Nat.le_refl _) hlt)
  left _ _ _ _ := rfl
  others _ _ := rfl

theorem leaves_nil (d : Db Farms) : Leaves env currentBlockNumber farmInfos first 0 d d where
  own pid hfirst hpid := by omega
  left _ _ _ _ := rfl
  others _ _ := rfl

/-- A loop whose first turn goes on. -/
theorem Leaves.cons {farmInfo : SmartChef} {e : Db Farms}
    (hentry : entry farmInfos first = some farmInfo)
    (hstuck : ¬ Stuck env currentBlockNumber first farmInfo (rowOf env first farmInfo d))
    (hrow : RowAt (env.context.farmWhere first farmInfo).key
      (durableRow env currentBlockNumber first farmInfo (rowOf env first farmInfo d)) d e)
    (h : Leaves env currentBlockNumber farmInfos (first + 1) count e d') :
    Leaves env currentBlockNumber farmInfos first (count + 1) d d' := by
  -- no other pid has the row of the first one
  have hother : ∀ pid farmInfo', pid ≠ first → rowOf env pid farmInfo' e = rowOf env pid farmInfo' d :=
    fun pid farmInfo' hne => hrow.tables.others _ fun hkey => hne (farmKey_inj hkey)
  have hgoes : ¬ Stops env currentBlockNumber farmInfos d first :=
    fun hstops => hstuck (hstops.stuckOf hentry)
  have hgets : ∀ pid, Gets env currentBlockNumber farmInfos first d pid ↔
      Gets env currentBlockNumber farmInfos (first + 1) e pid := by
    intro pid
    have hstops : ∀ q, q ≠ first → (Stops env currentBlockNumber farmInfos e q ↔
        Stops env currentBlockNumber farmInfos d q) :=
      fun q hne => Stops.congr fun farmInfo' _ => hother q farmInfo' hne
    constructor
    · intro hd q hq hlt hstop
      exact hd q (by omega) hlt ((hstops q (by omega)).mp hstop)
    · intro he q hq hlt hstop
      rcases Nat.eq_or_lt_of_le hq with rfl | hfirst
      · exact hgoes hstop
      · exact he q hfirst hlt ((hstops q (by omega)).mpr hstop)
  refine ⟨fun pid hfirst hpid farmInfo' hentry' hd => ?_, fun pid farmInfo' hentry' hd => ?_,
    fun key hkey => ?_⟩
  · rcases Nat.eq_or_lt_of_le hfirst with rfl | hlt
    · rw [hentry] at hentry'
      cases hentry'
      refine (h.others _ fun pid' hpid' _ farmInfo'' _ hkey => ?_).trans hrow.tables.own
      have := farmKey_inj hkey
      omega
    · rw [h.own pid hlt (by omega) farmInfo' hentry' ((hgets pid).mp hd),
        hother pid farmInfo' (by omega)]
  · have hne : pid ≠ first := by
      rintro rfl
      exact hd fun q hq hlt => absurd hq (by omega)
    rw [h.left pid farmInfo' hentry' (fun he => hd ((hgets pid).mpr he)), hother pid farmInfo' hne]
  · refine (h.others key fun pid hfirst hpid => hkey pid (by omega) (by omega)).trans ?_
    exact hrow.tables.others key (hkey first (Nat.le_refl _) (by omega) farmInfo hentry)

theorem wp_durableTurns (env : Farm2.Env) (currentBlockNumber : ℕ)
    (farmInfos : List (Option SmartChef)) (first count : ℕ) (s : Session (Db Farms) LoggerData) :
    Eff.wp (.whileEach (List.range' first count) (durableTurn env currentBlockNumber farmInfos))
      (fun _ t => Leaves env currentBlockNumber farmInfos first count s.db t.db)
      (fun _ t => Leaves env currentBlockNumber farmInfos first count s.db t.db) s := by
  induction count generalizing first s with
  | zero => exact leaves_nil s.db
  | succ count ih =>
    rw [List.range'_succ, Eff.whileEach, Eff.wp_bind]
    rcases hentry : entry farmInfos first with _ | farmInfo
    · refine Eff.wp_mono (wp_durableTurn_missing env currentBlockNumber s hentry)
        (fun go t ht => ?_) (fun _ _ h => h.elim)
      obtain ⟨rfl, hdb⟩ := ht
      rw [Eff.wp_ite]
      refine ⟨fun h => (by cases h), fun _ => ?_⟩
      rw [Eff.wp_pure, hdb]
      exact leaves_of_stops (.missing hentry)
    · refine Eff.wp_mono (wp_durableTurn env currentBlockNumber s hentry) (fun go t ht => ?_)
        (fun e t ht => ?_)
      · obtain ⟨rfl, hstuck, hrow⟩ := ht
        rw [Eff.wp_ite]
        refine ⟨fun _ => ?_, fun h => absurd rfl h⟩
        exact Eff.wp_mono (ih (first + 1) t) (fun _ _ h => h.cons hentry hstuck hrow)
          (fun _ _ h => h.cons hentry hstuck hrow)
      · rw [ht.2]
        exact leaves_of_stops (.stuck farmInfo hentry ht.1)

end

/-! ## A run -/

/-- The answers that a run has before its loop. -/
structure Answers (env : Farm2.Env) (currentBlockNumber networkPid : ℕ)
    (farmInfos : List (Option SmartChef)) : Prop where
  block : env.getBlockNumber = .ok currentBlockNumber
  network : env.networkPid = .ok networkPid
  infos : env.getFarm2Infos networkPid = .ok farmInfos

theorem Answers.unique {env : Farm2.Env} {n n' k k' : ℕ} {infos infos' : List (Option SmartChef)}
    (h : Answers env n k infos) (h' : Answers env n' k' infos') :
    n = n' ∧ k = k' ∧ infos = infos' := by
  have hn : n = n' := Except.ok.inj (h.block.symm.trans h'.block)
  have hk : k = k' := Except.ok.inj (h.network.symm.trans h'.network)
  subst hk
  exact ⟨hn, rfl, Except.ok.inj (h.infos.symm.trans h'.infos)⟩

/-- A run without its answers leaves the database as it was, and one with them leaves
what its loop leaves. -/
theorem afterRun_durableRun (env : Farm2.Env) (db : Db Farms) :
    ((∀ n k infos, ¬ Answers env n k infos) ∧ afterRun (durableRun env) db = db) ∨
      ∃ n k infos, Answers env n k infos ∧ Leaves env n infos 0 k db (afterRun (durableRun env) db) := by
  refine afterRun_of_wp (fun d => ((∀ n k infos, ¬ Answers env n k infos) ∧ d = db) ∨
    ∃ n k infos, Answers env n k infos ∧ Leaves env n infos 0 k db d) ?_
  simp only [durableRun, writeLog, Eff.wp_bind, Eff.wp_update, Eff.wp_tryCatch, Eff.wp_throw]
  rw [Eff.wp_await]
  refine ⟨fun n hblock => ?_, fun e hfail => Or.inl ⟨fun n k infos h => ?_, rfl⟩⟩
  rotate_left
  · rw [h.block] at hfail
    cases hfail
  rw [Eff.wp_await]
  refine ⟨fun k hnetwork => ?_, fun e hfail => Or.inl ⟨fun n' k infos h => ?_, rfl⟩⟩
  rotate_left
  · rw [h.network] at hfail
    cases hfail
  rw [Eff.wp_await]
  refine ⟨fun infos hinfos => ?_, fun e hfail => Or.inl ⟨fun n' k' infos h => ?_, rfl⟩⟩
  rotate_left
  · have hk : k' = k := Except.ok.inj (h.network.symm.trans hnetwork)
    rw [← hk, h.infos] at hfail
    cases hfail
  refine Eff.wp_mono (wp_durableTurns env n infos 0 k _) (fun _ t ht => ?_) (fun _ t ht => ?_)
  · exact Or.inr ⟨n, k, infos, ⟨hblock, hnetwork, hinfos⟩, ht⟩
  · exact Or.inr ⟨n, k, infos, ⟨hblock, hnetwork, hinfos⟩, ht⟩

/-- Each pid that the run gets to has in its row what the step of its SmartChef makes of
it. -/
theorem rowOf_durableRun {env : Farm2.Env} {n k pid : ℕ} {infos : List (Option SmartChef)}
    (hanswers : Answers env n k infos) (db : Db Farms) (hpid : pid < k) {farmInfo : SmartChef}
    (hentry : entry infos pid = some farmInfo) (hgets : Gets env n infos 0 db pid) :
    rowOf env pid farmInfo (afterRun (durableRun env) db) = effect env n db pid farmInfo := by
  rcases afterRun_durableRun env db with ⟨hno, _⟩ | ⟨n', k', infos', hanswers', hleaves⟩
  · exact absurd hanswers (hno n k infos)
  · obtain ⟨rfl, rfl, rfl⟩ := hanswers.unique hanswers'
    rw [hleaves.own pid (Nat.zero_le _) (by omega) farmInfo hentry hgets, durableRow_eq_effect]

end BlockchainTask.SchedulerJob.Farm2Durable

import BlockchainTask.Library.Runs
import BlockchainTask.SchedulerJob.PairEffect

/-! # The windows of the pair job

Runs of the pair job, one after another, with any answers of the node and any
failures: the pids handed to `doTask` by the runs that committed are exactly
those between the first and the last value of the scheduler's pid. -/
namespace BlockchainTask.SchedulerJob.PairWindows
open BlockchainTask.Helper BlockchainTask.Common.Exception
open BlockchainTask.Library.Effect BlockchainTask.Library.Transaction BlockchainTask.Library.Runs
open BlockchainTask.Repository.Token BlockchainTask.SchedulerJob.Base
open BlockchainTask.SchedulerJob.PairTemplate BlockchainTask.SchedulerJob.PairEffect

/-- The surroundings of one run. -/
structure Env where
  context : Context
  faults : Faults

/-- One run on its own, as a step of the committed data. -/
def step (env : Env) (d : Db Tokens) : Db Tokens := afterRun (run env.context env.faults) d

/-- The pids a run handed to `doTask` and committed. A run that throws has
committed nothing, and one without a window in its log has handed over nothing. -/
def handed (env : Env) (d : Db Tokens) : List Nat :=
  match run env.context env.faults (startSession d) with
  | (.ok _, t) =>
    match t.log.start, t.log.end_ with
    | some sPid, some ePid => fillSequenceNumber (ePid - sPid) sPid
    | _, _ => []
  | (.error _, _) => []

/-- The largest number of pairs that a factory reported. -/
def largestSeen (envs : List Env) : Nat :=
  envs.foldr (fun env n =>
    match env.context.getAMMFactoryTotalLength with
    | .ok total => max total n
    | .error _ => n) 0

theorem le_largestSeen {envs : List Env} {env : Env} {total : Nat} (hmem : env ∈ envs)
    (htotal : env.context.getAMMFactoryTotalLength = .ok total) : total ≤ largestSeen envs := by
  induction envs with
  | nil => simp at hmem
  | cons first rest ih =>
    simp only [largestSeen, List.foldr_cons] at ih ⊢
    rcases List.mem_cons.mp hmem with rfl | hmem
    · rw [htotal]
      exact Nat.le_max_left _ _
    · have hrest := ih hmem
      cases first.context.getAMMFactoryTotalLength with
      | ok n => exact Nat.le_trans hrest (Nat.le_max_right _ _)
      | error e => exact hrest

/-- A run either hands over nothing and changes nothing, or hands over and
commits the window at the cursor. -/
theorem step_cases (env : Env) (d : Db Tokens) :
    (handed env d = [] ∧ step env d = d) ∨
    ∃ total, env.context.getAMMFactoryTotalLength = .ok total ∧ cursor d < total ∧
      cursor (step env d) = chunkEnd chunkSize (cursor d) total ∧
      handed env d =
        fillSequenceNumber (chunkEnd chunkSize (cursor d) total - cursor d) (cursor d) ∧
      Committed env.context (cursor d) (chunkEnd chunkSize (cursor d) total) d (step env d) := by
  have hwp : Eff.wp (run env.context env.faults)
      (fun _ t => RunEffect env.context d t.db t.log) (fun _ t => t.db = d) (startSession d) :=
    wp_run (startSession d)
  obtain ⟨hok, herror⟩ := Eff.wp_iff.mp hwp
  cases hrun : run env.context env.faults (startSession d) with
  | mk r t =>
    have hstep : step env d = t.db := by rw [step, afterRun, hrun]
    cases r with
    | error e => exact Or.inl ⟨by simp only [handed, hrun], hstep.trans (herror e t hrun)⟩
    | ok u =>
      rcases hok u t hrun with ⟨hsame, hlog⟩ | ⟨total, htotal, hrow, hlt, hstart, hend, hcommit⟩
      · exact Or.inl ⟨by simp only [handed, hrun, hlog], hstep.trans hsame⟩
      · refine Or.inr ⟨total, htotal, hlt, ?_, by simp only [handed, hrun, hstart, hend], ?_⟩
        · rw [hstep]
          exact hcommit.cursor hrow
        · rw [hstep]
          exact hcommit

/-- The pids handed over are those the cursor passes. -/
theorem handed_eq_window (env : Env) (d : Db Tokens) :
    handed env d = (crossing step cursor env d).window := by
  rcases step_cases env d with ⟨hnone, hsame⟩ | ⟨total, _, _, hcursor, hhanded, _⟩
  · rw [hnone, Crossing.window, crossing, hsame]
    simp
  · rw [hhanded, Crossing.window, crossing, hcursor]
    rfl

theorem cursor_le_step (env : Env) (d : Db Tokens) : cursor d ≤ cursor (step env d) := by
  rcases step_cases env d with ⟨_, hsame⟩ | ⟨total, _, hlt, hcursor, _, _⟩
  · rw [hsame]
  · have hbounds := chunkEnd_bounds hlt chunkSize_pos
    rw [hcursor]
    exact Nat.le_of_lt hbounds.1

theorem cursor_step_le {env : Env} {d : Db Tokens} {bound : Nat} (hd : cursor d ≤ bound)
    (hseen : ∀ total, env.context.getAMMFactoryTotalLength = .ok total → total ≤ bound) :
    cursor (step env d) ≤ bound := by
  rcases step_cases env d with ⟨_, hsame⟩ | ⟨total, htotal, hlt, hcursor, _, _⟩
  · rw [hsame]
    exact hd
  · have hbounds := chunkEnd_bounds hlt chunkSize_pos
    have htotal := hseen total htotal
    rw [hcursor]
    exact Nat.le_trans hbounds.2.1 htotal

/-- What holds of a sequence of runs and the state it ends in. -/
structure Tiled (envs : List Env) (d : Db Tokens) : Prop where
  /-- Consecutive, disjoint, and exactly what the cursor has passed. -/
  tile : (starts step envs d).flatMap (fun p => handed p.1 p.2) =
    List.range' (cursor d) (cursor (runAll step envs d) - cursor d)
  short : ∀ p ∈ starts step envs d, (handed p.1 p.2).length ≤ 10
  forward : ∀ p ∈ starts step envs d, cursor p.2 ≤ cursor (step p.1 p.2)
  seen : cursor (runAll step envs d) ≤ max (cursor d) (largestSeen envs)
  /-- A run that committed has registered the pairs of its window. -/
  committed : ∀ p ∈ starts step envs d, handed p.1 p.2 ≠ [] →
    Committed p.1.context (cursor p.2) (cursor (step p.1 p.2)) p.2 (step p.1 p.2)
  /-- Any other run has changed neither the tokens nor the cursor. -/
  unchanged : ∀ p ∈ starts step envs d, handed p.1 p.2 = [] → step p.1 p.2 = p.2

/-- **The windows tile.** For every sequence of runs, whatever the node answers
and wherever a run fails. -/
theorem pair_windows_tile (envs : List Env) (d : Db Tokens) : Tiled envs d := by
  have hforward : ∀ env t, (env, t) ∈ starts step envs d → cursor t ≤ cursor (step env t) :=
    fun env t _ => cursor_le_step env t
  refine ⟨?_, fun p _ => ?_, fun p _ => cursor_le_step p.1 p.2, ?_, fun p _ hne => ?_,
    fun p _ hnone => ?_⟩
  · rw [← crossings_tile hforward, crossings, List.flatMap_map]
    congr 1
    funext p
    exact handed_eq_window p.1 p.2
  · rcases step_cases p.1 p.2 with ⟨hnone, _⟩ | ⟨total, _, hlt, _, hhanded, _⟩
    · rw [hnone]
      exact Nat.zero_le _
    · have hbounds := chunkEnd_bounds hlt chunkSize_pos
      have hsize : chunkSize = 10 := rfl
      rw [hhanded, fillSequenceNumber, List.length_range']
      omega
  · refine runAll_invariant (fun t => cursor t ≤ max (cursor d) (largestSeen envs))
      (fun env t ht hle => cursor_step_le hle fun total htotal => ?_) (Nat.le_max_left _ _)
    have hmem : env ∈ envs := env_mem_of_starts ht
    exact Nat.le_trans (le_largestSeen hmem htotal) (Nat.le_max_right _ _)
  · rcases step_cases p.1 p.2 with ⟨hnone, _⟩ | ⟨total, _, _, hcursor, _, hcommit⟩
    · exact absurd hnone hne
    · rw [hcursor]
      exact hcommit
  · rcases step_cases p.1 p.2 with ⟨_, hsame⟩ | ⟨total, _, hlt, _, hhanded, _⟩
    · exact hsame
    · have hbounds := chunkEnd_bounds hlt chunkSize_pos
      have hlength := congrArg List.length (hhanded.symm.trans hnone)
      rw [fillSequenceNumber, List.length_range', List.length_nil] at hlength
      omega

end BlockchainTask.SchedulerJob.PairWindows

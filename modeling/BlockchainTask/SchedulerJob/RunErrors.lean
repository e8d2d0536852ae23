import BlockchainTask.SchedulerJob.OpenedRuns

/-! # What a template's run rejects with

The catch block of a template ends the transaction and hands the error to
`errorHandler`. It cannot end what has not begun: after a connect that fails
there is a runner without a transaction, and the error of the rollback takes the
place of the one that was caught. The interaction template moreover reads its
two block numbers before the try block, so what they throw is not caught. -/
namespace BlockchainTask.SchedulerJob.RunErrors
open BlockchainTask.Common.Exception BlockchainTask.Helper
open BlockchainTask.Library.Effect BlockchainTask.Library.Transaction
open BlockchainTask.Library.Connections
open BlockchainTask.Repository.Token BlockchainTask.Repository.NFToken
open BlockchainTask.SchedulerJob.Base BlockchainTask.SchedulerJob.OpenedRuns

/-! ## The statements of a run -/

/-- `PairTemplate.run` without its catch and its finally block. -/
def pairStatements (context : PairTemplate.Context) (faults : PairTemplate.Faults) :
    JobEff Tokens Unit := do
  writeLog fun _ => .empty
  noQueryRunner
  PairTemplate.crawl context faults

def nftStatements (context : NFTTemplate.Context) (faults : NFTTemplate.Faults) :
    JobEff NFTokens Unit := do
  writeLog fun _ => .empty
  noQueryRunner
  NFTTemplate.crawl context faults

def interactionStatements (network : Nat) (chain : Nat → List InteractionTemplate.Transaction)
    (env : InteractionTemplate.Env) : JobEff InteractionTemplate.Interactions Unit := do
  writeLog fun _ => .empty
  let sBlock ← InteractionTemplate.getSchedulerBlockNumber env
  let networkBlockNumber ← .await env.getBlockNumber
  if sBlock ≥ networkBlockNumber then pure ()
  else
    let eBlock := chunkEnd InteractionTemplate.chunkSize sBlock networkBlockNumber
    writeLog fun l =>
      { l with total := some networkBlockNumber, start := some sBlock, end_ := some eBlock }
    noQueryRunner
    InteractionTemplate.crawl network chain env sBlock eBlock

/-- A run of one of the templates, on the data it starts with. -/
inductive TemplateRun where
  | pair (context : PairTemplate.Context) (faults : PairTemplate.Faults) (db : Db Tokens)
  | interaction (network : Nat) (chain : Nat → List InteractionTemplate.Transaction)
      (env : InteractionTemplate.Env) (db : Db InteractionTemplate.Interactions)
  | nft (context : NFTTemplate.Context) (faults : NFTTemplate.Faults) (db : Db NFTokens)

/-- The error that a computation settles with, if it throws. -/
def errorOf {σ α : Type} (settled : Except Thrown α × σ) : Option Thrown :=
  match settled.1 with
  | .ok _ => none
  | .error e => some e

/-- The error that the run's statements raise, at whatever point. -/
def TemplateRun.raised : TemplateRun → Option Thrown
  | .pair context faults db => errorOf (pairStatements context faults (startSession db))
  | .interaction network chain env db =>
    errorOf (interactionStatements network chain env (startSession db))
  | .nft context faults db => errorOf (nftStatements context faults (startSession db))

/-- The error that the run rejects with. -/
def TemplateRun.rejects : TemplateRun → Option Thrown
  | .pair context faults db => errorOf (PairTemplate.run context faults (startSession db))
  | .interaction network chain env db =>
    errorOf (InteractionTemplate.run network chain env (startSession db))
  | .nft context faults db => errorOf (NFTTemplate.run context faults (startSession db))

/-- The rollback of an active transaction succeeds. -/
def TemplateRun.RollsBack : TemplateRun → Prop
  | .pair _ faults _ => faults.rollbackTransaction = none
  | .interaction _ _ env _ => env.rollbackTransaction = none
  | .nft _ faults _ => faults.rollbackTransaction = none ∧ faults.rollbackAgain = none

/-- The connect of a runner that was created fails. -/
def ConnectFails (gets : Prop) (created connected : Option Thrown) : Prop :=
  gets ∧ created = none ∧ connected.isSome = true

/-- The run fails neither at a connect nor, where they are not in the try block, at
the reads of the block numbers. -/
def TemplateRun.Handled : TemplateRun → Prop
  | .pair context faults db =>
    ¬ ConnectFails ((pairWindow context faults).Gets db) faults.createQueryRunner faults.connect
  | .interaction _ chain env db =>
    (env.findScheduler = none ∧ db.scheduler.isSome = true ∧ ∃ n, env.getBlockNumber = .ok n) ∧
      ¬ ConnectFails
        (GetsToRunner env.findScheduler Scheduler.block_number env.getBlockNumber
          InteractionTemplate.chunkSize (BlocksRead chain env) db)
        env.createQueryRunner env.connect
  | .nft context faults db =>
    ¬ ConnectFails ((nftWindow context faults).Gets db) faults.createQueryRunner faults.connect

/-! ## A guarded block -/

/-- No error is its own exception. -/
theorem errorHandler_ne (e : Thrown) : errorHandler e ≠ e := by
  intro h
  obtain ⟨m, l, hexception⟩ := errorHandler_exception e
  have hsize := congrArg sizeOf (hexception.symm.trans h)
  simp only [Thrown.exception.sizeOf_spec, Option.some.sizeOf_spec] at hsize
  omega

theorem errorHandler_ne_notStarted (e : Thrown) :
    errorHandler e ≠ TransactionErrors.transactionNotStarted := by
  intro h
  obtain ⟨m, l, hexception⟩ := errorHandler_exception e
  rw [hexception] at h
  cases h

/-- A block that throws leaves something to recover from, unless its connect has
failed. -/
theorem recoverable_iff {T : Type} {gets : Prop} {created connected : Option Thrown}
    {t : Session (Db T) LoggerData} (h : Fails gets created connected t) :
    recoverable t = true ↔ ¬ ConnectFails gets created connected := by
  unfold ConnectFails
  by_cases hgets : gets
  · rw [h.recovers hgets]
    cases created <;> cases connected <;> simp [hgets]
  · have hrunner := h.short hgets
    simp [recoverable, hrunner, hgets]

/-- The error of a block is handled exactly when it is not that of its connect. -/
theorem guarded_handles {T : Type} {block last : JobEff T Unit} {gets : Prop}
    {created connected : Option Thrown} {s : Session (Db T) LoggerData}
    (h : Eff.wp block (fun _ t => Returns gets created connected t)
      (fun _ t => Fails gets created connected t) s) (hlast : Silent last) :
    (∀ e, errorOf (block s) = some e →
      errorOf (Eff.tryFinally
        (Eff.tryCatch block fun e => do
          rollbackIfCreated none
          .throw (errorHandler e))
        last s) = some (errorHandler e)) ↔ ¬ ConnectFails gets created connected := by
  rcases hrun : block s with ⟨e | _, t⟩
  · have hrejects := rejects_guarded errorHandler hrun hlast
    rw [← recoverable_iff ((Eff.wp_iff.mp h).2 e t hrun)]
    constructor
    · intro hall
      have hhandled := hall e rfl
      rw [errorOf, hrejects] at hhandled
      cases hrecoverable : recoverable t with
      | true => rfl
      | false =>
        rw [hrecoverable] at hhandled
        exact absurd (Option.some.inj hhandled).symm (errorHandler_ne_notStarted e)
    · intro hrecoverable e' he
      cases he
      rw [errorOf, hrejects, if_pos hrecoverable]
  · have hreturns := (Eff.wp_iff.mp h).1 () t hrun
    constructor
    · intro _ hfails
      obtain ⟨hgets, _, hconnected⟩ := hfails
      rw [(hreturns.connects hgets).2] at hconnected
      cases hconnected
    · intro _ e he
      cases he

/-- The read of a cursor gives it where the scheduler's row is found, and throws
where it is not. -/
theorem schedulerCursor_run {T : Type} (fault : Option Thrown) (column : Scheduler → Option Nat)
    (s : Session (Db T) LoggerData) :
    ((fault = none ∧ s.db.scheduler.isSome = true) ∧
        schedulerCursor fault column s = (.ok (s.db.cursor column), s)) ∨
      (¬ (fault = none ∧ s.db.scheduler.isSome = true) ∧
        ∃ e, schedulerCursor fault column s = (.error e, s)) := by
  cases fault with
  | some e => exact Or.inr ⟨fun h => (by cases h.1), e, rfl⟩
  | none =>
    rcases Option.eq_none_or_eq_some s.db.scheduler with hr | ⟨r, hr⟩
    · refine Or.inr ⟨fun h => ?_, rawError "Not found scheduler", ?_⟩
      · rw [hr] at h
        cases h.2
      · simp only [schedulerCursor, findScheduler, connectionRead, Eff.bind_eq, Eff.mayFail, Eff.read,
          hr]
        rfl
    · refine Or.inl ⟨⟨rfl, by rw [hr]; rfl⟩, ?_⟩
      simp only [schedulerCursor, findScheduler, connectionRead, Eff.bind_eq, Eff.mayFail, Eff.read,
        hr, Db.cursor]
      rfl

/-! ## The runs -/

theorem pair_handled_iff (context : PairTemplate.Context) (faults : PairTemplate.Faults)
    (db : Db Tokens) (h : faults.rollbackTransaction = none) :
    (∀ e, (TemplateRun.pair context faults db).raised = some e →
      (TemplateRun.pair context faults db).rejects = some (errorHandler e)) ↔
      (TemplateRun.pair context faults db).Handled := by
  have hblock := guarded_handles (wp_pairCrawl context faults (s := startSession db) rfl)
    silent_releaseIfHeld
  rw [← h] at hblock
  exact hblock

/-- The reads of the interaction template before its try block answer. -/
def ReadsNumbers (env : InteractionTemplate.Env) (db : Db InteractionTemplate.Interactions) : Prop :=
  env.findScheduler = none ∧ db.scheduler.isSome = true ∧ ∃ n, env.getBlockNumber = .ok n

/-- A program that begins as the interaction template does. -/
def afterNumbers (env : InteractionTemplate.Env)
    (rest : Nat → Nat → JobEff InteractionTemplate.Interactions Unit) :
    JobEff InteractionTemplate.Interactions Unit := do
  writeLog fun _ => .empty
  let sBlock ← InteractionTemplate.getSchedulerBlockNumber env
  let networkBlockNumber ← .await env.getBlockNumber
  rest sBlock networkBlockNumber

theorem afterNumbers_eq (env : InteractionTemplate.Env)
    (rest : Nat → Nat → JobEff InteractionTemplate.Interactions Unit)
    (db : Db InteractionTemplate.Interactions) :
    afterNumbers env rest (startSession db) =
      (schedulerCursor env.findScheduler Scheduler.block_number >>= fun sBlock =>
        Eff.await env.getBlockNumber >>= rest sBlock) (startSession db) := rfl

theorem afterNumbers_run (env : InteractionTemplate.Env)
    (db : Db InteractionTemplate.Interactions) :
    (ReadsNumbers env db ∧ ∃ n, env.getBlockNumber = .ok n ∧ ∀ rest,
        afterNumbers env rest (startSession db) =
          rest (db.cursor Scheduler.block_number) n (startSession db)) ∨
      (¬ ReadsNumbers env db ∧ ∃ e, ∀ rest,
        afterNumbers env rest (startSession db) = (.error e, startSession db)) := by
  rcases schedulerCursor_run env.findScheduler Scheduler.block_number (startSession db) with
    ⟨hfound, hcursor⟩ | ⟨hmissing, e, hcursor⟩
  · cases hn : env.getBlockNumber with
    | ok n =>
      refine Or.inl ⟨⟨hfound.1, hfound.2, n, hn⟩, n, rfl, fun rest => ?_⟩
      rw [afterNumbers_eq, Eff.bind_of_ok hcursor, hn]
      rfl
    | error e =>
      refine Or.inr ⟨fun h => ?_, e, fun rest => ?_⟩
      · obtain ⟨n, hok⟩ := h.2.2
        rw [hn] at hok
        cases hok
      · rw [afterNumbers_eq, Eff.bind_of_ok hcursor, hn]
        rfl
  · refine Or.inr ⟨fun h => hmissing ⟨h.1, h.2.1⟩, e, fun rest => ?_⟩
    rw [afterNumbers_eq, Eff.bind_of_error hcursor]

/-- The part of the interaction template from its comparison on. -/
def tryBlock (network : Nat) (chain : Nat → List InteractionTemplate.Transaction)
    (env : InteractionTemplate.Env)
    (guard : JobEff InteractionTemplate.Interactions Unit →
      JobEff InteractionTemplate.Interactions Unit) (sBlock networkBlockNumber : Nat) :
    JobEff InteractionTemplate.Interactions Unit :=
  if sBlock ≥ networkBlockNumber then pure ()
  else do
    let eBlock := chunkEnd InteractionTemplate.chunkSize sBlock networkBlockNumber
    writeLog fun l =>
      { l with total := some networkBlockNumber, start := some sBlock, end_ := some eBlock }
    noQueryRunner
    guard (InteractionTemplate.crawl network chain env sBlock eBlock)

def guarded {T : Type} (fault : Option Thrown) (block : JobEff T Unit) : JobEff T Unit :=
  .tryFinally
    (.tryCatch block fun e => do
      rollbackIfCreated fault
      .throw (errorHandler e))
    releaseIfHeld

theorem interaction_handled_iff (network : Nat)
    (chain : Nat → List InteractionTemplate.Transaction) (env : InteractionTemplate.Env)
    (db : Db InteractionTemplate.Interactions) (h : env.rollbackTransaction = none) :
    (∀ e, (TemplateRun.interaction network chain env db).raised = some e →
      (TemplateRun.interaction network chain env db).rejects = some (errorHandler e)) ↔
      (TemplateRun.interaction network chain env db).Handled := by
  have hraised : (TemplateRun.interaction network chain env db).raised =
      errorOf (afterNumbers env (tryBlock network chain env fun m => m) (startSession db)) := rfl
  have hrejects : (TemplateRun.interaction network chain env db).rejects =
      errorOf (afterNumbers env (tryBlock network chain env (guarded env.rollbackTransaction)) (startSession db)) := rfl
  rw [hraised, hrejects]
  rcases afterNumbers_run env db with ⟨hreads, n, hn, hrest⟩ | ⟨hfails, e, herror⟩
  · rw [hrest, hrest]
    by_cases hdone : db.cursor Scheduler.block_number ≥ n
    · rw [tryBlock, if_pos hdone, tryBlock, if_pos hdone]
      refine ⟨fun _ => ⟨hreads, fun hfails => ?_⟩, fun _ e he => (by cases he)⟩
      obtain ⟨n', hn', hbehind, _⟩ := hfails.1.behind
      rw [hn] at hn'
      cases hn'
      omega
    · rw [tryBlock, if_neg hdone, tryBlock, if_neg hdone]
      have hblock := fun l => guarded_handles
        (wp_interactionCrawl network chain env (db.cursor Scheduler.block_number)
          (chunkEnd InteractionTemplate.chunkSize (db.cursor Scheduler.block_number) n)
          (s := { startSession db with log := l }) rfl) silent_releaseIfHeld
      rw [← h] at hblock
      have hgets : GetsToRunner env.findScheduler Scheduler.block_number env.getBlockNumber
          InteractionTemplate.chunkSize (BlocksRead chain env) db ↔
          BlocksRead chain env (db.cursor Scheduler.block_number)
            (chunkEnd InteractionTemplate.chunkSize (db.cursor Scheduler.block_number) n) := by
        refine ⟨fun hgets => ?_, fun hread =>
          ⟨⟨hreads.1, hreads.2.1⟩, n, hn, Nat.not_le.mp hdone, hread⟩⟩
        obtain ⟨n', hn', _, hread⟩ := hgets.behind
        rw [hn] at hn'
        cases hn'
        exact hread
      rw [TemplateRun.Handled, hgets]
      exact (hblock _).trans ⟨fun hnot => ⟨hreads, hnot⟩, fun hhandled => hhandled.2⟩
  · -- an error of the reads is not handled
    rw [herror, herror]
    refine ⟨fun hall => ?_, fun hhandled => absurd hhandled.1 hfails⟩
    exact absurd (Option.some.inj (hall e rfl)).symm (errorHandler_ne e)

theorem nft_handled_iff (context : NFTTemplate.Context) (faults : NFTTemplate.Faults)
    (db : Db NFTokens) (h : faults.rollbackTransaction = none)
    (hagain : faults.rollbackAgain = none) :
    (∀ e, (TemplateRun.nft context faults db).raised = some e →
      (TemplateRun.nft context faults db).rejects = some (errorHandler e)) ↔
      (TemplateRun.nft context faults db).Handled := by
  have hlast : Silent (rollbackIfActive faults.rollbackAgain :
      Eff (Session (Db NFTokens) LoggerData) Thrown Unit) := hagain ▸ silent_rollbackIfActive
  have hblock := guarded_handles (wp_nftCrawl context faults (s := startSession db) rfl) hlast
  rw [← h] at hblock
  exact hblock

/-- **Handled errors.** While rollbacks of active transactions succeed, a template's
run rejects with the handler's exception for whatever its statements raise, exactly
when that is not raised by the connect, nor by the reads that the interaction
template makes before its try block. -/
theorem rejects_handled_iff (run : TemplateRun) (h : run.RollsBack) :
    (∀ e, run.raised = some e → run.rejects = some (errorHandler e)) ↔ run.Handled := by
  cases run with
  | pair context faults db => exact pair_handled_iff context faults db h
  | interaction network chain env db => exact interaction_handled_iff network chain env db h
  | nft context faults db => exact nft_handled_iff context faults db h.1 h.2

/-! ## Two runs of the interaction template -/

def exampleDb : Db InteractionTemplate.Interactions :=
  ⟨some ⟨"EVERY_SECOND", some 0, none, false, true, true⟩, Library.Store.Table.empty⟩

/-- One empty block to read, and the commit or the connect fails. -/
def exampleRun (connect commitTransaction : Option Thrown) : TemplateRun :=
  .interaction 56 (fun _ => [])
    { InteractionTemplate.Env.steady 1 (fun _ => .result) (fun _ => false) with
      connect, commitTransaction } exampleDb

/-- The connection is lost at the commit. -/
theorem lost_commit_handled :
    (exampleRun none (some (rawError "ECONNRESET"))).rejects =
      some (errorHandler (rawError "ECONNRESET")) := by
  refine (rejects_handled_iff (exampleRun none (some (rawError "ECONNRESET"))) rfl).mpr ?_ _ rfl
  refine ⟨⟨rfl, rfl, 1, rfl⟩, fun hfails => ?_⟩
  cases hfails.2.2

/-- The database has no connection left, and what the run rejects with is that no
transaction was started. -/
theorem failed_connect_not_handled :
    ¬ ∀ run : TemplateRun, run.RollsBack →
      ∀ e, run.raised = some e → run.rejects = some (errorHandler e) := by
  intro hall
  have hrejects := hall (exampleRun (some (rawError "Too many connections")) none) rfl
    (rawError "Too many connections") rfl
  have hraw : (exampleRun (some (rawError "Too many connections")) none).rejects =
      some TransactionErrors.transactionNotStarted := rfl
  rw [hraw] at hrejects
  exact errorHandler_ne_notStarted _ (Option.some.inj hrejects).symm

end BlockchainTask.SchedulerJob.RunErrors

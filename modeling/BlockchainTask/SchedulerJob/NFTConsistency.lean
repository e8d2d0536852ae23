import BlockchainTask.Library.Runs
import BlockchainTask.SchedulerJob.NFTTemplate

/-! # The NF tokens and the cursor

The rows of a window and the scheduler's pid change together in every run but
one: when the commit is what fails first, the pid has already moved and the
rows are gone. Over a sequence of runs without that, every index that the
cursor has passed has its row, and no index has two. -/
namespace BlockchainTask.SchedulerJob.NFTConsistency
open BlockchainTask.Helper BlockchainTask.Common.Exception
open BlockchainTask.Library.Effect BlockchainTask.Library.Transaction BlockchainTask.Library.Store
open BlockchainTask.Library.Runs
open BlockchainTask.Repository.NFToken BlockchainTask.SchedulerJob.Base
open BlockchainTask.SchedulerJob.NFTTemplate

/-! ## How far a run gets -/

structure Env where
  context : Context
  faults : Faults

abbrev cursor (d : Db NFTokens) : Nat := d.cursor Scheduler.pid

/-- The run gets to its commit, with the end of its window and the rows for it. -/
structure ReachesCommit (env : Env) (d : Db NFTokens) (ePid : Nat) (rows : List NFTokenRow) :
    Prop where
  found : env.faults.findScheduler = none ∧ d.scheduler.isSome = true
  behind : ∃ networkPid, env.context.networkPid = .ok networkPid ∧ cursor d < networkPid ∧
    ePid = chunkEnd chunkSize (cursor d) networkPid
  crawled : env.context.crawlNFTokens (fillSequenceNumber (ePid - cursor d) (cursor d)) =
    .ok (rows.map some)
  addressed : ∀ r ∈ rows, r.address ≠ ""
  created : env.faults.createQueryRunner = none
  connects : env.faults.connect = none ∧ env.faults.startTransaction = none
  writes : env.faults.createNFTokens = none ∧ env.faults.updateScheduler = none

/-- Only the scheduler's pid has moved. -/
def pidOnly (ePid : Nat) (d : Db NFTokens) : Db NFTokens :=
  d.setScheduler fun r => { r with pid := some ePid }

/-- The data that a run leaves. -/
inductive Outcome (env : Env) (d : Db NFTokens) : Db NFTokens → Prop
  | unchanged (short : ∀ ePid rows, ¬ ReachesCommit env d ePid rows) : Outcome env d d
  | committed {ePid : Nat} {rows : List NFTokenRow} (reaches : ReachesCommit env d ePid rows)
      (commits : env.faults.commitTransaction = none) :
      Outcome env d ((pidOnly ePid d).setTables fun t => t.insertAll rows)
  | torn {ePid : Nat} {rows : List NFTokenRow} (reaches : ReachesCommit env d ePid rows)
      (fails : env.faults.commitTransaction.isSome = true) : Outcome env d (pidOnly ePid d)

variable {env : Env} {d d' : Db NFTokens}

/-! ## One run -/

/-- An insert of rows is accepted when each has an address. -/
theorem checkInsert_map_some {rows : List NFTokenRow} :
    (rows.map some).findSome? checkInsert = none ↔ ∀ r ∈ rows, r.address ≠ "" := by
  rw [List.findSome?_eq_none_iff]
  simp only [List.mem_map, forall_exists_index, and_imp, forall_apply_eq_imp_iff₂, checkInsert,
    ite_eq_right_iff, reduceCtorEq, imp_false, ne_eq]

/-- An insert with a missing entry is not accepted. -/
theorem rows_of_checkInsert {crawled : List (Option NFTokenRow)}
    (h : crawled.findSome? checkInsert = none) :
    ∃ rows : List NFTokenRow, crawled = rows.map some := by
  refine ⟨crawled.filterMap id, ?_⟩
  rw [List.findSome?_eq_none_iff] at h
  induction crawled with
  | nil => rfl
  | cons entry crawled ih =>
    cases entry with
    | none => exact absurd (h none List.mem_cons_self) (by simp [checkInsert])
    | some r =>
      have hrest := ih fun entry hentry => h entry (List.mem_cons_of_mem _ hentry)
      rw [List.filterMap_cons, id_eq, List.map_cons, ← hrest]

theorem filterMap_map_some (rows : List NFTokenRow) : (rows.map some).filterMap id = rows := by
  rw [List.filterMap_map]
  exact List.filterMap_some

theorem ReachesCommit.rows {ePid : Nat} {rows : List NFTokenRow}
    (h : ReachesCommit env d ePid rows) : rows.length = ePid - cursor d := by
  have hlength := env.context.one_each _ _ h.crawled
  simpa only [List.length_map, fillSequenceNumber, List.length_range'] using hlength

/-- The statements of the transaction, where they are what a run to the commit
still needs. -/
theorem wp_insertAndCommit {t : Session (Db NFTokens) LoggerData} (hpending : t.pending = some id)
    {windowEnd : Nat} {crawled : List (Option NFTokenRow)}
    (hreaches : ∀ {ePid rows}, ReachesCommit env t.db ePid rows ↔
      ePid = windowEnd ∧ crawled = rows.map some ∧ (∀ r ∈ rows, r.address ≠ "") ∧
        env.faults.createNFTokens = none ∧ env.faults.updateScheduler = none) :
    Eff.wp (do
        createNFTokens env.faults.createNFTokens crawled
        updateSchedulerPid env.faults.updateScheduler windowEnd
        commitTransaction env.faults.commitTransaction)
      (fun _ u => Outcome env t.db u.db) (fun _ u => Outcome env t.db u.db) t := by
  rw [Eff.wp_bind]
  refine wp_managerWrite_pending hpending (fun hcreate haccept u hudb _ hupending => ?_)
    (fun e hfail => ?_)
  rotate_left
  · refine .unchanged fun ePid rows h => ?_
    obtain ⟨_, hrows, haddressed, hcreate, _⟩ := hreaches.mp h
    rw [hcreate, hrows, checkInsert_map_some.mpr haddressed] at hfail
    cases hfail
  obtain ⟨rows, rfl⟩ := rows_of_checkInsert haccept
  rw [Eff.wp_bind]
  refine wp_connectionWrite (fun hupdate => ?_) (fun e hfail => ?_)
  rotate_left
  · rw [hudb]
    refine .unchanged fun ePid rows h => ?_
    rw [(hreaches.mp h).2.2.2.2] at hfail
    cases hfail
  have hthere : ReachesCommit env t.db windowEnd rows :=
    hreaches.mpr ⟨rfl, rfl, checkInsert_map_some.mp haccept, hcreate, hupdate⟩
  refine wp_commitTransaction_pending (p := (Db.setTables fun t =>
    t.insertAll ((rows.map some).filterMap id)) ∘ id) hupending (fun hcommit v hv _ _ => ?_)
    (fun e hfail => ?_)
  · rw [hv, filterMap_map_some, hudb]
    exact .committed hthere hcommit
  · show Outcome env t.db (pidOnly _ u.db)
    rw [hudb]
    exact .torn hthere (by rw [hfail]; rfl)

theorem wp_crawl (s : Session (Db NFTokens) LoggerData) :
    Eff.wp (crawl env.context env.faults) (fun _ t => Outcome env s.db t.db)
      (fun _ t => Outcome env s.db t.db) s := by
  simp only [crawl, schedulerPid, writeLog]
  rw [Eff.wp_bind, Eff.wp_await]
  refine ⟨fun total htotal => ?_, fun e hfail => .unchanged fun ePid rows h => ?_⟩
  rotate_left
  · obtain ⟨networkPid, hanswer, _⟩ := h.behind
    rw [hfail] at hanswer
    cases hanswer
  rw [Eff.wp_bind]
  refine wp_schedulerCursor (fun r hfind hr => ?_) fun e hfail => .unchanged fun ePid rows h =>
    hfail h.found
  have hcursor : cursor s.db = r.pid.getD 0 := by simp [cursor, Db.cursor, hr]
  rw [← hcursor, Eff.wp_bind, Eff.wp_update, Eff.wp_ite]
  -- the window that any run to the commit has
  have hwindow : ∀ {ePid rows}, ReachesCommit env s.db ePid rows →
      cursor s.db < total ∧ ePid = chunkEnd chunkSize (cursor s.db) total := by
    intro ePid rows h
    obtain ⟨networkPid, hanswer, hbehind, hend⟩ := h.behind
    rw [htotal] at hanswer
    cases hanswer
    exact ⟨hbehind, hend⟩
  refine ⟨fun hdone => .unchanged fun ePid rows h => absurd (hwindow h).1 (by omega), fun hlt => ?_⟩
  rw [Eff.wp_bind, Eff.wp_update, Eff.wp_bind, Eff.wp_await]
  refine ⟨fun crawled hcrawled => ?_, fun e hfail => .unchanged fun ePid rows h => ?_⟩
  rotate_left
  · have hanswer := h.crawled
    rw [(hwindow h).2, hfail] at hanswer
    cases hanswer
  rw [Eff.wp_bind, Eff.wp_mayFail]
  refine ⟨fun hcreated => ?_, fun e hfail => .unchanged fun ePid rows h => ?_⟩
  rotate_left
  · rw [h.created] at hfail
    cases hfail
  refine wp_opened (fun hconnect hstart t hdb _ hpending => ?_) (fun e hfail t hdb _ _ => ?_)
  rotate_left
  · have hdb : t.db = s.db := hdb
    rw [hdb]
    refine .unchanged fun ePid rows h => ?_
    rw [h.connects.1, h.connects.2] at hfail
    cases hfail
  have hdb : t.db = s.db := hdb
  rw [← hdb] at hwindow hcrawled hlt ⊢
  refine wp_insertAndCommit hpending ⟨fun h => ?_, fun ⟨hend, hrows, haddressed, hwrites⟩ => ?_⟩
  · have hend := (hwindow h).2
    have hanswer := h.crawled
    rw [hend, hcrawled] at hanswer
    exact ⟨hend, Except.ok.inj hanswer, h.addressed, h.writes⟩
  · rw [hend]
    rw [hrows] at hcrawled
    exact ⟨⟨hfind, by rw [hdb, hr]; rfl⟩, ⟨total, htotal, Nat.not_le.mp hlt, rfl⟩, hcrawled,
      haddressed, hcreated, ⟨hconnect, hstart⟩, hwrites⟩

theorem wp_run (s : Session (Db NFTokens) LoggerData) :
    Eff.wp (run env.context env.faults) (fun _ t => Outcome env s.db t.db)
      (fun _ t => Outcome env s.db t.db) s := by
  simp only [run, noQueryRunner, writeLog]
  rw [Eff.wp_bind, Eff.wp_update, Eff.wp_bind, Eff.wp_update]
  exact wp_settles (fun _ => wp_rollbackIfActive_db) (wp_crawl _)

/-- One run on its own, as a step of the committed data. -/
def step (env : Env) (d : Db NFTokens) : Db NFTokens := afterRun (run env.context env.faults) d

theorem outcome (env : Env) (d : Db NFTokens) : Outcome env d (step env d) :=
  afterRun_of_wp (Outcome env d) (wp_run (startSession d))

theorem Outcome.flags (h : Outcome env d d') : d'.flags = d.flags := by
  cases h with
  | unchanged => rfl
  | committed =>
    simp only [Db.flags, pidOnly, Db.setTables_scheduler, Db.setScheduler_scheduler, Option.map_map]
    rfl
  | torn =>
    simp only [Db.flags, pidOnly, Db.setScheduler_scheduler, Option.map_map]
    rfl

/-- The template as a job of the scheduler. -/
def nftJob (env : Env) : Job NFTokens where
  run := run env.context env.faults
  keepsFlags s := Eff.wp_mono (wp_run s) (fun _ _ h => h.flags) (fun _ _ h => h.flags)

/-! ## Rows and cursor together -/

/-- Either all rows of the window are stored and the pid is its end, or no row
is stored and the pid has not moved. -/
def Together (env : Env) (d d' : Db NFTokens) : Prop :=
  (stored d'.tables = stored d.tables ∧ cursor d' = cursor d) ∨
    ∃ networkPid ePid rows, env.context.networkPid = .ok networkPid ∧ cursor d < networkPid ∧
      ePid = chunkEnd chunkSize (cursor d) networkPid ∧
      env.context.crawlNFTokens (fillSequenceNumber (ePid - cursor d) (cursor d)) =
        .ok (rows.map some) ∧
      stored d'.tables = stored d.tables ++ rows ∧ cursor d' = ePid

/-- The run gets to its commit, and the commit fails. -/
def CommitFailsFirst (env : Env) (d : Db NFTokens) : Prop :=
  env.faults.commitTransaction.isSome = true ∧ ∃ ePid rows, ReachesCommit env d ePid rows

theorem ReachesCommit.cursor_lt {ePid : Nat} {rows : List NFTokenRow}
    (h : ReachesCommit env d ePid rows) : cursor d < ePid := by
  obtain ⟨_, _, hbehind, hend⟩ := h.behind
  have hbounds := chunkEnd_bounds hbehind chunkSize_pos
  rw [hend]
  exact hbounds.1

theorem cursor_pidOnly {ePid : Nat} (h : d.scheduler.isSome = true) :
    cursor (pidOnly ePid d) = ePid := by
  obtain ⟨r, hr⟩ := Option.isSome_iff_exists.mp h
  simp [cursor, pidOnly, Db.cursor, hr]

theorem cursor_le_step (env : Env) (d : Db NFTokens) : cursor d ≤ cursor (step env d) := by
  have houtcome : Outcome env d (step env d) := outcome env d
  generalize step env d = d' at houtcome ⊢
  cases houtcome with
  | unchanged short => exact Nat.le_refl _
  | committed reaches =>
    exact Nat.le_trans (Nat.le_of_lt reaches.cursor_lt) (cursor_pidOnly reaches.found.2).ge
  | torn reaches =>
    exact Nat.le_trans (Nat.le_of_lt reaches.cursor_lt) (cursor_pidOnly reaches.found.2).ge

/-- A run keeps rows and pid together unless its commit is what fails first. -/
theorem together_iff (env : Env) (d : Db NFTokens) :
    Together env d (step env d) ↔ ¬ CommitFailsFirst env d := by
  have houtcome : Outcome env d (step env d) := outcome env d
  generalize step env d = d' at houtcome ⊢
  cases houtcome with
  | unchanged short =>
    exact ⟨fun _ ⟨_, ePid, rows, hreaches⟩ => short ePid rows hreaches, fun _ => Or.inl ⟨rfl, rfl⟩⟩
  | @committed ePid rows reaches commits =>
    have hnot : ¬ CommitFailsFirst env d := by
      intro hcommit
      obtain ⟨hfails, _⟩ := hcommit
      rw [commits] at hfails
      cases hfails
    refine ⟨fun _ => hnot, fun _ => Or.inr ?_⟩
    obtain ⟨networkPid, hnetwork, hbehind, hend⟩ := reaches.behind
    exact ⟨networkPid, ePid, rows, hnetwork, hbehind, hend, reaches.crawled, stored_insertAll _ _,
      cursor_pidOnly reaches.found.2⟩
  | @torn ePid rows reaches fails =>
    refine ⟨fun htogether => ?_, fun hnot => absurd ⟨fails, ePid, rows, reaches⟩ hnot⟩
    have hmoved := reaches.cursor_lt
    have hcursor : cursor (pidOnly ePid d) = ePid := cursor_pidOnly reaches.found.2
    rcases htogether with ⟨_, hsame⟩ | ⟨_, ePid', rows', _, _, _, hcrawled, hstored, hend⟩
    · omega
    · -- the window is not empty, and none of its rows is stored
      have hnone : rows' = [] := List.self_eq_append_right.mp hstored
      have hlength := env.context.one_each _ _ hcrawled
      rw [hnone, List.map_nil, List.length_nil, fillSequenceNumber, List.length_range'] at hlength
      omega

/-! ## Every sequence of runs -/

/-- The row was crawled for the pid in this run. -/
def CrawledBy (env : Env) (w : Nat × NFTokenRow) : Prop :=
  ∃ pids rows, env.context.crawlNFTokens pids = .ok (rows.map some) ∧ w ∈ pids.zip rows

/-- The rows that the runs have added are one for each pid that the cursor has
passed, in order, each crawled for its pid by one of the runs. -/
def Complete (envs : List Env) (d : Db NFTokens) : Prop :=
  ∃ written : List (Nat × NFTokenRow),
    stored (runAll step envs d).tables = stored d.tables ++ written.map Prod.snd ∧
    written.map Prod.fst = List.range' (cursor d) (cursor (runAll step envs d) - cursor d) ∧
    ∀ w ∈ written, ∃ env ∈ envs, CrawledBy env w

theorem complete_of_together {envs : List Env} {d : Db NFTokens}
    (h : ∀ p ∈ starts step envs d, Together p.1 p.2 (step p.1 p.2)) : Complete envs d := by
  induction envs generalizing d with
  | nil => exact ⟨[], by simp, by simp, by simp⟩
  | cons env envs ih =>
    obtain ⟨written, hstored, hpids, hcrawled⟩ :=
      ih (d := step env d) fun p hp => h p (List.mem_cons_of_mem _ hp)
    have hcrawled' : ∀ w ∈ written, ∃ env' ∈ env :: envs, CrawledBy env' w := by
      intro w hw
      obtain ⟨env', henv, hby⟩ := hcrawled w hw
      exact ⟨env', List.mem_cons_of_mem _ henv, hby⟩
    have hle : cursor (step env d) ≤ cursor (runAll step envs (step env d)) :=
      cursor_le_runAll fun env' t _ => cursor_le_step env' t
    have hfirst : Together env d (step env d) := h (env, d) List.mem_cons_self
    rcases hfirst with ⟨hsame, hcursor⟩ | ⟨_, ePid, rows, _, _, _, hrows, hadded, hcursor⟩
    · refine ⟨written, ?_, ?_, hcrawled'⟩
      · rw [runAll_cons, hstored, hsame]
      · rw [runAll_cons, hpids, hcursor]
    · have hforward : cursor d ≤ ePid := hcursor ▸ cursor_le_step env d
      let pids := fillSequenceNumber (ePid - cursor d) (cursor d)
      have hlength : rows.length = pids.length := by
        simpa only [List.length_map] using env.context.one_each _ _ hrows
      refine ⟨pids.zip rows ++ written, ?_, ?_, fun w hw => ?_⟩
      · rw [runAll_cons, hstored, hadded, List.map_append, List.map_snd_zip hlength.le,
          List.append_assoc]
      · rw [List.map_append, List.map_fst_zip hlength.ge, hpids, hcursor, runAll_cons]
        rw [hcursor] at hle
        have hsplit : cursor (runAll step envs (step env d)) - cursor d =
            (ePid - cursor d) + (cursor (runAll step envs (step env d)) - ePid) := by omega
        have hmid : cursor d + 1 * (ePid - cursor d) = ePid := by omega
        rw [hsplit, ← List.range'_append, hmid]
        rfl
      · rcases List.mem_append.mp hw with hw | hw
        · exact ⟨env, List.mem_cons_self, pids, rows, hrows, hw⟩
        · exact hcrawled' w hw

/-- Rows and pid stay together in every run, and so no index below the cursor
is missing and none is stored twice. -/
structure Consistent (envs : List Env) (d : Db NFTokens) : Prop where
  together : ∀ p ∈ starts step envs d, Together p.1 p.2 (step p.1 p.2)
  complete : Complete envs d

/-- **Consistency.** A sequence of runs keeps the NF tokens and the cursor
consistent exactly when no run of it has its commit as the first failure. -/
theorem consistent_iff_commits (envs : List Env) (d : Db NFTokens) :
    Consistent envs d ↔ ∀ p ∈ starts step envs d, ¬ CommitFailsFirst p.1 p.2 := by
  constructor
  · intro h p hp
    exact (together_iff p.1 p.2).mp (h.together p hp)
  · intro h
    have htogether : ∀ p ∈ starts step envs d, Together p.1 p.2 (step p.1 p.2) :=
      fun p hp => (together_iff p.1 p.2).mpr (h p hp)
    exact ⟨htogether, complete_of_together htogether⟩

/-! ## A commit that fails -/

/-- A contract with one NF token. -/
def exampleContext : Context where
  networkPid := .ok 1
  crawlNFTokens pids := .ok (pids.map fun pid =>
    some ⟨"AirNFT", "0xc1", pid, some "https://nft/0", none⟩)
  one_each pids crawled h := by
    cases h
    exact List.length_map _

def exampleEnv : Env :=
  ⟨exampleContext, { Faults.none with commitTransaction := some (rawError "ECONNRESET") }⟩

def exampleDb : Db NFTokens :=
  ⟨some ⟨"EVERY_SECOND", none, some 0, false, true, true⟩, Table.empty⟩

/-- The connection is lost at the commit: the pid stands at `1` and the token
with index `0` is not stored. -/
theorem failed_commit_not_consistent : ¬ Consistent [exampleEnv] exampleDb := by
  intro hconsistent
  obtain ⟨_, written, hstored, hpids, _⟩ := hconsistent
  have hnone : stored (runAll step [exampleEnv] exampleDb).tables = [] := by decide
  have hcursor : cursor (runAll step [exampleEnv] exampleDb) - cursor exampleDb = 1 := by decide
  rw [hnone] at hstored
  rw [hcursor] at hpids
  have hempty : written.map Prod.snd = [] := (List.append_eq_nil_iff.mp hstored.symm).2
  rw [List.map_eq_nil_iff.mp hempty] at hpids
  cases hpids

end BlockchainTask.SchedulerJob.NFTConsistency

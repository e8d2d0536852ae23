import BlockchainTask.Library.Runs
import BlockchainTask.SchedulerJob.LoopConnections
import BlockchainTask.SchedulerJob.OpenedRuns
import BlockchainTask.SchedulerJob.PriceTemplate

/-! # The connections that the jobs hold

A job gives back every connection it takes, with two exceptions. The finally
block of the NF-token template does not release its query runner, so each run
that connects keeps the connection. And a price update starts its transaction
before its try block, so it keeps the connection when that start fails. -/
namespace BlockchainTask.SchedulerJob.HeldConnections
open BlockchainTask.Common.Exception BlockchainTask.Helper
open BlockchainTask.Library.Effect BlockchainTask.Library.Frame BlockchainTask.Library.Transaction
open BlockchainTask.Library.Connections BlockchainTask.Library.Runs
open BlockchainTask.Repository.Farm BlockchainTask.Repository.Lending
open BlockchainTask.Repository.NFToken BlockchainTask.Repository.PricedToken
open BlockchainTask.Repository.Token
open BlockchainTask.SchedulerJob.Base BlockchainTask.SchedulerJob.OpenedRuns
open BlockchainTask.SchedulerJob.LoopConnections

/-! ## The templates that release -/

theorem keeps_rollbackAndThrow {T : Type} (fault : Option Thrown) (e : Thrown) :
    Keeps hold (do
      rollbackIfCreated fault
      .throw e : JobEff T Unit) :=
  Keeps.bind (keeps_rollbackIfCreated fault) fun _ => Keeps.throw e

/-- A block that opens a session for a window. -/
theorem balances_block {T α : Type} (w : Window T α) {body : Nat → α → JobEff T Unit}
    (h : ∀ n a, Keeps hold (body n a)) : Balances (w.block body) := by
  refine Balances.bind (Keeps.await _) fun n => ?_
  refine Balances.bind (keeps_schedulerCursor _ _) fun start => ?_
  refine Balances.bind (keeps_writeLog _) fun _ => ?_
  refine Balances.ite (balances_of_keeps (Keeps.pure ())) ?_
  refine Balances.bind (keeps_writeLog _) fun _ => Balances.bind (Keeps.await _) fun a => ?_
  exact Balances.bind (Keeps.mayFail _) fun _ => Balances.opened (h _ a) _ _

theorem held_pairRun (context : PairTemplate.Context) (faults : PairTemplate.Faults) :
    Keeps Session.held (PairTemplate.run context faults) := by
  refine Keeps.bind (keeps_held (keeps_writeLog _)) fun _ => held_guarded (Balances.tryCatch ?_ fun e =>
    keeps_rollbackAndThrow _ (errorHandler e))
  rw [pairCrawl_eq]
  exact balances_block _ fun ePid multiTokens =>
    Keeps.bind (keeps_hold (keeps_register context faults multiTokens ePid)) fun _ =>
      keeps_commitTransaction _

section
variable (network : Nat) (chain : Nat → List InteractionTemplate.Transaction)
  (env : InteractionTemplate.Env)

theorem keeps_parseResponse (response : InteractionTemplate.Response) :
    Keeps shape (InteractionTemplate.parseResponse network env response) := by
  intro s
  refine Eff.wp_final (P := fun t => shape t = shape s) ?_
  exact Eff.wp_mono (wp_readable network env response s) (fun _ _ h => by rw [h.1])
    fun _ _ h => by rw [h.1]

theorem held_interactionRun : Keeps Session.held (InteractionTemplate.run network chain env) := by
  refine Keeps.bind (keeps_held (keeps_writeLog _)) fun _ => ?_
  refine Keeps.bind (keeps_held (keeps_schedulerCursor _ _)) fun sBlock => ?_
  refine Keeps.bind (Keeps.await _) fun networkBlockNumber => Keeps.ite (Keeps.pure ()) ?_
  refine Keeps.bind (keeps_held (keeps_writeLog _)) fun _ => held_guarded (Balances.tryCatch ?_ fun e =>
    keeps_rollbackAndThrow _ (errorHandler e))
  refine Balances.bind (Keeps.await _) fun data => ?_
  refine Balances.bind (Keeps.mapEach (keeps_parseResponse network env)) fun bulkParams => ?_
  refine Balances.bind (Keeps.mayFail _) fun _ => Balances.opened ?_ _ _
  exact Keeps.bind (keeps_hold (keeps_store env _ _)) fun _ => keeps_commitTransaction _

end

/-! ## The templates that do not -/

/-- The run of the NF-token template gets to its connect, and connects. -/
def NFTConnects (context : NFTTemplate.Context) (faults : NFTTemplate.Faults) (db : Db NFTokens) :
    Prop :=
  (nftWindow context faults).Gets db ∧ faults.createQueryRunner = none ∧ faults.connect = none

/-- The runner that a block leaves owns a connection exactly when it has connected. -/
theorem owned_of_leaves {gets : Prop} {created connected : Option Thrown} {T : Type}
    {t : Session (Db T) LoggerData} (h : Leaves gets created connected t) :
    (gets ∧ created = none ∧ connected = none → owned t = 1) ∧
      (¬ (gets ∧ created = none ∧ connected = none) → owned t = 0) := by
  by_cases hgets : gets
  · rw [owned_eq, h.reached hgets]
    cases created <;> cases connected <;> simp [openedBy, hgets]
  · have hrunner := h.short hgets
    simp [owned, hrunner, hgets]

/-- The run of the NF-token template ends with the connection of its runner. -/
theorem held_nftRun (context : NFTTemplate.Context) (faults : NFTTemplate.Faults)
    (s : Session (Db NFTokens) LoggerData) :
    (NFTConnects context faults s.db → (NFTTemplate.run context faults s).2.held = s.held + 1) ∧
      (¬ NFTConnects context faults s.db → (NFTTemplate.run context faults s).2.held = s.held) := by
  let u : Session (Db NFTokens) LoggerData := { s with runner := none, log := .empty }
  have hleaves : Leaves ((nftWindow context faults).Gets s.db) faults.createQueryRunner faults.connect
      (NFTTemplate.crawl context faults u).2 :=
    Eff.wp_final (Eff.wp_mono (wp_nftCrawl context faults (s := u) rfl)
      (fun _ _ h => h.toLeaves) fun _ _ h => h.toLeaves)
  have hbalances : Balances (NFTTemplate.crawl context faults) := by
    rw [nftCrawl_eq]
    exact balances_block _ fun ePid crawled =>
      Keeps.bind (keeps_hold (keeps_createNFTokens _ crawled)) fun _ =>
        Keeps.bind (keeps_hold (keeps_updateSchedulerPid _ ePid)) fun _ => keeps_commitTransaction _
  have hheld : (NFTTemplate.run context faults s).2.held =
      s.held + owned (NFTTemplate.crawl context faults u).2 := by
    have hlast : Keeps hold (rollbackIfActive faults.rollbackAgain : JobEff NFTokens Unit) :=
      keeps_rollbackIfActive _
    refine (held_of_hold ((obs_tryFinally hlast u).trans (obs_tryCatch (fun e => ?_) u))).trans
      (hbalances u rfl)
    exact keeps_rollbackAndThrow faults.rollbackTransaction (errorHandler e)
  obtain ⟨hone, hzero⟩ := owned_of_leaves hleaves
  rw [hheld]
  exact ⟨fun h => by rw [hone h], fun h => by rw [hzero h, Nat.add_zero]⟩

/-- A price update connects, and its transaction does not start. -/
def UpdateFailsToStart (faults : PriceTemplate.Faults) : Prop :=
  faults.connect = none ∧ faults.startTransaction.isSome = true

theorem keeps_updates (faults : PriceTemplate.Faults) (bulkParams : List TokenPrice.UpdateParam) :
    Keeps hold (.tryCatch
      (do
        .forEach bulkParams fun param =>
          PriceTemplate.updateTokenWith (faults.updateToken param.id) param
        commitTransaction faults.commitTransaction)
      fun e => do
        rollbackIfActive faults.rollbackTransaction
        .throw (errorHandler e) : JobEff PricedTokens Unit) := by
  refine Keeps.tryCatch (Keeps.bind (Keeps.forEach fun param => ?_) fun _ =>
    keeps_commitTransaction _) fun e => ?_
  · exact keeps_hold (keeps_managerWrite _ _ _)
  · exact Keeps.bind (keeps_rollbackIfActive _) fun _ => Keeps.throw _

theorem held_bulkUpdate (faults : PriceTemplate.Faults)
    (bulkParams : List TokenPrice.UpdateParam) (s : Session (Db PricedTokens) LoggerData) :
    (UpdateFailsToStart faults →
        (PriceTemplate.bulkUpdate faults bulkParams s).2.held = s.held + 1) ∧
      (¬ UpdateFailsToStart faults →
        (PriceTemplate.bulkUpdate faults bulkParams s).2.held = s.held) := by
  unfold UpdateFailsToStart PriceTemplate.bulkUpdate
  cases faults.connect with
  | some e => exact ⟨fun h => (by cases h.1), fun _ => rfl⟩
  | none =>
    cases faults.startTransaction with
    | some e => exact ⟨fun _ => rfl, fun h => absurd ⟨rfl, rfl⟩ h⟩
    | none =>
      refine ⟨fun h => (by cases h.2), fun _ => ?_⟩
      let u : Session (Db PricedTokens) LoggerData :=
        { s with runner := some ⟨true, false, some id⟩, held := s.held + 1 }
      refine (held_tryFinally_release _ u).trans ?_
      have hkept := keeps_updates faults bulkParams u
      rw [held_of_hold hkept, owned_of_hold hkept]
      rfl

/-! ## All jobs -/

/-- One run of a job, with the data it starts on. -/
inductive Activation where
  | pair (context : PairTemplate.Context) (faults : PairTemplate.Faults) (db : Db Tokens)
  | interaction (network : Nat) (chain : Nat → List InteractionTemplate.Transaction)
      (env : InteractionTemplate.Env) (db : Db InteractionTemplate.Interactions)
  | nft (context : NFTTemplate.Context) (faults : NFTTemplate.Faults) (db : Db NFTokens)
  | bulkUpdate (faults : PriceTemplate.Faults) (bulkParams : List TokenPrice.UpdateParam)
      (db : Db PricedTokens)
  | staked (env : FarmTemplate.Env FarmTemplate.PoolInfo) (rewards : FarmTemplate.Staked.Rewards)
      (db : Db Farms)
  | apeSwap (env : FarmTemplate.Env FarmTemplate.PoolInfo)
      (rewards : FarmTemplate.Staked.Rewards) (db : Db Farms)
  | mdex (env : FarmTemplate.Env FarmTemplate.Mdex.MdexPoolInfo)
      (rewards : FarmTemplate.Mdex.Rewards) (db : Db Farms)
  | autoFarm (env : AutoFarm.AutoEnv) (rewards : FarmTemplate.Staked.Rewards) (db : Db Farms)
  | bakery (env : BakeryFarm.BakeryEnv) (rewards : FarmTemplate.Staked.Rewards) (db : Db Farms)
  | rewarder (service : RewarderFarm.RewardService) (env : RewarderFarm.RewarderEnv) (db : Db Farms)
  | farm2 (env : Farm2.Env) (db : Db Farms)
  | lending (env : VenusLending.Env) (db : Db Lendings)

/-- The connections held after a computation, from how many are held before it. -/
def heldBy {T : Type} (run : JobEff T Unit) (db : Db T) (held : Nat) : Nat :=
  (run ⟨db, none, held, .empty⟩).2.held

def Activation.held : Activation → Nat → Nat
  | .pair context faults db => heldBy (PairTemplate.run context faults) db
  | .interaction network chain env db => heldBy (InteractionTemplate.run network chain env) db
  | .nft context faults db => heldBy (NFTTemplate.run context faults) db
  | .bulkUpdate faults bulkParams db => heldBy (PriceTemplate.bulkUpdate faults bulkParams) db
  | .staked env rewards db => heldBy (FarmTemplate.Staked.run env rewards) db
  | .apeSwap env rewards db => heldBy (FarmTemplate.ApeSwapBSCFarmService.run env rewards) db
  | .mdex env rewards db => heldBy (FarmTemplate.Mdex.run env rewards) db
  | .autoFarm env rewards db => heldBy (AutoFarm.AutoFarmBSCFarmService.run env rewards) db
  | .bakery env rewards db => heldBy (BakeryFarm.BakerySwapBSCFarmService.run env rewards) db
  | .rewarder service env db => heldBy (RewarderFarm.run service env) db
  | .farm2 env db => heldBy (Farm2.run env) db
  | .lending env db => heldBy (VenusLending.VenusJobBSCLendingService.run env) db

/-- The run is none of the two kinds that keep a connection. -/
def Activation.Releases : Activation → Prop
  | .nft context faults db => ¬ NFTConnects context faults db
  | .bulkUpdate faults _ _ => ¬ UpdateFailsToStart faults
  | _ => True

theorem held_of_keeps {T : Type} {run : JobEff T Unit} (h : Keeps Session.held run) (db : Db T)
    (n : Nat) : heldBy run db n = n := h ⟨db, none, n, .empty⟩

/-- A run gives back what it takes, or keeps one connection. -/
theorem Activation.held_step (a : Activation) (n : Nat) :
    (a.Releases → a.held n = n) ∧ (¬ a.Releases → a.held n = n + 1) := by
  have hkeeps : a.held n = n → a.Releases →
      (a.Releases → a.held n = n) ∧ (¬ a.Releases → a.held n = n + 1) :=
    fun hheld hreleases => ⟨fun _ => hheld, fun h => absurd hreleases h⟩
  cases a with
  | pair context faults db => exact hkeeps (held_of_keeps (held_pairRun context faults) db n) trivial
  | interaction network chain env db =>
    exact hkeeps (held_of_keeps (held_interactionRun network chain env) db n) trivial
  | nft context faults db =>
    obtain ⟨hone, hzero⟩ := held_nftRun context faults ⟨db, none, n, .empty⟩
    exact ⟨hzero, fun h => hone (not_not.mp h)⟩
  | bulkUpdate faults bulkParams db =>
    obtain ⟨hone, hzero⟩ := held_bulkUpdate faults bulkParams ⟨db, none, n, .empty⟩
    exact ⟨hzero, fun h => hone (not_not.mp h)⟩
  | staked env rewards db =>
    exact hkeeps (held_of_keeps (held_run FarmTemplate.Staked.pools env _) db n) trivial
  | apeSwap env rewards db =>
    exact hkeeps (held_of_keeps (held_run FarmTemplate.ApeSwapBSCFarmService.pools env _) db n)
      trivial
  | mdex env rewards db =>
    exact hkeeps (held_of_keeps (held_run FarmTemplate.Mdex.pools env _) db n) trivial
  | autoFarm env rewards db =>
    exact hkeeps (held_of_keeps (held_autoRun env rewards) db n) trivial
  | bakery env rewards db =>
    exact hkeeps (held_of_keeps (held_bakeryRun env rewards) db n) trivial
  | rewarder service env db =>
    exact hkeeps (held_of_keeps (held_rewarderRun service env) db n) trivial
  | farm2 env db => exact hkeeps (held_of_keeps (held_farm2Run env) db n) trivial
  | lending env db => exact hkeeps (held_of_keeps (held_lendingRun env) db n) trivial

theorem le_runAll_held (as : List Activation) (n : Nat) : n ≤ runAll Activation.held as n := by
  refine runAll_rel (r := fun a b => a ≤ b) Nat.le_refl (fun _ _ _ => Nat.le_trans) fun a m _ => ?_
  obtain ⟨hkept, hlost⟩ := a.held_step m
  by_cases hreleases : a.Releases
  · rw [hkept hreleases]
  · rw [hlost hreleases]
    omega

/-- **No leak.** After any sequence of runs as many connections are held as before it,
exactly when none of them is a run of the NF-token template that connects, or a price
update whose transaction does not start after the connect. -/
theorem held_runAll_iff (as : List Activation) (n : Nat) :
    runAll Activation.held as n = n ↔ ∀ a ∈ as, a.Releases := by
  induction as generalizing n with
  | nil => simp
  | cons a as ih =>
    rw [runAll_cons, List.forall_mem_cons]
    obtain ⟨hkept, hlost⟩ := a.held_step n
    by_cases hreleases : a.Releases
    · rw [hkept hreleases, ih n]
      exact ⟨fun h => ⟨hreleases, h⟩, fun h => h.2⟩
    · rw [hlost hreleases]
      have hgrows := le_runAll_held as (n + 1)
      refine ⟨fun h => ?_, fun h => absurd h.1 hreleases⟩
      omega

/-- A run of the NF-token template that stores one token. -/
def exampleActivation : Activation :=
  .nft ⟨.ok 1, fun pids => .ok (pids.map fun pid => some ⟨"AirNFT", "0xc1", pid, none, none⟩),
      fun pids crawled h => by
        cases h
        exact List.length_map _⟩
    NFTTemplate.Faults.none
    ⟨some ⟨"EVERY_SECOND", none, some 0, false, true, true⟩, Library.Store.Table.empty⟩

/-- It succeeds, and the connection is not given back. -/
theorem nft_run_leaks : ¬ ∀ (as : List Activation) (n : Nat), runAll Activation.held as n = n := by
  intro hall
  have hsame := hall [exampleActivation] 0
  have hone : runAll Activation.held [exampleActivation] 0 = 1 := by decide
  omega

end BlockchainTask.SchedulerJob.HeldConnections

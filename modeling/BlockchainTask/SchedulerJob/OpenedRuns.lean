import BlockchainTask.Library.Connections
import BlockchainTask.SchedulerJob.InteractionTemplate
import BlockchainTask.SchedulerJob.NFTTemplate
import BlockchainTask.SchedulerJob.PairTemplate

/-! # How far a run gets with its query runner

The try block of a template reads first, and then creates a query runner,
connects it and starts a transaction. Whether it gets to the runner is decided
by its reads alone, and what happens after the connect no longer changes what
the runner holds. -/
namespace BlockchainTask.SchedulerJob.OpenedRuns
open BlockchainTask.Common.Exception BlockchainTask.Helper
open BlockchainTask.Library.Effect BlockchainTask.Library.Frame BlockchainTask.Library.Transaction
open BlockchainTask.Library.Connections
open BlockchainTask.SchedulerJob.Base

/-! ## The reads before the runner -/

/-- The reads of a run answer, and the cursor is behind: the scheduler's row is
found, and the chain answers for the window from the cursor on. -/
structure GetsToRunner {T : Type} (findScheduler : Option Thrown) (column : Scheduler → Option Nat)
    (total : Except Thrown Nat) (chunkSize : Nat) (answers : Nat → Nat → Prop) (d : Db T) : Prop where
  found : findScheduler = none ∧ d.scheduler.isSome = true
  behind : ∃ n, total = .ok n ∧ d.cursor column < n ∧
    answers (d.cursor column) (chunkEnd chunkSize (d.cursor column) n)

/-- The runner that a block leaves, which gets to it or not. -/
structure Leaves (gets : Prop) (created connected : Option Thrown) {T : Type}
    (t : Session (Db T) LoggerData) : Prop where
  reached : gets → (hold t).2 = openedBy created connected
  short : ¬ gets → t.runner = none

/-- A block that gets there and returns has connected. -/
structure Returns (gets : Prop) (created connected : Option Thrown) {T : Type}
    (t : Session (Db T) LoggerData) : Prop extends Leaves gets created connected t where
  connects : gets → created = none ∧ connected = none

/-- A block that throws leaves a transaction to end, unless it is the connect
that has failed. -/
structure Fails (gets : Prop) (created connected : Option Thrown) {T : Type}
    (t : Session (Db T) LoggerData) : Prop extends Leaves gets created connected t where
  recovers : gets → recoverable t = !(created.isNone && connected.isSome)

theorem Returns.of_short {gets : Prop} {created connected : Option Thrown} {T : Type}
    {t : Session (Db T) LoggerData} (hgets : ¬ gets) (hrunner : t.runner = none) :
    Returns gets created connected t :=
  ⟨⟨fun h => absurd h hgets, fun _ => hrunner⟩, fun h => absurd h hgets⟩

theorem Fails.of_short {gets : Prop} {created connected : Option Thrown} {T : Type}
    {t : Session (Db T) LoggerData} (hgets : ¬ gets) (hrunner : t.runner = none) :
    Fails gets created connected t :=
  ⟨⟨fun h => absurd h hgets, fun _ => hrunner⟩, fun h => absurd h hgets⟩

theorem keeps_schedulerCursor {T : Type} (fault : Option Thrown) (column : Scheduler → Option Nat) :
    Keeps shape (schedulerCursor fault column : JobEff T Nat) := by
  refine Keeps.bind (keeps_connectionRead fault _) fun scheduler => ?_
  cases scheduler with
  | none => exact Keeps.throw _
  | some r => exact Keeps.pure _

theorem keeps_updateSchedulerWith {T : Type} (fault : Option Thrown) (set : Scheduler → Scheduler) :
    Keeps shape (updateSchedulerWith fault set : JobEff T Unit) := keeps_managerWrite fault _ _

/-- What a block that opens a session for a window of the chain depends on. -/
structure Window (T α : Type) where
  findScheduler : Option Thrown
  column : Scheduler → Option Nat
  total : Except Thrown Nat
  chunkSize : Nat
  answer : Nat → Nat → Except Thrown α
  created : Option Thrown
  connected : Option Thrown
  started : Option Thrown
  read : Nat → Nat → LoggerData → LoggerData
  left : Nat → Nat → LoggerData → LoggerData

def Window.Gets {T α : Type} (w : Window T α) (d : Db T) : Prop :=
  GetsToRunner w.findScheduler w.column w.total w.chunkSize
    (fun start stop => ∃ a, w.answer start stop = .ok a) d

/-- The block, with what it does in the session. -/
def Window.block {T α : Type} (w : Window T α) (body : Nat → α → JobEff T Unit) :
    JobEff T Unit := do
  let n ← .await w.total
  let start ← schedulerCursor w.findScheduler w.column
  writeLog (w.read n start)
  if start ≥ n then pure ()
  else
    writeLog (w.left start (chunkEnd w.chunkSize start n))
    let a ← .await (w.answer start (chunkEnd w.chunkSize start n))
    .mayFail w.created
    createQueryRunner
    connect w.connected
    startTransaction w.started
    body (chunkEnd w.chunkSize start n) a

theorem Window.wp_block {T α : Type} (w : Window T α) {body : Nat → α → JobEff T Unit}
    (hkeeps : ∀ n a, Keeps hold (body n a)) (hopen : ∀ n a, OpenOnError (body n a))
    {s : Session (Db T) LoggerData} (hs : s.runner = none) :
    Eff.wp (w.block body) (fun _ t => Returns (w.Gets s.db) w.created w.connected t)
      (fun _ t => Fails (w.Gets s.db) w.created w.connected t) s := by
  unfold Window.block
  rw [Eff.wp_bind, Eff.wp_await]
  refine ⟨fun n hn => ?_, fun e he => .of_short (fun h => ?_) hs⟩
  rotate_left
  · obtain ⟨n, hn, _⟩ := h.behind
    rw [he] at hn
    cases hn
  rw [Eff.wp_bind]
  refine wp_schedulerCursor (fun r hfind hr => ?_) fun e hfail => .of_short (fun h => hfail h.found) hs
  have hcursor : s.db.cursor w.column = (w.column r).getD 0 := by simp [Db.cursor, hr]
  rw [← hcursor]
  simp only [writeLog]
  rw [Eff.wp_bind, Eff.wp_update, Eff.wp_ite]
  refine ⟨fun hdone => .of_short (fun h => ?_) hs, fun hlt => ?_⟩
  · obtain ⟨n', hn', hbehind, _⟩ := h.behind
    rw [hn] at hn'
    cases hn'
    omega
  rw [Eff.wp_bind, Eff.wp_update, Eff.wp_bind, Eff.wp_await]
  refine ⟨fun a ha => ?_, fun e he => .of_short (fun h => ?_) hs⟩
  rotate_left
  · obtain ⟨n', hn', _, a, ha⟩ := h.behind
    rw [hn] at hn'
    cases hn'
    rw [he] at ha
    cases ha
  have hgets : w.Gets s.db :=
    ⟨⟨hfind, by rw [hr]; rfl⟩, n, hn, Nat.not_le.mp hlt, a, ha⟩
  refine Eff.wp_mono (wp_opening (hkeeps _ a) (hopen _ a) _ _ _ hs) (fun _ t ht => ?_)
    fun _ t ht => ?_
  · exact ⟨⟨fun _ => ht.1, fun h => absurd hgets h⟩, fun _ => ht.2⟩
  · exact ⟨⟨fun _ => ht.1, fun h => absurd hgets h⟩, fun _ => ht.2⟩

/-! ## The pair job -/

section
open BlockchainTask.Repository.Token BlockchainTask.SchedulerJob.PairTemplate
variable (context : PairTemplate.Context) (faults : PairTemplate.Faults)

theorem keeps_toCheckSumAddress (address : Option String) :
    Keeps shape (toCheckSumAddress context address) := by
  unfold toCheckSumAddress
  split
  · exact Keeps.pure _
  · exact Keeps.throw _

theorem keeps_createTokensIfNotExist (fault : Option Thrown) (params : List TokenRow) :
    Keeps shape (createTokensIfNotExist fault params) := keeps_managerWrite fault _ _

theorem keeps_findToken (fault : Option Thrown) (address : Option String) :
    Keeps shape (PairTemplate.findToken context fault address) := keeps_managerRead fault _

theorem keeps_removeRegisteredTokens (multiTokenAddresses : List String)
    (singleTokenAddresses : List (Option String)) :
    Keeps shape (removeRegisteredTokens context faults multiTokenAddresses singleTokenAddresses) :=
  Keeps.bind (keeps_connectionRead _ _) fun _ => Keeps.bind (keeps_connectionRead _ _) fun _ =>
    Keeps.pure _

theorem keeps_removeInvalidTokens (multiTokenAddresses singleTokenAddresses : List (Option String)) :
    Keeps shape (removeInvalidTokens context multiTokenAddresses singleTokenAddresses) :=
  Keeps.bind (Keeps.mapEach (keeps_toCheckSumAddress context)) fun _ =>
    Keeps.bind (Keeps.await _) fun _ => Keeps.pure _

theorem keeps_safePairInfos (address : String) : Keeps shape (safePairInfos context address) := by
  unfold safePairInfos
  split
  · exact Keeps.pure _
  · exact Keeps.throw _
  · exact Keeps.pure _

theorem keeps_checkMultiTokenInSinglePosition
    (singleTokenAddresses invalidSingleTokenAddresses : List String) :
    Keeps shape (checkMultiTokenInSinglePosition context singleTokenAddresses
      invalidSingleTokenAddresses) :=
  Keeps.bind
    (Keeps.tryCatch (Keeps.await _) fun _ => Keeps.mapEach (keeps_safePairInfos context))
    fun _ => Keeps.pure _

theorem keeps_settledInfo (address : String) : Keeps shape (settledInfo context address) := by
  unfold settledInfo
  split
  · exact Keeps.bind (Keeps.await _) fun _ => Keeps.pure _
  · exact Keeps.pure _

theorem keeps_getTokenInfos (addresses : List String) :
    Keeps shape (getTokenInfos context addresses) :=
  Keeps.tryCatch (Keeps.await _) fun _ => Keeps.mapEach (keeps_settledInfo context)

theorem keeps_infoAt (infos : List InfoEntry) (index : Nat) : Keeps shape (infoAt infos index) := by
  unfold infoAt
  split
  · exact Keeps.await _
  · exact Keeps.throw _

theorem keeps_createSingleTokens (singleTokenAddresses : List String)
    (singleTokenInfos : List InfoEntry) :
    Keeps shape (createSingleTokens context faults singleTokenAddresses singleTokenInfos) :=
  Keeps.bind
    (Keeps.mapEach fun p => Keeps.bind (keeps_infoAt singleTokenInfos p.2) fun _ => Keeps.pure _)
    fun _ => keeps_createTokensIfNotExist _ _

theorem keeps_firstPass (multiTokenInfos : List InfoEntry) (multiTokenComposed : List PairInfo)
    (invalidSingleTokenAddresses : List String) (p : String × Nat) :
    Keeps shape (firstPass context faults multiTokenInfos multiTokenComposed
      invalidSingleTokenAddresses p) := by
  refine Keeps.bind (keeps_infoAt multiTokenInfos p.2) fun info => ?_
  split
  · exact Keeps.throw _
  · exact Keeps.ite (Keeps.pure _) (Keeps.bind (keeps_findToken context _ _) fun _ =>
      Keeps.bind (keeps_findToken context _ _) fun _ => Keeps.pure _)

theorem keeps_secondPass (p : Deferred × Nat) : Keeps shape (secondPass context faults p) := by
  refine Keeps.bind (keeps_findToken context _ _) fun registeredToken0 => ?_
  refine Keeps.bind (keeps_findToken context _ _) fun registeredToken1 => ?_
  split
  · exact Keeps.throw _
  · refine Keeps.ite (Keeps.pure _) ?_
    split
    · exact Keeps.throw _
    · exact Keeps.pure _

theorem keeps_createMultiTokens (multiTokenAddresses : List String)
    (multiTokenInfos : List InfoEntry) (multiTokenComposed : List PairInfo)
    (invalidSingleTokenAddresses : List String) :
    Keeps shape (createMultiTokens context faults multiTokenAddresses multiTokenInfos
      multiTokenComposed invalidSingleTokenAddresses) := by
  refine Keeps.bind (Keeps.mapEach (keeps_firstPass context faults _ _ _)) fun decisions => ?_
  refine Keeps.bind (keeps_createTokensIfNotExist _ _) fun _ => Keeps.when ?_
  exact Keeps.bind (Keeps.mapEach (keeps_secondPass context faults)) fun _ =>
    keeps_createTokensIfNotExist _ _

theorem keeps_getPairsInfo (multiTokens : List (Option String)) :
    Keeps shape (PairTemplate.getPairsInfo context multiTokens) := by
  unfold PairTemplate.getPairsInfo
  split
  · exact Keeps.throw _
  · exact Keeps.await _

theorem keeps_doTask (multiTokens : List (Option String)) :
    Keeps shape (doTask context faults multiTokens) :=
  Keeps.bind (keeps_getPairsInfo context multiTokens) fun _ =>
    Keeps.bind (keeps_removeRegisteredTokens context faults _ _) fun _ =>
      Keeps.bind (keeps_removeInvalidTokens context _ _) fun _ =>
        Keeps.bind (keeps_checkMultiTokenInSinglePosition context _ _) fun _ =>
          Keeps.bind (keeps_getTokenInfos context _) fun _ =>
            Keeps.bind (keeps_getTokenInfos context _) fun _ =>
              Keeps.bind (Keeps.when (keeps_createSingleTokens context faults _ _)) fun _ =>
                Keeps.when (keeps_createMultiTokens context faults _ _ _ _)

theorem keeps_register (multiTokens : List (Option String)) (ePid : Nat) :
    Keeps shape (register context faults multiTokens ePid) :=
  Keeps.bind (keeps_doTask context faults multiTokens) fun _ => keeps_updateSchedulerWith _ _

/-- What the try block of `PairTemplate.run` depends on. -/
def pairWindow : Window Tokens (List (Option String)) where
  findScheduler := faults.findScheduler
  column := Scheduler.pid
  total := context.getAMMFactoryTotalLength
  chunkSize := PairTemplate.chunkSize
  answer sPid ePid := context.getAMMFactoryInfos (fillSequenceNumber (ePid - sPid) sPid)
  created := faults.createQueryRunner
  connected := faults.connect
  started := faults.startTransaction
  read networkPid sPid l := { l with total := some networkPid, current := some sPid }
  left sPid ePid l := { l with start := some sPid, end_ := some ePid }

theorem pairCrawl_eq :
    PairTemplate.crawl context faults = (pairWindow context faults).block (fun ePid multiTokens => do
      let _ ← register context faults multiTokens ePid
      commitTransaction faults.commitTransaction) := rfl

theorem wp_pairCrawl {s : Session (Db Tokens) LoggerData} (hs : s.runner = none) :
    Eff.wp (PairTemplate.crawl context faults)
      (fun _ t => Returns ((pairWindow context faults).Gets s.db) faults.createQueryRunner
        faults.connect t)
      (fun _ t => Fails ((pairWindow context faults).Gets s.db) faults.createQueryRunner
        faults.connect t) s := by
  rw [pairCrawl_eq]
  refine (pairWindow context faults).wp_block (fun ePid multiTokens => ?_)
    (fun ePid multiTokens => ?_) hs
  · exact Keeps.bind (keeps_hold (keeps_register context faults multiTokens ePid)) fun _ =>
      keeps_commitTransaction _
  · exact OpenOnError.bind (keeps_register context faults multiTokens ePid) fun _ =>
      openOnError_commitTransaction _

end

/-! ## The NF-token job -/

section
open BlockchainTask.Repository.NFToken BlockchainTask.SchedulerJob.NFTTemplate
variable (context : NFTTemplate.Context) (faults : NFTTemplate.Faults)

theorem keeps_createNFTokens (fault : Option Thrown) (params : List (Option NFTokenRow)) :
    Keeps shape (createNFTokens fault params) := keeps_managerWrite fault _ _

theorem keeps_updateSchedulerPid (fault : Option Thrown) (endPid : Nat) :
    Keeps shape (updateSchedulerPid fault endPid) := keeps_connectionWrite fault _

/-- What the try block of `NFTTemplate.run` depends on. -/
def nftWindow : Window NFTokens (List (Option NFTokenRow)) where
  findScheduler := faults.findScheduler
  column := Scheduler.pid
  total := context.networkPid
  chunkSize := NFTTemplate.chunkSize
  answer sPid ePid := context.crawlNFTokens (fillSequenceNumber (ePid - sPid) sPid)
  created := faults.createQueryRunner
  connected := faults.connect
  started := faults.startTransaction
  read networkPid _ l := { l with total := some networkPid }
  left sPid ePid l := { l with worked := fillSequenceNumber (ePid - sPid) sPid }

theorem nftCrawl_eq :
    NFTTemplate.crawl context faults = (nftWindow context faults).block (fun ePid crawled => do
      createNFTokens faults.createNFTokens crawled
      updateSchedulerPid faults.updateScheduler ePid
      commitTransaction faults.commitTransaction) := rfl

theorem wp_nftCrawl {s : Session (Db NFTokens) LoggerData} (hs : s.runner = none) :
    Eff.wp (NFTTemplate.crawl context faults)
      (fun _ t => Returns ((nftWindow context faults).Gets s.db) faults.createQueryRunner
        faults.connect t)
      (fun _ t => Fails ((nftWindow context faults).Gets s.db) faults.createQueryRunner
        faults.connect t) s := by
  rw [nftCrawl_eq]
  refine (nftWindow context faults).wp_block (fun ePid crawled => ?_) (fun ePid crawled => ?_) hs
  · exact Keeps.bind (keeps_hold (keeps_createNFTokens _ crawled)) fun _ =>
      Keeps.bind (keeps_hold (keeps_updateSchedulerPid _ ePid)) fun _ => keeps_commitTransaction _
  · exact OpenOnError.bind (keeps_createNFTokens _ crawled) fun _ =>
      OpenOnError.bind (keeps_updateSchedulerPid _ ePid) fun _ => openOnError_commitTransaction _

end

/-! ## The interaction job -/

section
open BlockchainTask.SchedulerJob.InteractionTemplate
variable (network : Nat) (chain : Nat → List Transaction) (env : InteractionTemplate.Env)

/-- The callback over the entries does not throw for this one. -/
def Readable : Response → Prop
  | .error => True
  | .result none => False
  | .result (some transactions) =>
    transactions = [] ∨ env.checkFault (transactions.map fun t => t.to_.getD ZERO_ADDRESS) = none

/-- The blocks of a window are answered, and each entry can be read. -/
def BlocksRead (sBlock eBlock : Nat) : Prop :=
  ∃ data, getBatchBlockInfos chain env (fillSequenceNumber (eBlock - sBlock) sBlock) = .ok data ∧
    ∀ response ∈ data, Readable env response

theorem wp_readable (response : Response) (s : Session (Db Interactions) LoggerData) :
    Eff.wp (parseResponse network env response) (fun _ t => t = s ∧ Readable env response)
      (fun _ t => t = s ∧ ¬ Readable env response) s := by
  cases response with
  | error => exact ⟨rfl, trivial⟩
  | result block =>
    cases block with
    | none => exact ⟨rfl, fun h => h⟩
    | some transactions =>
      simp only [parseResponse, parseContractInteractionTransaction, Eff.wp_bind, Eff.wp_ite,
        Eff.wp_pure, Eff.wp_await, Readable, List.length_map, List.length_eq_zero_iff]
      refine ⟨fun hempty => ⟨trivial, Or.inl hempty⟩, fun hsome => ?_⟩
      unfold getBatchCheckCA
      cases hfault : env.checkFault (transactions.map fun t => t.to_.getD ZERO_ADDRESS) with
      | none => exact ⟨fun _ _ => ⟨trivial, Or.inr rfl⟩, fun _ he => by cases he⟩
      | some e =>
        refine ⟨fun _ hok => (by cases hok), fun _ _ => ⟨trivial, fun h => ?_⟩⟩
        rcases h with hempty | hnone
        · exact hsome hempty
        · cases hnone

theorem keeps_store (bulkParams : List Interaction) (eBlock : Nat) :
    Keeps shape (store env bulkParams eBlock) :=
  Keeps.bind (keeps_managerWrite _ _ _) fun _ => keeps_updateSchedulerWith _ _

theorem wp_interactionCrawl (sBlock eBlock : Nat) {s : Session (Db Interactions) LoggerData}
    (hs : s.runner = none) :
    Eff.wp (InteractionTemplate.crawl network chain env sBlock eBlock)
      (fun _ t => Returns (BlocksRead chain env sBlock eBlock) env.createQueryRunner env.connect t)
      (fun _ t => Fails (BlocksRead chain env sBlock eBlock) env.createQueryRunner env.connect t)
      s := by
  simp only [InteractionTemplate.crawl, getBatchBlockWithTransaction]
  rw [Eff.wp_bind, Eff.wp_await]
  refine ⟨fun data hdata => ?_, fun e hfail => .of_short (fun h => ?_) hs⟩
  rotate_left
  · obtain ⟨data, hdata, _⟩ := h
    rw [hfail] at hdata
    cases hdata
  rw [Eff.wp_bind]
  have hparse : Eff.wp (.mapEach data (parseResponse network env))
      (fun params t => t = s ∧ List.Forall₂ (fun response _ => Readable env response) data params)
      (fun _ t => t = s ∧ ∃ response ∈ data, ¬ Readable env response) s := by
    refine Eff.wp_mapEach (· = s) _ (fun response hmem t ht => ?_) rfl
    subst ht
    exact Eff.wp_mono (wp_readable network env response t) (fun _ _ h => h)
      fun _ _ h => ⟨h.1, response, hmem, h.2⟩
  refine Eff.wp_mono hparse (fun params t ht => ?_) fun e t ht => ?_
  rotate_left
  · obtain ⟨rfl, response, hmem, hunreadable⟩ := ht
    refine .of_short (fun h => ?_) hs
    obtain ⟨data', hdata', hread⟩ := h
    rw [hdata] at hdata'
    cases hdata'
    exact hunreadable (hread response hmem)
  obtain ⟨rfl, hparams⟩ := ht
  have hgets : BlocksRead chain env sBlock eBlock := by
    refine ⟨data, hdata, fun response hmem => ?_⟩
    obtain ⟨_, _, hread⟩ := Eff.exists_result hparams hmem
    exact hread
  have hkeeps : Keeps shape (store env (env.settle (params.filterMap id)).flatten eBlock) :=
    keeps_store env _ eBlock
  refine Eff.wp_mono (wp_opening
    (Keeps.bind (keeps_hold hkeeps) fun _ => keeps_commitTransaction env.commitTransaction)
    (OpenOnError.bind hkeeps fun _ => openOnError_commitTransaction env.commitTransaction)
    _ _ _ hs) (fun _ u hu => ?_) fun _ u hu => ?_
  · exact ⟨⟨fun _ => hu.1, fun h => absurd hgets h⟩, fun _ => hu.2⟩
  · exact ⟨⟨fun _ => hu.1, fun h => absurd hgets h⟩, fun _ => hu.2⟩

end

end BlockchainTask.SchedulerJob.OpenedRuns

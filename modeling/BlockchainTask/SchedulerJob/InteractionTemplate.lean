import BlockchainTask.Helper
import BlockchainTask.Library.Runs
import BlockchainTask.Library.Store
import BlockchainTask.SchedulerJob.Base

/-! # The interaction job

Each run of `InteractionTemplate` asks the node for the next blocks in one
batch request, keeps the transactions that were sent to a contract, and stores
who interacted with what, together with the number of the next block to read.
-/
namespace BlockchainTask.SchedulerJob.InteractionTemplate
open BlockchainTask.Helper BlockchainTask.Common.Exception
open BlockchainTask.Library.Effect BlockchainTask.Library.Transaction
open BlockchainTask.Library.Runs BlockchainTask.Library.Store
open BlockchainTask.SchedulerJob.Base

/-! ## Blocks, the table and the node -/

structure Transaction where
  from_ : String
  to_ : Option String
  deriving DecidableEq

structure Interaction where
  network : Nat
  from_address : String
  to_address : Option String
  deriving DecidableEq

/-- The unique index `['network', 'from_address', 'to_address']`. -/
def Interaction.key (r : Interaction) : Option (Nat × String × String) :=
  r.to_address.map fun a => (r.network, toLowerCase r.from_address, toLowerCase a)

abbrev Interactions : Type := Table Interaction (Nat × String × String) Interaction.key

/-- `toCheckSum`, before an insert: only an address that is missing is given to
`getAddress`, which rejects it. -/
def Interaction.toCheckSum (r : Interaction) : Option Thrown :=
  if r.from_address = "" ∨ r.to_address.getD "" = "" then some (rawError "invalid address")
  else none

/-- One entry of the batch response. A result without transactions (a null
block) makes the read of them fail. -/
inductive Response where
  | error
  | result (transactions : Option (List Transaction))
  deriving DecidableEq

/-- How the node answers for one block. -/
inductive Answer where
  | result
  | missing
  | error
  deriving DecidableEq

def Answer.response (a : Answer) (transactions : List Transaction) : Response :=
  match a with
  | .result => .result (some transactions)
  | .missing => .result none
  | .error => .error

/-- The surroundings of one run: what the node answers, the order in which the
entries of the response come and in which the contract checks settle, and where
the database fails. -/
structure Env where
  getBlockNumber : Except Thrown Nat
  batchFault : Option Thrown
  answer : Nat → Answer
  order : List Response → List Response
  order_perm : ∀ l, (order l).Perm l
  isContract : String → Bool
  checkFault : List String → Option Thrown
  settle : List (List Interaction) → List (List Interaction)
  settle_perm : ∀ l, (settle l).Perm l
  findScheduler : Option Thrown
  createQueryRunner : Option Thrown
  connect : Option Thrown
  startTransaction : Option Thrown
  bulkCreate : Option Thrown
  updateScheduler : Option Thrown
  commitTransaction : Option Thrown
  rollbackTransaction : Option Thrown

/-- Surroundings in which every call answers. -/
def Env.steady (total : Nat) (answer : Nat → Answer) (isContract : String → Bool) : Env where
  getBlockNumber := .ok total
  batchFault := none
  answer := answer
  order := id
  order_perm := fun _ => List.Perm.refl _
  isContract := isContract
  checkFault := fun _ => none
  settle := id
  settle_perm := fun _ => List.Perm.refl _
  findScheduler := none
  createQueryRunner := none
  connect := none
  startTransaction := none
  bulkCreate := none
  updateScheduler := none
  commitTransaction := none
  rollbackTransaction := none

def chunkSize : Nat := 10

theorem chunkSize_pos : 0 < chunkSize := by decide

section
variable (network : Nat) (chain : Nat → List Transaction) (env : Env)

def getBatchBlockInfos (blockNumbers : List Nat) : Except Thrown (List Response) :=
  match env.batchFault with
  | some e => .error e
  | none => .ok (env.order (blockNumbers.map fun b => (env.answer b).response (chain b)))

def getBatchCheckCA (addresses : List String) : Except Thrown (List Bool) :=
  match env.checkFault addresses with
  | some e => .error e
  | none => .ok (addresses.map env.isContract)

/-! ## The run -/

def getSchedulerBlockNumber : JobEff Interactions Nat :=
  schedulerCursor env.findScheduler Scheduler.block_number

def getBatchBlockWithTransaction (sBlock eBlock : Nat) : JobEff Interactions (List Response) :=
  .await (getBatchBlockInfos chain env (fillSequenceNumber (eBlock - sBlock) sBlock))

def bulkCreate (bulkParams : List Interaction) : JobEff Interactions Unit :=
  managerWrite env.bulkCreate (fun _ => bulkParams.findSome? Interaction.toCheckSum)
    (Db.setTables fun t => t.insertAll bulkParams)

def parseContractInteractionTransaction (transactions : List Transaction) :
    JobEff Interactions (List Interaction) := do
  let toAddresses := transactions.map fun t => t.to_.getD ZERO_ADDRESS
  if toAddresses.length = 0 then pure []
  else
    let checkCA ← .await (getBatchCheckCA env toAddresses)
    let contractInteractionTransactions := (transactions.zip checkCA).filter Prod.snd
    pure (contractInteractionTransactions.map fun p => ⟨network, p.1.from_, p.1.to_⟩)

/-- The callback over the entries; `none` where nothing is pushed. -/
def parseResponse (response : Response) : JobEff Interactions (Option (List Interaction)) := do
  match response with
  | .error => pure none
  | .result none => .throw typeError
  | .result (some transactions) =>
    let params ← parseContractInteractionTransaction network env transactions
    pure (if params.length > 0 then some params else none)

/-- The statements between the start of the transaction and its commit. -/
def store (bulkParams : List Interaction) (eBlock : Nat) : JobEff Interactions Unit := do
  bulkCreate env bulkParams
  updateSchedulerWith env.updateScheduler fun r => { r with block_number := some eBlock }

/-- The try block. -/
def crawl (sBlock eBlock : Nat) : JobEff Interactions Unit := do
  let data ← getBatchBlockWithTransaction chain env sBlock eBlock
  let bulkParams ← .mapEach data (parseResponse network env)
  .mayFail env.createQueryRunner
  createQueryRunner
  connect env.connect
  startTransaction env.startTransaction
  let _ ← store env (env.settle (bulkParams.filterMap id)).flatten eBlock
  commitTransaction env.commitTransaction

def run : JobEff Interactions Unit := do
  writeLog fun _ => .empty
  let sBlock ← getSchedulerBlockNumber env
  let networkBlockNumber ← .await env.getBlockNumber
  if sBlock ≥ networkBlockNumber then pure ()
  else
    let eBlock := chunkEnd chunkSize sBlock networkBlockNumber
    writeLog fun l =>
      { l with total := some networkBlockNumber, start := some sBlock, end_ := some eBlock }
    noQueryRunner
    .tryFinally
      (.tryCatch (crawl network chain env sBlock eBlock) fun e => do
        rollbackIfCreated env.rollbackTransaction
        .throw (errorHandler e))
      releaseIfHeld

end

/-! ## What a run does -/

variable {network : Nat} {chain : Nat → List Transaction} {env : Env}

/-- The row a transaction is recorded by. -/
def Transaction.row (network : Nat) (tx : Transaction) : Interaction := ⟨network, tx.from_, tx.to_⟩

/-- The transaction was sent to an address that the run's check calls a
contract. -/
def SentToContract (env : Env) (tx : Transaction) : Prop :=
  ∃ address, tx.to_ = some address ∧ env.isContract address = true

/-- The table has a row with the network, the sender and the receiver. -/
def Recorded (network : Nat) (table : Interactions) (tx : Transaction) : Prop :=
  ∃ k, (tx.row network).key = some k ∧ (table.lookup k).isSome = true

theorem wp_parseContractInteractionTransaction (transactions : List Transaction)
    (s : Session (Db Interactions) LoggerData) :
    Eff.wp (parseContractInteractionTransaction network env transactions)
      (fun rows t => t = s ∧ ∀ tx ∈ transactions, SentToContract env tx → tx.row network ∈ rows)
      (fun _ t => t = s) s := by
  simp only [parseContractInteractionTransaction, Eff.wp_ite, Eff.wp_bind, Eff.wp_pure,
    Eff.wp_await]
  refine ⟨fun hlen => ⟨trivial, fun tx htx => ?_⟩,
    fun _ => ⟨fun checkCA hca => ⟨trivial, ?_⟩, fun _ _ => trivial⟩⟩
  · rw [List.length_map, List.length_eq_zero_iff] at hlen
    simp [hlen] at htx
  · intro tx htx hsent
    obtain ⟨address, hto, hcontract⟩ := hsent
    have hca : checkCA = transactions.map fun t => env.isContract (t.to_.getD ZERO_ADDRESS) := by
      unfold getBatchCheckCA at hca
      split at hca
      · cases hca
      · simpa [Function.comp_def] using (Except.ok.inj hca).symm
    have hzip : (tx, true) ∈ transactions.zip checkCA := by
      rw [hca, ← List.map_prod_left_eq_zip, List.mem_map]
      exact ⟨tx, htx, by simp [hto, hcontract]⟩
    exact List.mem_map.mpr ⟨(tx, true), List.mem_filter.mpr ⟨hzip, rfl⟩, rfl⟩

/-- What the callback hands on for one entry. -/
def Parsed (network : Nat) (env : Env) (response : Response)
    (params : Option (List Interaction)) : Prop :=
  response ≠ .result none ∧ ∀ transactions, response = .result (some transactions) →
    ∀ tx ∈ transactions, SentToContract env tx → ∃ rows, params = some rows ∧ tx.row network ∈ rows

theorem wp_parseResponse (response : Response) (s : Session (Db Interactions) LoggerData) :
    Eff.wp (parseResponse network env response)
      (fun params t => t = s ∧ Parsed network env response params) (fun _ t => t = s) s := by
  cases response with
  | error => exact ⟨rfl, by simp [Parsed]⟩
  | result block =>
    cases block with
    | none => exact rfl
    | some transactions =>
      simp only [parseResponse, Eff.wp_bind, Eff.wp_pure]
      refine Eff.wp_mono (wp_parseContractInteractionTransaction transactions s)
        (fun rows t ht => ⟨ht.1, by simp, fun txs htxs tx htx hsent => ?_⟩) (fun _ _ h => h)
      cases htxs
      have hmem : tx.row network ∈ rows := ht.2 tx htx hsent
      exact ⟨rows, if_pos (List.length_pos_of_mem hmem), hmem⟩

/-- The rows of a window: every transaction to a contract of a block that was
answered with a result, and no block whose result was missing. -/
def Collected (network : Nat) (chain : Nat → List Transaction) (env : Env) (sBlock eBlock : Nat)
    (bulkParams : List Interaction) : Prop :=
  ∀ b, sBlock ≤ b → b < eBlock → env.answer b ≠ .missing ∧ (env.answer b = .result →
    ∀ tx ∈ chain b, SentToContract env tx → tx.row network ∈ bulkParams)

theorem collected_of_parsed {sBlock eBlock : Nat} {data : List Response}
    {params : List (Option (List Interaction))}
    (hdata : getBatchBlockInfos chain env (fillSequenceNumber (eBlock - sBlock) sBlock) = .ok data)
    (hparams : List.Forall₂ (Parsed network env) data params) :
    Collected network chain env sBlock eBlock (env.settle (params.filterMap id)).flatten := by
  intro b hs he
  have hresponse : (env.answer b).response (chain b) ∈ data := by
    unfold getBatchBlockInfos at hdata
    split at hdata
    · cases hdata
    · rw [← Except.ok.inj hdata, (env.order_perm _).mem_iff]
      exact List.mem_map_of_mem (mem_fillSequenceNumber.mpr ⟨hs, he⟩)
  obtain ⟨p, hp, hparsed⟩ := Eff.exists_result hparams hresponse
  refine ⟨fun hmissing => ?_, fun hresult tx htx hsent => ?_⟩
  · exact hparsed.1 (by rw [hmissing]; rfl)
  · obtain ⟨rows, rfl, hrow⟩ := hparsed.2 (chain b) (by rw [hresult]; rfl) tx htx hsent
    refine List.mem_flatten.mpr ⟨rows, (env.settle_perm _).mem_iff.mpr ?_, hrow⟩
    exact List.mem_filterMap.mpr ⟨some rows, hp, rfl⟩

/-- The effect of a committed run. -/
def Advanced (network : Nat) (chain : Nat → List Transaction) (env : Env) (sBlock eBlock : Nat)
    (d d' : Db Interactions) : Prop :=
  ∃ bulkParams, Collected network chain env sBlock eBlock bulkParams ∧
    d' = (d.setTables fun t => t.insertAll bulkParams).setScheduler
      fun r => { r with block_number := some eBlock }

theorem store_stages (bulkParams : List Interaction) (eBlock : Nat) (d : Db Interactions) :
    Stages d (store env bulkParams eBlock) fun v _ w =>
      w = (v.setTables fun t => t.insertAll bulkParams).setScheduler
        fun r => { r with block_number := some eBlock } := by
  refine Stages.bind (fun _ v _ w => _) (Stages.managerWrite _ _ _)
    (fun _ => Stages.managerWrite _ _ _) ?_
  intro v _ w _ x hfirst hnext
  obtain ⟨_, rfl⟩ := hfirst
  obtain ⟨_, rfl⟩ := hnext
  rfl

theorem wp_crawl {sBlock eBlock : Nat} (s : Session (Db Interactions) LoggerData) :
    Eff.wp (crawl network chain env sBlock eBlock)
      (fun _ t => Advanced network chain env sBlock eBlock s.db t.db) (fun _ t => t.db = s.db) s := by
  simp only [crawl, getBatchBlockWithTransaction]
  rw [Eff.wp_bind, Eff.wp_await]
  refine ⟨fun data hdata => ?_, fun _ _ => rfl⟩
  rw [Eff.wp_bind]
  have hparse : Eff.wp (.mapEach data (parseResponse network env))
      (fun params t => t = s ∧ List.Forall₂ (Parsed network env) data params) (fun _ t => t = s) s :=
    Eff.wp_mapEach (· = s) (Parsed network env)
      (fun response _ t ht => by subst ht; exact wp_parseResponse response t) rfl
  refine Eff.wp_mono hparse (fun params t ht => ?_) (fun _ t ht => by rw [ht])
  obtain ⟨rfl, hparams⟩ := ht
  have hcollected := collected_of_parsed hdata hparams
  rw [Eff.wp_bind, Eff.wp_mayFail]
  refine ⟨fun _ => ?_, fun _ _ => rfl⟩
  refine Eff.wp_mono (Stages.transaction _ _ _ (store_stages _ eBlock t.db)
    (P := Advanced network chain env sBlock eBlock t.db) (fun _ w hw => ⟨_, hcollected, hw⟩) rfl)
    (fun _ u hu => hu.1) (fun _ u hu => hu)

/-- What one run leaves: the data as they were, or one committed window. -/
def RunEffect (network : Nat) (chain : Nat → List Transaction) (env : Env)
    (d d' : Db Interactions) : Prop :=
  d' = d ∨ ∃ total, env.getBlockNumber = .ok total ∧ d.scheduler.isSome = true ∧
    d.cursor Scheduler.block_number < total ∧
    Advanced network chain env (d.cursor Scheduler.block_number)
      (chunkEnd chunkSize (d.cursor Scheduler.block_number) total) d d'

theorem wp_run (s : Session (Db Interactions) LoggerData) :
    Eff.wp (run network chain env) (fun _ t => RunEffect network chain env s.db t.db)
      (fun _ t => t.db = s.db) s := by
  simp only [run, getSchedulerBlockNumber, writeLog]
  rw [Eff.wp_bind, Eff.wp_update, Eff.wp_bind]
  refine wp_schedulerCursor (fun r _ hr => ?_) (fun _ _ => rfl)
  rw [Eff.wp_bind, Eff.wp_await]
  refine ⟨fun total htotal => ?_, fun _ _ => rfl⟩
  rw [Eff.wp_ite]
  refine ⟨fun _ => Or.inl rfl, fun hlt => ?_⟩
  simp only [noQueryRunner]
  rw [Eff.wp_bind, Eff.wp_update, Eff.wp_bind, Eff.wp_update]
  have hr : s.db.scheduler = some r := hr
  have hcursor : s.db.cursor Scheduler.block_number = r.block_number.getD 0 := by
    simp [Db.cursor, hr]
  refine Eff.wp_mono
    (wp_guarded (P := fun d _ => Advanced network chain env _ _ s.db d) (wp_crawl _)) (fun _ t ht => ?_) (fun _ t ht => ht)
  refine Or.inr ⟨total, htotal, by rw [hr]; rfl, by omega, ?_⟩
  rw [hcursor]
  exact ht

theorem runEffect_afterRun (d : Db Interactions) :
    RunEffect network chain env d (afterRun (run network chain env) d) :=
  afterRun_of_wp (RunEffect network chain env d)
    (Eff.wp_mono (wp_run _) (fun _ _ h => h) (fun _ _ h => Or.inl h))

theorem RunEffect.flags {d d' : Db Interactions} (h : RunEffect network chain env d d') :
    d'.flags = d.flags := by
  rcases h with rfl | ⟨_, _, _, _, _, _, rfl⟩
  · rfl
  · simp only [Db.flags, Db.setScheduler_scheduler, Db.setTables_scheduler, Option.map_map]
    rfl

/-- The template as a job of the scheduler. -/
def interactionJob (network : Nat) (chain : Nat → List Transaction) (env : Env) : Job Interactions where
  run := run network chain env
  keepsFlags s := Eff.wp_mono (wp_run s) (fun _ _ h => h.flags) (fun _ t h => by rw [h])

end BlockchainTask.SchedulerJob.InteractionTemplate

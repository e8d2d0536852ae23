import BlockchainTask.Interaction.InteractionController
import Mathlib.Logic.Function.Basic

/-! # The addresses of the interaction table

Two writers add rows: the interaction jobs, which ask in one batch which of the
addresses of a block are contracts, and the request handler, which asks for one
address and does not wait for the answer. A row of a job has the address that
its own entry of the batch was true for. A row of the handler has whatever
address was sent. -/
namespace BlockchainTask.Interaction.ContractRows
open BlockchainTask.Common.Exception BlockchainTask.Helper
open BlockchainTask.Library.Effect BlockchainTask.Library.Runs BlockchainTask.Library.Store
open BlockchainTask.Library.Transaction
open BlockchainTask.SchedulerJob.Base BlockchainTask.SchedulerJob.InteractionTemplate
open BlockchainTask.Interaction.InteractionController

/-! ## The rows of a job -/

section
variable {network : Nat} {chain : Nat → List Transaction} {env : Env}

/-- The row has an address that the job's check was true for. The zero address
stands for a missing one in the check. -/
def Checked (env : Env) (row : Interaction) : Prop :=
  env.isContract (row.to_address.getD ZERO_ADDRESS) = true

/-- The addresses and the answers of the batch are in the same order. -/
theorem wp_parse_checked (transactions : List Transaction)
    (s : Session (Db Interactions) LoggerData) :
    Eff.wp (parseContractInteractionTransaction network env transactions)
      (fun rows t => t = s ∧ ∀ row ∈ rows, Checked env row) (fun _ t => t = s) s := by
  simp only [parseContractInteractionTransaction, Eff.wp_bind, Eff.wp_ite, Eff.wp_pure,
    Eff.wp_await]
  refine ⟨fun _ => ⟨trivial, by simp⟩, fun _ => ⟨fun checkCA hca => ⟨trivial, ?_⟩, fun _ _ => trivial⟩⟩
  have hca : checkCA = transactions.map fun t => env.isContract (t.to_.getD ZERO_ADDRESS) := by
    unfold getBatchCheckCA at hca
    split at hca
    · cases hca
    · simpa [Function.comp_def] using (Except.ok.inj hca).symm
  intro row hrow
  obtain ⟨p, hp, rfl⟩ := List.mem_map.mp hrow
  obtain ⟨hzip, htrue⟩ := List.mem_filter.mp hp
  rw [hca, ← List.map_prod_left_eq_zip, List.mem_map] at hzip
  obtain ⟨tx, _, rfl⟩ := hzip
  exact htrue

theorem wp_parseResponse_checked (response : Response) (s : Session (Db Interactions) LoggerData) :
    Eff.wp (parseResponse network env response)
      (fun params t => t = s ∧ ∀ rows, params = some rows → ∀ row ∈ rows, Checked env row)
      (fun _ t => t = s) s := by
  cases response with
  | error => exact ⟨rfl, fun _ h => by cases h⟩
  | result block =>
    cases block with
    | none => exact rfl
    | some transactions =>
      simp only [parseResponse, Eff.wp_bind, Eff.wp_pure]
      refine Eff.wp_mono (wp_parse_checked transactions s) (fun rows t ht => ⟨ht.1, ?_⟩)
        fun _ _ h => h
      intro rows' hsome
      split at hsome
      · cases hsome
        exact ht.2
      · cases hsome

/-- What the job inserts: rows that were checked, each with an address. -/
def Written (env : Env) (rows : List Interaction) : Prop :=
  ∀ row ∈ rows, ∃ address, row.to_address = some address ∧ env.isContract address = true

theorem written_of_checked {rows : List Interaction} (h : ∀ row ∈ rows, Checked env row)
    (haccepted : rows.findSome? Interaction.toCheckSum = none) : Written env rows := by
  intro row hrow
  have hnone := List.findSome?_eq_none_iff.mp haccepted row hrow
  have hchecked := h row hrow
  unfold Checked at hchecked
  cases haddress : row.to_address with
  | none =>
    -- a missing address is not accepted, whatever the check says of the zero address
    unfold Interaction.toCheckSum at hnone
    simp [haddress] at hnone
  | some address =>
    rw [haddress] at hchecked
    exact ⟨address, rfl, hchecked⟩

/-- A run leaves the rows alone, or inserts rows with contract addresses. -/
def Extends (env : Env) (d d' : Db Interactions) : Prop :=
  d'.tables = d.tables ∨ ∃ rows, Written env rows ∧ d'.tables = d.tables.insertAll rows

theorem store_written {bulkParams : List Interaction} (h : ∀ row ∈ bulkParams, Checked env row)
    (eBlock : Nat) (d : Db Interactions) :
    Stages d (store env bulkParams eBlock) fun v _ w =>
      Written env bulkParams ∧ w.tables = v.tables.insertAll bulkParams := by
  refine Stages.bind (fun _ v _ w => w.tables = v.tables) (Stages.managerWrite _ _ _)
    (fun _ => (Stages.managerWrite _ _ _).mono fun v _ w hw => by rw [hw.2]; rfl) ?_
  intro v _ w _ x hfirst hnext
  obtain ⟨haccepted, rfl⟩ := hfirst
  exact ⟨written_of_checked h haccepted, hnext⟩

theorem wp_crawl_extends {sBlock eBlock : Nat} (s : Session (Db Interactions) LoggerData) :
    Eff.wp (crawl network chain env sBlock eBlock) (fun _ t => Extends env s.db t.db)
      (fun _ t => t.db = s.db) s := by
  simp only [crawl, getBatchBlockWithTransaction]
  rw [Eff.wp_bind, Eff.wp_await]
  refine ⟨fun data _ => ?_, fun _ _ => rfl⟩
  rw [Eff.wp_bind]
  have hparse : Eff.wp (.mapEach data (parseResponse network env))
      (fun params t => t = s ∧ List.Forall₂
        (fun _ p => ∀ rows, p = some rows → ∀ row ∈ rows, Checked env row) data params)
      (fun _ t => t = s) s :=
    Eff.wp_mapEach (· = s) _
      (fun response _ t ht => by subst ht; exact wp_parseResponse_checked response t) rfl
  refine Eff.wp_mono hparse (fun params t ht => ?_) (fun _ t ht => by rw [ht])
  obtain ⟨rfl, hparams⟩ := ht
  -- the entries settle in any order
  have hchecked : ∀ row ∈ (env.settle (params.filterMap id)).flatten, Checked env row := by
    intro row hrow
    obtain ⟨rows, hrows, hmem⟩ := List.mem_flatten.mp hrow
    obtain ⟨p, hp, hsome⟩ := List.mem_filterMap.mp ((env.settle_perm _).mem_iff.mp hrows)
    obtain ⟨i, hi, rfl⟩ := List.getElem_of_mem hp
    exact hparams.get (hparams.length_eq ▸ hi) hi rows hsome row hmem
  rw [Eff.wp_bind, Eff.wp_mayFail]
  refine ⟨fun _ => ?_, fun _ _ => rfl⟩
  refine Eff.wp_mono (Stages.transaction _ _ _ (store_written hchecked eBlock t.db)
    (P := fun d => Extends env t.db d) (fun _ w hw => Or.inr ⟨_, hw⟩) rfl)
    (fun _ u hu => hu.1) (fun _ u hu => hu)

theorem afterRun_extends (d : Db Interactions) :
    Extends env d (afterRun (run network chain env) d) := by
  refine afterRun_of_wp (Extends env d) ?_
  have hsame : ∀ d', d' = d → Extends env d d' := fun d' h => Or.inl (congrArg Db.tables h)
  simp only [run, getSchedulerBlockNumber, writeLog]
  rw [Eff.wp_bind, Eff.wp_update, Eff.wp_bind]
  refine wp_schedulerCursor (fun r _ _ => ?_) (fun _ _ => hsame _ rfl)
  rw [Eff.wp_bind, Eff.wp_await]
  refine ⟨fun total _ => ?_, fun _ _ => hsame _ rfl⟩
  rw [Eff.wp_ite]
  refine ⟨fun _ => hsame _ rfl, fun _ => ?_⟩
  simp only [noQueryRunner]
  rw [Eff.wp_bind, Eff.wp_update, Eff.wp_bind, Eff.wp_update]
  exact Eff.wp_mono (wp_guarded (P := fun d' _ => Extends env d d') (wp_crawl_extends _))
    (fun _ _ h => h) (fun _ _ h => hsame _ h)

end

/-! ## Both writers -/

/-- The table, and the scheduler's row of the job of each network. -/
structure State where
  interactions : Interactions
  schedulers : Nat → Option Scheduler

/-- A run of a network's job, or a request. -/
inductive Step where
  | job (network : Nat) (chain : Nat → List Transaction) (env : Env)
  | request (env : RequestEnv) (body : InteractionBody)

def Step.apply : Step → State → State
  | .job network chain env, state =>
    let db := afterRun (run network chain env) ⟨state.schedulers network, state.interactions⟩
    ⟨db.tables, Function.update state.schedulers network db.scheduler⟩
  | .request env body, state =>
    ⟨(addInteraction env body state.interactions).2, state.schedulers⟩

/-- The check that the step made said of the address that it is a contract. -/
def Step.FoundContract : Step → String → Prop
  | .job _ _ env, address => env.isContract address = true
  | .request env body, address =>
    ∃ checkCA, env.getSafeCheckCA body.chainId address = .ok checkCA ∧ checkCA.settled = .ok true

/-- The step writes the row. -/
def Writes (p : Step × State) (row : Stored Interaction) : Prop :=
  row ∉ p.2.interactions.rows ∧ row ∈ (p.1.apply p.2).interactions.rows

/-- Each row that is there after the steps and was not before them had, when it was
written, an address that was a contract. -/
def RowsFromContracts (steps : List Step) (start : State) : Prop :=
  ∀ row ∈ (runAll Step.apply steps start).interactions.rows, row ∉ start.interactions.rows →
    ∃ p ∈ starts Step.apply steps start, Writes p row ∧
      ∃ address, row.row.to_address = some address ∧ p.1.FoundContract address

/-- The request is for an address that has no code on its network. -/
def WithoutCode (env : RequestEnv) (body : InteractionBody) : Prop :=
  ∃ network checkCA, Asks env body network checkCA ∧ checkCA.settled = .ok false

/-- Each request for an address without code is rejected, and the table is as it was. -/
def RejectsWithoutCode (steps : List Step) (start : State) : Prop :=
  ∀ env body state, (Step.request env body, state) ∈ starts Step.apply steps start →
    WithoutCode env body →
      addInteraction env body state.interactions = (.error notContract, state.interactions)

/-- The request adds a row, once it gets to its insert. -/
def Adds (env : RequestEnv) (body : InteractionBody) (network : Nat) (state : State) : Prop :=
  Accepts env body network ∧ state.interactions.conflicts (body.params network) = false

/-- A request that gets to its check is for a contract, or the check fails and no row
is added. -/
def Step.Meets : Step → State → Prop
  | .job .., _ => True
  | .request env body, state => ∀ network checkCA, Asks env body network checkCA →
    checkCA.settled = .ok true ∨
      (checkCA.settled ≠ .ok false ∧ ¬ Adds env body network state)

/-! ## One step -/

theorem job_rows (network : Nat) (chain : Nat → List Transaction) (env : Env) (state : State) :
    ((Step.job network chain env).apply state).interactions = state.interactions ∨
      ∃ rows, Written env rows ∧
        ((Step.job network chain env).apply state).interactions = state.interactions.insertAll rows :=
  afterRun_extends ⟨state.schedulers network, state.interactions⟩

theorem request_rows (env : RequestEnv) (body : InteractionBody) (state : State) :
    (((Step.request env body).apply state).interactions = state.interactions ∧
        ∀ network checkCA, Asks env body network checkCA → ¬ Accepts env body network) ∨
      ∃ network checkCA, Asks env body network checkCA ∧ Accepts env body network ∧
        ((Step.request env body).apply state).interactions =
          state.interactions.insertIgnore (body.params network) :=
  Eff.wp_final (P := fun u =>
      (u = state.interactions ∧
        ∀ network checkCA, Asks env body network checkCA → ¬ Accepts env body network) ∨
      ∃ network checkCA, Asks env body network checkCA ∧ Accepts env body network ∧
        u = state.interactions.insertIgnore (body.params network))
    (Eff.wp_mono (wp_addInteraction env body state.interactions) (fun _ _ h => Or.inr h)
      fun _ _ h => Or.inl ⟨h.1, fun network checkCA hasks => (h.2 network checkCA hasks).1⟩)

/-- No step removes a row. -/
theorem mem_apply (step : Step) (state : State) {row : Stored Interaction}
    (h : row ∈ state.interactions.rows) : row ∈ (step.apply state).interactions.rows := by
  cases step with
  | job network chain env =>
    rcases job_rows network chain env state with hsame | ⟨rows, _, hrows⟩
    · rw [hsame]
      exact h
    · rw [hrows]
      exact (Table.rows_prefix_insertAll _ rows).subset h
  | request env body =>
    rcases request_rows env body state with ⟨hsame, _⟩ | ⟨network, _, _, _, hrow⟩
    · rw [hsame]
      exact h
    · rw [hrow]
      exact (Table.rows_prefix_insertAll _ [body.params network]).subset h

/-- A step that meets the condition writes rows with contract addresses. -/
theorem foundContract_of_writes {p : Step × State} (hmeets : p.1.Meets p.2)
    {row : Stored Interaction} (h : Writes p row) :
    ∃ address, row.row.to_address = some address ∧ p.1.FoundContract address := by
  obtain ⟨step, state⟩ := p
  obtain ⟨hbefore, hafter⟩ := h
  cases step with
  | job network chain env =>
    rcases job_rows network chain env state with hsame | ⟨rows, hwritten, hrows⟩
    · rw [hsame] at hafter
      exact absurd hafter hbefore
    · rw [hrows] at hafter
      rcases Table.mem_insertAll hafter with hold | ⟨hnew, _⟩
      · exact absurd hold hbefore
      · exact hwritten row.row hnew
  | request env body =>
    rcases request_rows env body state with ⟨hsame, _⟩ | ⟨network, checkCA, hasks, haccepts, hrow⟩
    · rw [hsame] at hafter
      exact absurd hafter hbefore
    · rw [hrow] at hafter
      by_cases hconflict : state.interactions.conflicts (body.params network) = false
      · rw [Table.insertIgnore, dif_pos hconflict] at hafter
        have hnew : row = ⟨state.interactions.nextId, body.params network⟩ :=
          (List.mem_append.mp hafter).elim (fun hold => absurd hold hbefore) List.mem_singleton.mp
        refine ⟨body.interactedAddress, by rw [hnew]; rfl, checkCA, hasks.asked, ?_⟩
        exact (hmeets network checkCA hasks).resolve_right fun h => h.2 ⟨haccepts, hconflict⟩
      · rw [Table.insertIgnore, dif_neg hconflict] at hafter
        exact absurd hafter hbefore

theorem writes_of_adds {env : RequestEnv} {body : InteractionBody} {network : Nat}
    {checkCA : Promise Bool} {state : State} (hasks : Asks env body network checkCA)
    (hadds : Adds env body network state) :
    Writes (.request env body, state) ⟨state.interactions.nextId, body.params network⟩ := by
  refine ⟨fun hmem => Nat.lt_irrefl _ (state.interactions.idsBelow _ hmem), ?_⟩
  rcases request_rows env body state with ⟨_, hrefused⟩ | ⟨network', _, hasks', _, hrow⟩
  · exact absurd hadds.1 (hrefused network checkCA hasks)
  · obtain ⟨rfl, _⟩ := hasks.unique hasks'
    rw [hrow, Table.insertIgnore, dif_pos hadds.2]
    exact List.mem_append_right _ List.mem_cons_self

/-- A request for an address without code is not rejected for it. -/
theorem not_rejected {env : RequestEnv} {body : InteractionBody} {t u : Interactions}
    (h : WithoutCode env body) : addInteraction env body t ≠ (.error notContract, u) := by
  intro hrejected
  obtain ⟨network, checkCA, hasks, _⟩ := h
  have herror := (Eff.wp_iff.mp (wp_addInteraction env body t)).2 notContract u hrejected
  exact (herror.2 network checkCA hasks).2 rfl

/-! ## Sequences of steps -/

theorem rowsFromContracts_of_meets {steps : List Step} {start : State}
    (h : ∀ p ∈ starts Step.apply steps start, p.1.Meets p.2) : RowsFromContracts steps start := by
  intro row hfinal hstart
  obtain ⟨p, hp, hwrites⟩ := exists_establishing
    (fun state : State => row ∈ state.interactions.rows) hstart hfinal
  exact ⟨p, hp, hwrites, foundContract_of_writes (h p hp) hwrites⟩

/-- The check of a request that adds a row is true, where all rows come from contracts. -/
theorem checked_of_rowsFromContracts {steps : List Step} {start : State}
    (h : RowsFromContracts steps start) {env : RequestEnv} {body : InteractionBody} {state : State}
    (hp : (Step.request env body, state) ∈ starts Step.apply steps start) {network : Nat}
    {checkCA : Promise Bool} (hasks : Asks env body network checkCA)
    (hadds : Adds env body network state) : checkCA.settled = .ok true := by
  have hkeep : ∀ (step : Step) (t : State),
      ⟨state.interactions.nextId, body.params network⟩ ∈ t.interactions.rows →
      ⟨state.interactions.nextId, body.params network⟩ ∈ (step.apply t).interactions.rows :=
    fun step t hmem => mem_apply step t hmem
  have hwrites := writes_of_adds hasks hadds
  have hfinal := runAll_of_mem_starts hkeep hp hwrites.2
  have hstart : ⟨state.interactions.nextId, body.params network⟩ ∉ start.interactions.rows :=
    fun hmem => hwrites.1 (of_mem_starts hkeep hmem hp)
  obtain ⟨q, hq, hqwrites, address, haddress, hfound⟩ := h _ hfinal hstart
  -- the row was written by this request
  have hsame := establishing_unique hkeep hp hq hwrites hqwrites
  rw [← hsame] at hfound
  cases haddress
  obtain ⟨checkCA', hasked, htrue⟩ := hfound
  have heq : checkCA' = checkCA := Except.ok.inj (hasked.symm.trans hasks.asked)
  rw [← heq]
  exact htrue

/-- **Contracts only.** Over any sequence of job runs and requests, all rows that are
written have addresses that were contracts, and requests for an address without code
are rejected, exactly when every request that gets to its check is for a contract, or
its check fails and it adds no row. -/
theorem contractsOnly_iff (steps : List Step) (start : State) :
    RowsFromContracts steps start ∧ RejectsWithoutCode steps start ↔
      ∀ p ∈ starts Step.apply steps start, p.1.Meets p.2 := by
  constructor
  · intro h p hp
    obtain ⟨step, state⟩ := p
    cases step with
    | job => exact trivial
    | request env body =>
      intro network checkCA hasks
      by_cases htrue : checkCA.settled = .ok true
      · exact Or.inl htrue
      · refine Or.inr ⟨fun hfalse => ?_, fun hadds => ?_⟩
        · have hwithout : WithoutCode env body := ⟨network, checkCA, hasks, hfalse⟩
          exact not_rejected hwithout (h.2 env body state hp hwithout)
        · exact htrue (checked_of_rowsFromContracts h.1 hp hasks hadds)
  · intro h
    refine ⟨rowsFromContracts_of_meets h, fun env body state hp hwithout => ?_⟩
    obtain ⟨network, checkCA, hasks, hfalse⟩ := hwithout
    rcases h _ hp network checkCA hasks with htrue | hfails
    · rw [hfalse] at htrue
      cases htrue
    · exact absurd hfalse hfails.1

/-- A network with chain id `56`, on which no address has code. -/
def exampleEnv : RequestEnv where
  findNetwork _ := .ok (some 1)
  hasProvider _ := true
  getSafeCheckCA _ _ := .ok ⟨.ok false⟩
  createInteractions := none

def exampleBody : InteractionBody :=
  ⟨"56", "0x1111111111111111111111111111111111111111", "0x2222222222222222222222222222222222222222"⟩

/-- The address is added to an empty table. -/
theorem address_without_code_added : ¬ ∀ (steps : List Step) (start : State),
    RowsFromContracts steps start ∧ RejectsWithoutCode steps start := by
  intro hall
  have hrejects := (hall [.request exampleEnv exampleBody] ⟨Table.empty, fun _ => none⟩).2
    exampleEnv exampleBody _ List.mem_cons_self ⟨1, ⟨.ok false⟩, ⟨rfl, rfl, rfl⟩, rfl⟩
  have hadded : (addInteraction exampleEnv exampleBody Table.empty).2.contents =
      [exampleBody.params 1] := by decide
  rw [hrejects] at hadded
  cases hadded

end BlockchainTask.Interaction.ContractRows

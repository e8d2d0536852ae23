import BlockchainTask.SchedulerJob.InteractionTemplate

/-! # The blocks the interaction job has covered

A run reads a window of blocks and moves the cursor to its end in one
transaction, so the windows of the runs tile what the cursor has passed.
Whether the transactions of a window are recorded depends on the entries of the
batch response: an entry with an error is dropped, and the cursor passes its
block all the same. -/
namespace BlockchainTask.SchedulerJob.InteractionCoverage
open BlockchainTask.Helper BlockchainTask.Common.Exception
open BlockchainTask.Library.Effect BlockchainTask.Library.Transaction
open BlockchainTask.Library.Runs BlockchainTask.Library.Store
open BlockchainTask.SchedulerJob.Base BlockchainTask.SchedulerJob.InteractionTemplate

variable {network : Nat} {chain : Nat → List Transaction}

/-- One run on its own, as a step of the committed data. -/
def step (network : Nat) (chain : Nat → List Transaction) (env : Env) (d : Db Interactions) :
    Db Interactions :=
  afterRun (run network chain env) d

abbrev cursor (d : Db Interactions) : Nat := d.cursor Scheduler.block_number

/-- Each block the cursor has passed, in whichever run it did, has its
transactions to contracts recorded. -/
def Covered (network : Nat) (chain : Nat → List Transaction) (envs : List Env)
    (d : Db Interactions) : Prop :=
  (crossings (step network chain) cursor envs d).flatMap Crossing.window =
      List.range' (cursor d) (cursor (runAll (step network chain) envs d) - cursor d) ∧
    ∀ c ∈ crossings (step network chain) cursor envs d, ∀ b ∈ c.window, ∀ tx ∈ chain b,
      SentToContract c.env tx →
        Recorded network (runAll (step network chain) envs d).tables tx

/-- Every block of the run's window that the node answers with an error has no
transaction to a contract. -/
def ErrorsAreIdle (chain : Nat → List Transaction) (env : Env) (d : Db Interactions) : Prop :=
  ∀ total, env.getBlockNumber = .ok total → ∀ b, cursor d ≤ b →
    b < chunkEnd chunkSize (cursor d) total → env.answer b = .error →
      ∀ tx ∈ chain b, ¬ SentToContract env tx

/-! ## One run -/

theorem recorded_insertAll {table : Interactions} {tx : Transaction} (rows : List Interaction)
    (h : Recorded network table tx) : Recorded network (table.insertAll rows) tx := by
  obtain ⟨k, hk, hsome⟩ := h
  obtain ⟨row, hrow⟩ := Option.isSome_iff_exists.mp hsome
  exact ⟨k, hk, by rw [Table.lookup_insertAll_of_some hrow]; rfl⟩

theorem recorded_of_mem {table : Interactions} {tx : Transaction} {rows : List Interaction}
    {env : Env} (hsent : SentToContract env tx) (h : tx.row network ∈ rows) :
    Recorded network (table.insertAll rows) tx := by
  obtain ⟨address, hto, _⟩ := hsent
  have hk : (tx.row network).key =
      some (network, toLowerCase tx.from_, toLowerCase address) := by
    simp [Transaction.row, Interaction.key, hto]
  exact ⟨_, hk, Table.lookup_insertAll_isSome h hk⟩

theorem cursor_of_advanced {env : Env} {sBlock eBlock : Nat} {d d' : Db Interactions}
    (h : Advanced network chain env sBlock eBlock d d') (hrow : d.scheduler.isSome = true) :
    cursor d' = eBlock := by
  obtain ⟨_, _, rfl⟩ := h
  obtain ⟨r, hr⟩ := Option.isSome_iff_exists.mp hrow
  simp [cursor, Db.cursor, hr]

theorem step_effect (env : Env) (d : Db Interactions) :
    RunEffect network chain env d (step network chain env d) := runEffect_afterRun d

theorem cursor_le_step (env : Env) (d : Db Interactions) :
    cursor d ≤ cursor (step network chain env d) := by
  have heffect : RunEffect network chain env d (step network chain env d) := step_effect env d
  rcases heffect with h | ⟨total, _, hrow, hlt, hadv⟩
  · rw [h]
  · have hend := cursor_of_advanced hadv hrow
    have hbounds := chunkEnd_bounds hlt chunkSize_pos
    rw [hend]
    exact Nat.le_of_lt hbounds.1

/-- No run removes a row. -/
theorem recorded_step {tx : Transaction} (env : Env) (d : Db Interactions)
    (h : Recorded network d.tables tx) :
    Recorded network (step network chain env d).tables tx := by
  have heffect : RunEffect network chain env d (step network chain env d) := step_effect env d
  rcases heffect with he | ⟨_, _, _, _, rows, _, he⟩
  · rw [he]; exact h
  · rw [he]; exact recorded_insertAll rows h

/-- A run whose errors are idle records the window it passes. -/
theorem recorded_window {env : Env} {d : Db Interactions} (hidle : ErrorsAreIdle chain env d) :
    ∀ b ∈ (crossing (step network chain) cursor env d).window, ∀ tx ∈ chain b,
      SentToContract env tx → Recorded network (step network chain env d).tables tx := by
  intro b hb tx htx hsent
  obtain ⟨hstart, hstop⟩ := Crossing.mem_window.mp hb
  simp only [crossing] at hstart hstop
  have heffect : RunEffect network chain env d (step network chain env d) := step_effect env d
  rcases heffect with he | ⟨total, htotal, hrow, hlt, hadv⟩
  · -- nothing was passed
    rw [he] at hstop
    omega
  · have hend := cursor_of_advanced hadv hrow
    rw [hend] at hstop
    obtain ⟨rows, hcollected, he⟩ := hadv
    obtain ⟨hpresent, hresult⟩ := hcollected b hstart hstop
    rw [he]
    cases hanswer : env.answer b with
    | result => exact recorded_of_mem hsent (hresult hanswer tx htx hsent)
    | missing => exact absurd hanswer hpresent
    | error => exact absurd hsent (hidle total htotal b hstart hstop hanswer tx htx)

/-! ## Every sequence of runs -/

/-- **Coverage.** When the node's error entries only ever concern blocks
without a transaction to a contract, the cursor never moves past a block whose
transactions were not recorded. -/
theorem covered_of_errorsAreIdle (envs : List Env) (d : Db Interactions)
    (h : ∀ p ∈ starts (step network chain) envs d, ErrorsAreIdle chain p.1 p.2) :
    Covered network chain envs d := by
  refine ⟨crossings_tile fun env t _ => cursor_le_step env t, ?_⟩
  exact crossings_settled
    (P := fun env b (t : Db Interactions) => ∀ tx ∈ chain b, SentToContract env tx →
      Recorded network t.tables tx)
    (fun env t ht b hb => recorded_window (h (env, t) ht) b hb)
    (fun env t _ _ _ hkept tx htx hsent => recorded_step env t (hkept tx htx hsent))

/-! ## A skipped block

Block `0` holds one transaction to a contract. The node knows one block. -/

def exampleChain (b : Nat) : List Transaction :=
  if b = 0 then [⟨"0xa1", some "0xc1"⟩] else []

def exampleEnv (answer : Nat → Answer) : Env :=
  .steady 1 answer fun address => address == "0xc1"

def exampleDb : Db Interactions :=
  ⟨some ⟨"EVERY_SECOND", some 0, none, false, true, true⟩, Table.empty⟩

theorem covered_of_result :
    Covered 1 exampleChain [exampleEnv fun _ => .result] exampleDb ∧
      cursor (step 1 exampleChain (exampleEnv fun _ => .result) exampleDb) = 1 := by
  refine ⟨covered_of_errorsAreIdle _ _ fun p hp => ?_, by decide⟩
  rw [List.mem_singleton.mp hp]
  intro _ _ _ _ _ herror
  cases herror

/-- The entry of block `0` is an error, and the run commits: the cursor stands
at `1` and the table is empty. -/
theorem error_entry_not_covered :
    ¬ Covered 1 exampleChain [exampleEnv fun _ => .error] exampleDb := by
  intro hcovered
  obtain ⟨_, h⟩ := hcovered
  have hrecorded := h _ (List.mem_singleton.mpr rfl) 0 (by decide) ⟨"0xa1", some "0xc1"⟩ (by decide)
    ⟨"0xc1", rfl, by decide⟩
  obtain ⟨k, _, hsome⟩ := hrecorded
  have hnone : (runAll (step 1 exampleChain) [exampleEnv fun _ => .error] exampleDb).tables.lookup k =
      none := rfl
  rw [hnone] at hsome
  cases hsome

end BlockchainTask.SchedulerJob.InteractionCoverage

import BlockchainTask.Library.Effect

/-! # Query runners and transactions

A session is what one activation of a program sees of a database: the
committed data, the query runner it created last, how many connections it
holds, and a log of its own that the database knows nothing about. A runner
may have a transaction open. Its statements are kept as one pending update of
the data: reads through the runner see it, other connections do not, and a
commit applies it. A commit that fails applies nothing (transactions are
all-or-nothing), and leaves the transaction open until a rollback.

`Stages` is the logic of a transaction's body: what it does to the data its
own runner sees, while the committed data stay as they are. -/
namespace BlockchainTask.Library.Transaction
open BlockchainTask.Library.Effect

/-- The error of ending a transaction that was not started. -/
class TransactionErrors (ε : Type) where
  transactionNotStarted : ε

structure Runner (D : Type) where
  connected : Bool
  isReleased : Bool
  /-- The statements of the open transaction, as one update; `none` when no
  transaction is active. -/
  pending : Option (D → D)

structure Session (D L : Type) where
  db : D
  runner : Option (Runner D)
  held : Nat
  log : L

variable {D L ε α β : Type}

namespace Session

def pending (s : Session D L) : Option (D → D) := s.runner.bind Runner.pending

def isTransactionActive (s : Session D L) : Bool := s.pending.isSome

/-- What a statement of this session's runner reads. -/
def view (s : Session D L) : D :=
  match s.pending with
  | some p => p s.db
  | none => s.db

/-- A write through the runner: pending while a transaction is open, committed
at once otherwise. -/
def stage (s : Session D L) (w : D → D) : Session D L :=
  match s.runner with
  | some ⟨c, r, some p⟩ => { s with runner := some ⟨c, r, some (w ∘ p)⟩ }
  | _ => { s with db := w s.db }

/-- The open transaction has statements that are not in the committed data. -/
def Uncommitted (s : Session D L) : Prop := ∃ p, s.pending = some p ∧ p ≠ id

def fresh (s : Session D L) : Session D L := { s with runner := some ⟨false, false, none⟩ }

def withRunner (s : Session D L) (f : Runner D → Runner D) : Session D L :=
  { s with runner := s.runner.map f }

/-- The pending statements take effect and the transaction ends. -/
def committed (s : Session D L) (p : D → D) : Session D L :=
  { s with db := p s.db, runner := s.runner.map fun r => { r with pending := none } }

/-- The connection, if the runner had one, goes back to the pool. Releasing
neither commits nor rolls back: a transaction that is open stays so on the
connection, and `pending` still has its statements. -/
def released (s : Session D L) : Session D L :=
  { s with
    held := match s.runner with
      | some r => if r.connected && !r.isReleased then s.held - 1 else s.held
      | none => s.held
    runner := s.runner.map fun r => { r with isReleased := true } }

@[simp] theorem fresh_db (s : Session D L) : s.fresh.db = s.db := rfl
@[simp] theorem fresh_log (s : Session D L) : s.fresh.log = s.log := rfl
@[simp] theorem fresh_pending (s : Session D L) : s.fresh.pending = none := rfl
@[simp] theorem withRunner_db (s : Session D L) (f) : (s.withRunner f).db = s.db := rfl
@[simp] theorem withRunner_log (s : Session D L) (f) : (s.withRunner f).log = s.log := rfl
@[simp] theorem committed_db (s : Session D L) (p) : (s.committed p).db = p s.db := rfl
@[simp] theorem committed_log (s : Session D L) (p) : (s.committed p).log = s.log := rfl
@[simp] theorem released_db (s : Session D L) : s.released.db = s.db := rfl
@[simp] theorem released_log (s : Session D L) : s.released.log = s.log := rfl

@[simp] theorem stage_log (s : Session D L) (w : D → D) : (s.stage w).log = s.log := by
  unfold stage; split <;> rfl

theorem view_of_pending {s : Session D L} {p : D → D} (h : s.pending = some p) :
    s.view = p s.db := by
  simp [view, h]

theorem pending_runner {s : Session D L} {p : D → D} (h : s.pending = some p) :
    ∃ c r, s.runner = some ⟨c, r, some p⟩ := by
  obtain ⟨⟨c, r, q⟩, hr, hq⟩ := Option.bind_eq_some_iff.mp h
  cases hq
  exact ⟨c, r, hr⟩

theorem stage_of_pending {s : Session D L} {p : D → D} (h : s.pending = some p) (w : D → D) :
    (s.stage w).pending = some (w ∘ p) ∧ (s.stage w).db = s.db := by
  obtain ⟨c, r, hr⟩ := pending_runner h
  simp [stage, hr, pending]

end Session

namespace Session

/-- The session's own runner sees the write, committed or not. -/
theorem view_stage (s : Session D L) (w : D → D) : (s.stage w).view = w s.view := by
  cases hp : s.pending with
  | some p =>
    obtain ⟨hpending, hdb⟩ := stage_of_pending hp w
    rw [view_of_pending hpending, view_of_pending hp, hdb]
    rfl
  | none =>
    have hstage : s.stage w = { s with db := w s.db } := by
      unfold stage
      split
      · rename_i hrunner
        rw [pending, hrunner] at hp
        cases hp
      · rfl
    have hpending : (s.stage w).pending = none := by
      rw [hstage]
      exact hp
    rw [view, view, hpending, hp, hstage]

end Session

/-! ## Connections that are given back -/

/-- The pool that a statement without a runner takes its connection from: the
committed data, and the transactions that are open on idle connections. -/
structure Pool (D : Type) where
  db : D
  left : List (D → D)

/-- On a connection without a transaction (`none`) the statement is committed by
itself, on one with a transaction it is one more of its statements. -/
def Pool.statement (pool : Pool D) (w : D → D) : Option ℕ → Pool D
  | none => { pool with db := w pool.db }
  | some i => { pool with left := pool.left.modify i (w ∘ ·) }

/-- The statement is in the committed data, whichever connection it gets. -/
def Pool.Commits (pool : Pool D) (w : D → D) : Prop :=
  ∀ connection, (∀ i, connection = some i → i < pool.left.length) →
    (pool.statement w connection).db = w pool.db

theorem Pool.commits_iff {pool : Pool D} {w : D → D} :
    pool.Commits w ↔ pool.left = [] ∨ w pool.db = pool.db := by
  constructor
  · intro h
    rcases Nat.eq_zero_or_pos pool.left.length with hzero | hpos
    · exact Or.inl (List.length_eq_zero_iff.mp hzero)
    · refine Or.inr (h (some 0) fun i hi => ?_).symm
      rwa [← Option.some.inj hi]
  · intro h connection hconnection
    cases connection with
    | none => rfl
    | some i =>
      rcases h with hnone | hsame
      · have hi := hconnection i rfl
        rw [hnone] at hi
        cases hi
      · exact hsame.symm

/-! ## Operations -/

/-- `let queryRunner: QueryRunner | null = null`. -/
def noQueryRunner : Eff (Session D L) ε Unit := .update fun s => { s with runner := none }

def createQueryRunner : Eff (Session D L) ε Unit := .update Session.fresh

def connect (fault : Option ε) : Eff (Session D L) ε Unit := do
  .mayFail fault
  .update fun s => { s.withRunner fun r => { r with connected := true } with held := s.held + 1 }

/-- The runner counts as being in a transaction from the moment it asks for
one, so a rollback is possible also when the statement itself fails. -/
def startTransaction (fault : Option ε) : Eff (Session D L) ε Unit := do
  .update fun s => s.withRunner fun r => { r with pending := some id }
  .mayFail fault

def commitTransaction [TransactionErrors ε] (fault : Option ε) : Eff (Session D L) ε Unit := do
  match ← .read Session.pending with
  | none => .throw TransactionErrors.transactionNotStarted
  | some p =>
    .mayFail fault
    .update fun s => s.committed p

def rollbackTransaction [TransactionErrors ε] (fault : Option ε) : Eff (Session D L) ε Unit := do
  match ← .read Session.pending with
  | none => .throw TransactionErrors.transactionNotStarted
  | some _ =>
    .mayFail fault
    .update fun s => s.withRunner fun r => { r with pending := none }

def release : Eff (Session D L) ε Unit := .update Session.released

/-- `if (!isNull(queryRunner)) await queryRunner.rollbackTransaction()`. -/
def rollbackIfCreated [TransactionErrors ε] (fault : Option ε) : Eff (Session D L) ε Unit := do
  if (← .read Session.runner).isSome then rollbackTransaction fault else pure ()

/-- `if (!isNull(queryRunner) && queryRunner.isTransactionActive)` and a
rollback. -/
def rollbackIfActive [TransactionErrors ε] (fault : Option ε) : Eff (Session D L) ε Unit := do
  if ← .read Session.isTransactionActive then rollbackTransaction fault else pure ()

/-- `if (!isNull(queryRunner) && !queryRunner.isReleased)` and a release. -/
def releaseIfHeld : Eff (Session D L) ε Unit := do
  match ← .read Session.runner with
  | some r => if !r.isReleased then release else pure ()
  | none => pure ()

/-- A query through the runner's manager. -/
def managerRead (fault : Option ε) (query : D → α) : Eff (Session D L) ε α := do
  .mayFail fault
  .read fun s => query s.view

/-- A statement through the runner's manager; the database may refuse it. -/
def managerWrite (fault : Option ε) (refuse : D → Option ε) (w : D → D) :
    Eff (Session D L) ε Unit := do
  .mayFail fault
  .mayFail (refuse (← .read Session.view))
  .update fun s => s.stage w

/-- A query on a connection of its own. -/
def connectionRead (fault : Option ε) (query : D → α) : Eff (Session D L) ε α := do
  .mayFail fault
  .read fun s => query s.db

/-- A statement on a connection of its own, committed by itself. -/
def connectionWrite (fault : Option ε) (w : D → D) : Eff (Session D L) ε Unit := do
  .mayFail fault
  .update fun s => { s with db := w s.db }

def writeLog (f : L → L) : Eff (Session D L) ε Unit := .update fun s => { s with log := f s.log }

/-! ## Rules for an open transaction -/

section
open Eff
variable {Q : Unit → Session D L → Prop} {R : ε → Session D L → Prop} {s : Session D L}

/-- From the start of a transaction on, its body runs on the committed data with
nothing pending. -/
theorem wp_opened {f₁ f₂ : Option ε} {m : Eff (Session D L) ε α}
    {Q : α → Session D L → Prop}
    (hm : f₁ = none → f₂ = none → ∀ t : Session D L, t.db = s.db → t.log = s.log →
      t.pending = some id → wp m Q R t)
    (hR : ∀ e, f₁.or f₂ = some e → ∀ t : Session D L, t.db = s.db → t.log = s.log →
      (t.isTransactionActive = true ↔ f₁ = none) → R e t) :
    wp (do
        createQueryRunner
        connect f₁
        startTransaction f₂
        m) Q R s := by
  simp only [createQueryRunner, connect, startTransaction, wp_bind, wp_update, wp_mayFail]
  refine ⟨fun h₁ => ⟨fun h₂ => hm h₁ h₂ _ rfl rfl rfl, fun e h₂ => hR e ?_ _ rfl rfl ?_⟩,
    fun e h₁ => hR e ?_ _ rfl rfl ?_⟩
  · rw [h₁, Option.none_or, h₂]
  · exact ⟨fun _ => h₁, fun _ => rfl⟩
  · rw [h₁, Option.some_or]
  · rw [h₁]
    constructor
    · intro h
      cases h
    · intro h
      cases h

theorem wp_managerRead_pending {fault : Option ε} {query : D → α} {p : D → D}
    {Q : α → Session D L → Prop} (hp : s.pending = some p) (hQ : fault = none → Q (query (p s.db)) s)
    (hR : ∀ e, fault = some e → R e s) : wp (managerRead fault query) Q R s := by
  simp only [managerRead, wp_bind, wp_mayFail, wp_read, Session.view_of_pending hp]
  exact ⟨hQ, hR⟩

theorem wp_managerWrite_pending {fault : Option ε} {refuse : D → Option ε} {w p : D → D}
    (hp : s.pending = some p)
    (hQ : fault = none → refuse (p s.db) = none → ∀ t : Session D L, t.db = s.db → t.log = s.log →
      t.pending = some (w ∘ p) → Q () t)
    (hR : ∀ e, fault.or (refuse (p s.db)) = some e → R e s) :
    wp (managerWrite fault refuse w) Q R s := by
  obtain ⟨hpend, hdb⟩ := Session.stage_of_pending hp w
  simp only [managerWrite, wp_bind, wp_mayFail, wp_read, wp_update, Session.view_of_pending hp]
  refine ⟨fun hf => ⟨fun hr => hQ hf hr _ hdb (s.stage_log w) hpend, fun e hr => hR e ?_⟩,
    fun e hf => hR e ?_⟩
  · rw [hf, Option.none_or, hr]
  · rw [hf, Option.some_or]

/-- A statement goes through unless the database fails or refuses it. -/
theorem managerWrite_returns_iff {fault : Option ε} {refuse : D → Option ε} {w : D → D}
    {P : Session D L → Prop} :
    (∃ t, managerWrite fault refuse w s = (.ok (), t) ∧ P t) ↔
      fault = none ∧ refuse s.view = none ∧ P (s.stage w) := by
  simp only [managerWrite, bind_eq, Eff.mayFail, Eff.read, Eff.update]
  cases fault with
  | some e => simp
  | none => cases hrefuse : refuse s.view <;> simp [hrefuse]

theorem wp_commitTransaction_pending [TransactionErrors ε] {fault : Option ε} {p : D → D}
    (hp : s.pending = some p)
    (hQ : fault = none → ∀ t : Session D L, t.db = p s.db → t.log = s.log → t.pending = none →
      Q () t)
    (hR : ∀ e, fault = some e → R e s) : wp (commitTransaction fault) Q R s := by
  obtain ⟨c, r, hrun⟩ := Session.pending_runner hp
  simp only [commitTransaction, wp_bind, wp_read, hp, wp_mayFail, wp_update]
  refine ⟨fun hf => hQ hf _ rfl rfl ?_, hR⟩
  simp [Session.pending, Session.committed, hrun]

theorem wp_connectionRead {fault : Option ε} {query : D → α} {Q : α → Session D L → Prop}
    (hQ : fault = none → Q (query s.db) s) (hR : ∀ e, fault = some e → R e s) :
    wp (connectionRead fault query) Q R s := by
  simp only [connectionRead, wp_bind, wp_mayFail, wp_read]
  exact ⟨hQ, hR⟩

theorem wp_connectionWrite {fault : Option ε} {w : D → D}
    (hQ : fault = none → Q () { s with db := w s.db }) (hR : ∀ e, fault = some e → R e s) :
    wp (connectionWrite fault w) Q R s := by
  simp only [connectionWrite, wp_bind, wp_mayFail, wp_update]
  exact ⟨hQ, hR⟩

end

/-! ## What a transaction's body does -/

open Eff

/-- On committed data `d`, the body leaves the committed data and the log
alone, and when it returns, its transaction is still open and the data seen
through the runner went from the first to the second argument of `rel`. -/
def Stages (d : D) (m : Eff (Session D L) ε α) (rel : D → α → D → Prop) : Prop :=
  ∀ s, s.db = d → s.isTransactionActive = true →
    wp m (fun a t => t.db = d ∧ t.isTransactionActive = true ∧ t.log = s.log ∧ rel s.view a t.view)
      (fun _ t => t.db = d) s

variable {d : D} {m : Eff (Session D L) ε α} {rel rel' : D → α → D → Prop}

theorem Stages.mono (h : Stages d m rel) (hr : ∀ v a w, rel v a w → rel' v a w) :
    Stages d m rel' := fun s hd ha =>
  wp_mono (h s hd ha) (fun _ _ ⟨h1, h2, h3, h4⟩ => ⟨h1, h2, h3, hr _ _ _ h4⟩) (fun _ _ h => h)

theorem Stages.pure (a : α) (h : ∀ v, rel v a v) :
    Stages d (Pure.pure a : Eff (Session D L) ε α) rel := fun s hd ha => ⟨hd, ha, rfl, h s.view⟩

theorem Stages.throw (e : ε) : Stages d (Eff.throw e : Eff (Session D L) ε α) rel :=
  fun _ hd _ => hd

theorem Stages.await (answer : Except ε α) (h : ∀ v a, answer = .ok a → rel v a v) :
    Stages d (Eff.await answer : Eff (Session D L) ε α) rel := by
  intro s hd ha
  rw [wp_await]
  exact ⟨fun a he => ⟨hd, ha, rfl, h _ _ he⟩, fun _ _ => hd⟩

/-- In sequence, the two relations compose. The second body may rely on what the
first one established of its result. -/
theorem Stages.bindOf {f : α → Eff (Session D L) ε β} {relb : D → β → D → Prop}
    (relf : α → D → β → D → Prop) (hm : Stages d m rel)
    (hf : ∀ v a w, rel v a w → Stages d (f a) (relf a))
    (h : ∀ v a w b x, rel v a w → relf a w b x → relb v b x) : Stages d (m >>= f) relb := by
  intro s hd ha
  rw [wp_bind]
  refine wp_mono (hm s hd ha) (fun a t ⟨hd', ha', hl, hr⟩ => ?_) (fun _ _ h => h)
  refine wp_mono (hf _ a _ hr t hd' ha') (fun b u ⟨h1, h2, h3, h4⟩ => ?_) (fun _ _ h => h)
  exact ⟨h1, h2, h3.trans hl, h _ _ _ _ _ hr h4⟩

theorem Stages.bind {f : α → Eff (Session D L) ε β} {relb : D → β → D → Prop}
    (relf : α → D → β → D → Prop) (hm : Stages d m rel) (hf : ∀ a, Stages d (f a) (relf a))
    (h : ∀ v a w b x, rel v a w → relf a w b x → relb v b x) : Stages d (m >>= f) relb :=
  Stages.bindOf relf hm (fun _ a _ _ => hf a) h

theorem Stages.ite {c : Prop} [Decidable c] {n : Eff (Session D L) ε α}
    (hm : c → Stages d m rel) (hn : ¬c → Stages d n rel) : Stages d (if c then m else n) rel := by
  by_cases hc : c
  · rw [if_pos hc]; exact hm hc
  · rw [if_neg hc]; exact hn hc

theorem Stages.when {c : Prop} [Decidable c] {m : Eff (Session D L) ε Unit}
    {rel : D → Unit → D → Prop} (hm : c → Stages d m rel) (h : ∀ v, rel v () v) :
    Stages d (Eff.when c m) rel :=
  Stages.ite hm fun _ => Stages.pure () h

theorem Stages.managerRead (fault : Option ε) (query : D → α) :
    Stages d (managerRead fault query : Eff (Session D L) ε α)
      (fun v a w => w = v ∧ a = query v) := by
  intro s hd ha
  simp only [Transaction.managerRead, wp_bind, wp_mayFail, wp_read]
  exact ⟨fun _ => ⟨hd, ha, trivial, by simp⟩, fun _ _ => hd⟩

theorem Stages.connectionRead (fault : Option ε) (query : D → α) :
    Stages d (connectionRead fault query : Eff (Session D L) ε α)
      (fun v a w => w = v ∧ a = query d) := by
  intro s hd ha
  simp only [Transaction.connectionRead, wp_bind, wp_mayFail, wp_read]
  exact ⟨fun _ => ⟨hd, ha, trivial, by simp [hd]⟩, fun _ _ => hd⟩

theorem Stages.managerWrite (fault : Option ε) (refuse : D → Option ε) (w : D → D) :
    Stages d (managerWrite fault refuse w : Eff (Session D L) ε Unit)
      (fun v _ v' => refuse v = none ∧ v' = w v) := by
  intro s hd ha
  obtain ⟨p, hp⟩ := Option.isSome_iff_exists.mp ha
  obtain ⟨hpend, hdb⟩ := Session.stage_of_pending hp w
  simp only [Transaction.managerWrite, wp_bind, wp_mayFail, wp_read, wp_update]
  refine ⟨fun _ => ⟨fun hr => ⟨hdb.trans hd, ?_, s.stage_log w, hr, ?_⟩, fun _ _ => hd⟩,
    fun _ _ => hd⟩
  · simp [Session.isTransactionActive, hpend]
  · rw [Session.view_of_pending hpend, Session.view_of_pending hp, hdb]; rfl

/-- A mapped body: the elements' relations, chained. -/
theorem Stages.mapEach {f : β → Eff (Session D L) ε α} {P : D → β → α → Prop} {xs : List β}
    (h : ∀ x ∈ xs, Stages d (f x) (fun v a w => w = v ∧ P v x a)) :
    Stages d (mapEach xs f) (fun v as w => w = v ∧ List.Forall₂ (P v) xs as) := by
  induction xs with
  | nil => exact Stages.pure _ (fun v => ⟨rfl, .nil⟩)
  | cons x xs ih =>
    refine Stages.bind (fun a v as w => w = v ∧ ∃ as', as = a :: as' ∧
      List.Forall₂ (P v) xs as') (h x (by simp)) (fun a => ?_) ?_
    · refine Stages.bind (fun as v b w => w = v ∧ b = a :: as) (ih fun y hy => h y (by simp [hy]))
        (fun as => Stages.pure _ fun v => ⟨rfl, rfl⟩) ?_
      intro v as w b x hfirst hnext
      obtain ⟨rfl, hf⟩ := hfirst
      obtain ⟨rfl, rfl⟩ := hnext
      exact ⟨rfl, as, rfl, hf⟩
    · intro v a w b x hfirst hnext
      obtain ⟨rfl, hp⟩ := hfirst
      obtain ⟨rfl, as, rfl, hf⟩ := hnext
      exact ⟨rfl, .cons hp hf⟩

/-- **All or nothing.** A transaction around a body either commits what the
body made of the data, or leaves the committed data as they were. -/
theorem Stages.transaction [TransactionErrors ε] {P : D → Prop} (f₁ f₂ f₃ : Option ε)
    (hm : Stages d m rel) (h : ∀ a w, rel d a w → P w) {s : Session D L} (hd : s.db = d) :
    wp (do
        createQueryRunner
        connect f₁
        startTransaction f₂
        let _ ← m
        commitTransaction f₃)
      (fun _ t => P t.db ∧ t.isTransactionActive = false ∧ t.log = s.log)
      (fun _ t => t.db = d) s := by
  refine wp_opened (fun _ _ u hud hul hup => ?_) (fun _ _ u hud _ _ => hud.trans hd)
  have hactive : u.isTransactionActive = true := by rw [Session.isTransactionActive, hup]; rfl
  rw [wp_bind]
  refine wp_mono (hm u (hud.trans hd) hactive) (fun a t ⟨hd', ha, hl, hr⟩ => ?_) (fun _ _ h => h)
  obtain ⟨p, hp⟩ := Option.isSome_iff_exists.mp ha
  -- the transaction starts on the committed data
  rw [Session.view_of_pending hup, Session.view_of_pending hp, hd', hud, hd, id_eq] at hr
  refine wp_commitTransaction_pending hp (fun _ v hvd hvl hvp => ?_) (fun _ _ => hd')
  refine ⟨?_, ?_, hvl.trans (hl.trans hul)⟩
  · rw [hvd, hd']
    exact h a _ hr
  · rw [Session.isTransactionActive, hvp]
    rfl

/-- Ending without a commit leaves the committed data alone. -/
theorem wp_rollbackTransaction_db [TransactionErrors ε] {fault : Option ε} {s : Session D L} :
    wp (rollbackTransaction fault) (fun _ t => t.db = s.db) (fun _ t => t.db = s.db) s := by
  simp only [rollbackTransaction, wp_bind, wp_read]
  cases s.pending with
  | none => rfl
  | some p =>
    simp only [wp_bind, wp_mayFail, wp_update, Session.withRunner_db, implies_true, and_self]

theorem wp_rollbackIfCreated_db [TransactionErrors ε] {fault : Option ε} {s : Session D L} :
    wp (rollbackIfCreated fault) (fun _ t => t.db = s.db) (fun _ t => t.db = s.db) s := by
  simp only [rollbackIfCreated, wp_bind, wp_read, wp_ite, wp_pure]
  exact ⟨fun _ => wp_rollbackTransaction_db, fun _ => trivial⟩

theorem wp_rollbackIfActive_db [TransactionErrors ε] {fault : Option ε} {s : Session D L} :
    wp (rollbackIfActive fault) (fun _ t => t.db = s.db) (fun _ t => t.db = s.db) s := by
  simp only [rollbackIfActive, wp_bind, wp_read, wp_ite, wp_pure]
  exact ⟨fun _ => wp_rollbackTransaction_db, fun _ => trivial⟩

/-- A rollback that is asked for only while there is a transaction. -/
theorem wp_rollbackIfActive [TransactionErrors ε] {fault : Option ε} {s : Session D L}
    {Q : Unit → Session D L → Prop} {R : ε → Session D L → Prop}
    (hQ : s.isTransactionActive = true → fault = none → ∀ t : Session D L, t.db = s.db →
      t.log = s.log → t.pending = none → Q () t)
    (hidle : s.isTransactionActive = false → Q () s)
    (hR : s.isTransactionActive = true → ∀ e, fault = some e → R e s) :
    wp (rollbackIfActive fault) Q R s := by
  simp only [rollbackIfActive, wp_bind, wp_read, wp_ite, wp_pure]
  refine ⟨fun hactive => ?_, fun hidle' => hidle (Bool.not_eq_true _ ▸ hidle')⟩
  obtain ⟨p, hp⟩ := Option.isSome_iff_exists.mp hactive
  obtain ⟨c, r, hrun⟩ := Session.pending_runner hp
  simp only [rollbackTransaction, wp_bind, wp_read, hp, wp_mayFail, wp_update]
  refine ⟨fun hf => hQ hactive hf _ rfl rfl ?_, fun e hf => hR hactive e hf⟩
  simp [Session.pending, Session.withRunner, hrun]

/-- What a block leaves of the committed data, however it ends, is what is left
after a catch block that rolls back and rethrows and a finally block that does
not commit. -/
theorem wp_settles [TransactionErrors ε] {block : Eff (Session D L) ε Unit} {P : D → Prop}
    {handler : ε → ε} {fault : Option ε} {last : Eff (Session D L) ε Unit} {s : Session D L}
    (hlast : ∀ t, wp last (fun _ u => u.db = t.db) (fun _ u => u.db = t.db) t)
    (h : wp block (fun _ t => P t.db) (fun _ t => P t.db) s) :
    wp (tryFinally
        (tryCatch block fun e => do
          rollbackIfCreated fault
          .throw (handler e))
        last)
      (fun _ t => P t.db) (fun _ t => P t.db) s := by
  have hkept : ∀ t : Session D L, P t.db → wp last (fun _ u => P u.db) (fun _ u => P u.db) t :=
    fun t ht => wp_mono (hlast t) (fun _ u hu => hu ▸ ht) (fun _ u hu => hu ▸ ht)
  rw [wp_tryFinally, wp_tryCatch]
  refine wp_mono h (fun _ t ht => hkept t ht) (fun e t ht => ?_)
  rw [wp_bind]
  refine wp_mono wp_rollbackIfCreated_db (fun _ u hu => ?_) (fun _ u hu => ?_)
  · exact hkept u (hu ▸ ht)
  · exact hkept u (hu ▸ ht)

theorem wp_releaseIfHeld {s : Session D L} {R : ε → Session D L → Prop} :
    wp (releaseIfHeld) (fun _ t => t.db = s.db ∧ t.log = s.log) R s := by
  simp only [releaseIfHeld, release, wp_bind, wp_read]
  cases s.runner with
  | none => exact ⟨rfl, rfl⟩
  | some r =>
    simp only [wp_ite, wp_update, wp_pure, Session.released_db, Session.released_log, implies_true,
      and_self]

/-- The transaction of the runner is as it was. -/
theorem wp_releaseIfHeld_pending {s : Session D L} {R : ε → Session D L → Prop} :
    wp (releaseIfHeld) (fun _ t => t.pending = s.pending) R s := by
  simp only [releaseIfHeld, release, wp_bind, wp_read]
  cases hrunner : s.runner with
  | none => exact rfl
  | some r =>
    simp only [wp_ite, wp_update, wp_pure, implies_true, and_true]
    intro _
    simp [Session.pending, Session.released, hrunner]

/-- Releasing the runner leaves what a block has made of the data and the log. -/
theorem wp_finallyRelease {m : Eff (Session D L) ε α} {P : α → D → L → Prop} {F : D → L → Prop}
    {s : Session D L} (h : wp m (fun a t => P a t.db t.log) (fun _ t => F t.db t.log) s) :
    wp (tryFinally m releaseIfHeld) (fun a t => P a t.db t.log) (fun _ t => F t.db t.log) s := by
  have hlast : ∀ (C : D → L → Prop) (t : Session D L), C t.db t.log →
      ∀ R : ε → Session D L → Prop, wp releaseIfHeld (fun _ u => C u.db u.log) R t := by
    intro C t hc R
    refine wp_mono wp_releaseIfHeld (fun _ u hu => ?_) (fun _ _ hr => hr)
    rw [hu.1, hu.2]
    exact hc
  rw [wp_tryFinally]
  exact wp_mono h (fun a t ht => hlast (P a) t ht _) (fun _ t ht => hlast F t ht _)

/-- A catch block that rolls back and rethrows leaves them too. -/
theorem wp_rollbackAndThrow [TransactionErrors ε] {fault : Option ε} {e : ε} {P : D → L → Prop}
    {Q : α → Session D L → Prop} {s : Session D L} (h : P s.db s.log) :
    wp (do
        rollbackIfActive fault
        .throw e) Q (fun _ t => P t.db t.log) s := by
  rw [wp_bind]
  refine wp_rollbackIfActive (fun _ _ t hdb hlog _ => ?_) (fun _ => h) fun _ _ _ => h
  rw [wp_throw, hdb, hlog]
  exact h

/-- One that rolls back and puts the error on the record goes on with the data as they
were, unless a transaction is open and its rollback fails. -/
theorem wp_rollbackAndRecord [TransactionErrors ε] {fault : Option ε} {last : Eff (Session D L) ε α}
    {a : α} {f : L → L} {P : α → D → L → Prop} {F : D → L → Prop} {s : Session D L}
    (hlast : ∀ t : Session D L, last t = (.ok a, { t with log := f t.log }))
    (hrecorded : ¬ (s.isTransactionActive = true ∧ fault.isSome = true) → P a s.db (f s.log))
    (hfailed : s.isTransactionActive = true ∧ fault.isSome = true → F s.db s.log) :
    wp (do
        rollbackIfActive fault
        last) (fun a t => P a t.db t.log) (fun _ t => F t.db t.log) s := by
  have hend : ∀ t : Session D L, t.db = s.db → t.log = s.log →
      ¬ (s.isTransactionActive = true ∧ fault.isSome = true) →
      wp last (fun a t => P a t.db t.log) (fun _ t => F t.db t.log) t := by
    intro t hdb hlog hfree
    rw [wp_iff]
    refine ⟨fun b u hrun => ?_, fun e u hrun => ?_⟩
    · rw [hlast t] at hrun
      cases hrun
      show P a t.db (f t.log)
      rw [hdb, hlog]
      exact hrecorded hfree
    · rw [hlast t] at hrun
      cases hrun
  rw [wp_bind]
  refine wp_rollbackIfActive (fun _ hfault t hdb hlog _ => hend t hdb hlog fun h => ?_)
    (fun hidle => hend s rfl rfl fun h => ?_) (fun hactive e hfault => hfailed ⟨hactive, ?_⟩)
  · rw [hfault] at h
    cases h.2
  · rw [hidle] at h
    cases h.1
  · rw [hfault]
    rfl

/-- A step of a loop that puts its errors on the record: what the block guarantees when
it returns, and what holds of the data and the record at a throw, are left after the
catch and the finally block. -/
theorem wp_recordedStep [TransactionErrors ε] {block : Eff (Session D L) ε α}
    {last : ε → Eff (Session D L) ε α} {a : α} {f : ε → L → L} {fault : Option ε}
    {P : α → D → L → Prop} {F : D → L → Prop} {s : Session D L}
    (hlast : ∀ e (t : Session D L), last e t = (.ok a, { t with log := f e t.log }))
    (h : wp block (fun b t => P b t.db t.log)
      (fun e t =>
        (¬ (t.isTransactionActive = true ∧ fault.isSome = true) → P a t.db (f e t.log)) ∧
        (t.isTransactionActive = true ∧ fault.isSome = true → F t.db t.log)) s) :
    wp (tryFinally
        (tryCatch block fun e => do
          rollbackIfActive fault
          last e)
        releaseIfHeld)
      (fun b t => P b t.db t.log) (fun _ t => F t.db t.log) s := by
  refine wp_finallyRelease (P := P) (F := F) ?_
  rw [wp_tryCatch]
  refine wp_mono h (fun _ _ ht => ht) (fun e t ht => ?_)
  exact wp_rollbackAndRecord (P := P) (F := F) (hlast e) ht.1 ht.2

/-- Past such a step a transaction is open exactly where the block left it open: after a
throw it is rolled back, or the step throws too. -/
theorem wp_recordedStep_active [TransactionErrors ε] {block : Eff (Session D L) ε α}
    {last : ε → Eff (Session D L) ε α} {a : α} {f : ε → L → L} {fault : Option ε} {A F : Prop}
    {s : Session D L}
    (hlast : ∀ e (t : Session D L), last e t = (.ok a, { t with log := f e t.log }))
    (h : wp block (fun _ t => t.isTransactionActive = true ↔ A)
      (fun _ t => ¬ A ∧ (t.isTransactionActive = true ∧ fault.isSome = true → F)) s) :
    wp (tryFinally
        (tryCatch block fun e => do
          rollbackIfActive fault
          last e)
        releaseIfHeld)
      (fun _ t => t.isTransactionActive = true ↔ A) (fun _ _ => F) s := by
  have hcaught : wp (tryCatch block fun e => do
          rollbackIfActive fault
          last e) (fun _ t => t.isTransactionActive = true ↔ A) (fun _ _ => F) s := by
    have hclosed : ∀ e (t : Session D L), t.isTransactionActive = false → ¬ A →
        wp (last e) (fun _ u => u.isTransactionActive = true ↔ A) (fun _ _ => F) t := by
      intro e t ht hA
      rw [wp, hlast e t]
      refine ⟨fun hactive => ?_, fun h => absurd h hA⟩
      exact absurd (ht.symm.trans hactive) Bool.false_ne_true
    rw [wp_tryCatch]
    refine wp_mono h (fun _ t ht => ht) (fun e t ht => ?_)
    rw [wp_bind]
    refine wp_rollbackIfActive (fun _ _ u _ _ hu => hclosed e u ?_ ht.1)
      (fun hidle => hclosed e t hidle ht.1) (fun hactive e' hfault => ht.2 ⟨hactive, ?_⟩)
    · rw [Session.isTransactionActive, hu]
      rfl
    · rw [hfault]
      rfl
  rw [wp_tryFinally]
  refine wp_mono hcaught (fun _ t ht => ?_) (fun e t ht => ?_)
  · refine wp_mono wp_releaseIfHeld_pending (fun _ u hu => ?_) (fun _ _ hr => hr)
    rw [Session.isTransactionActive, hu]
    exact ht
  · exact wp_mono wp_releaseIfHeld_pending (fun _ _ _ => ht) (fun _ _ hr => hr)

/-- The frame of a guarded block: whatever the block guarantees when it
returns, and the committed data as they were when it throws, survive a catch
block that rolls back and rethrows and a finally block that releases. -/
theorem wp_guarded [TransactionErrors ε] {block : Eff (Session D L) ε Unit} {P : D → L → Prop}
    {handler : ε → ε} {fault : Option ε} {s : Session D L}
    (h : wp block (fun _ t => P t.db t.log) (fun _ t => t.db = d) s) :
    wp (tryFinally
        (tryCatch block fun e => do
          rollbackIfCreated fault
          .throw (handler e))
        releaseIfHeld)
      (fun _ t => P t.db t.log) (fun _ t => t.db = d) s := by
  refine wp_finallyRelease (P := fun _ => P) (F := fun d' _ => d' = d) ?_
  rw [wp_tryCatch]
  refine wp_mono h (fun _ _ ht => ht) (fun e t ht => ?_)
  rw [wp_bind]
  exact wp_mono wp_rollbackIfCreated_db (fun _ u hu => hu.trans ht) (fun _ u hu => hu.trans ht)

end BlockchainTask.Library.Transaction

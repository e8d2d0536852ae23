import BlockchainTask.Library.Frame
import BlockchainTask.Library.Transaction

/-! # Connections of a session

A runner holds a connection from its connect to its release, and `held` counts
the connections that are held by any runner of the session. Statements leave the
runner as it is (`shape`), and beginning or ending a transaction leaves the
connection to it (`hold`). A body that connects is accounted for by the runner it
leaves (`Balances`), and a release at its end settles the account, so what a
program loses is what it connects outside of such an end. -/
namespace BlockchainTask.Library.Connections
open BlockchainTask.Library.Effect BlockchainTask.Library.Effect.Eff
open BlockchainTask.Library.Frame BlockchainTask.Library.Transaction

variable {D L ε α β : Type}

/-- The connections of the session's runner: one, between its connect and its
release. -/
def owned (s : Session D L) : Nat :=
  match s.runner with
  | some r => if r.connected && !r.isReleased then 1 else 0
  | none => 0

/-- How far a runner has got: whether it is connected, whether it is released,
and whether it has a transaction open. -/
structure Progress where
  connected : Bool
  isReleased : Bool
  active : Bool

def Progress.of (r : Runner D) : Progress := ⟨r.connected, r.isReleased, r.pending.isSome⟩

def shape (s : Session D L) : Nat × Option Progress := (s.held, s.runner.map Progress.of)

/-- The shape, whether or not a transaction is open. -/
def hold (s : Session D L) : Nat × Option (Bool × Bool) :=
  (s.held, s.runner.map fun r => (r.connected, r.isReleased))

theorem hold_eq (s : Session D L) :
    hold s = ((shape s).1, (shape s).2.map fun p => (p.connected, p.isReleased)) := by
  simp [hold, shape, Progress.of, Option.map_map, Function.comp_def]

theorem keeps_hold {m : Eff (Session D L) ε α} (h : Keeps shape m) :
    Keeps (hold : Session D L → _) m := by
  intro s
  rw [hold_eq, hold_eq, h s]

theorem owned_eq (s : Session D L) :
    owned s = match (hold s).2 with
      | some (connected, isReleased) => if connected && !isReleased then 1 else 0
      | none => 0 := by
  unfold owned hold
  cases s.runner <;> rfl

theorem held_of_hold {s t : Session D L} (h : hold t = hold s) : t.held = s.held :=
  congrArg Prod.fst h

theorem owned_of_hold {s t : Session D L} (h : hold t = hold s) : owned t = owned s := by
  rw [owned_eq, owned_eq, h]

theorem keeps_held {m : Eff (Session D L) ε α} (h : Keeps shape m) : Keeps Session.held m :=
  fun s => held_of_hold (keeps_hold h s)

theorem isTransactionActive_eq (s : Session D L) :
    s.isTransactionActive = ((shape s).2.map Progress.active).getD false := by
  unfold Session.isTransactionActive Session.pending shape
  cases s.runner <;> rfl

theorem active_of_shape {s t : Session D L} (h : shape t = shape s) :
    t.isTransactionActive = s.isTransactionActive := by
  rw [isTransactionActive_eq, isTransactionActive_eq, h]

/-! ## Statements -/

theorem keeps_writeLog (f : L → L) :
    Keeps (shape : Session D L → _) (writeLog f : Eff (Session D L) ε Unit) :=
  Keeps.update fun _ => rfl

theorem keeps_managerRead (fault : Option ε) (query : D → α) :
    Keeps (shape : Session D L → _) (managerRead fault query : Eff (Session D L) ε α) :=
  Keeps.bind (Keeps.mayFail fault) fun _ => Keeps.read _

theorem shape_stage (s : Session D L) (w : D → D) : shape (s.stage w) = shape s := by
  unfold Session.stage
  split
  · rename_i hrunner
    simp [shape, hrunner, Progress.of]
  · rfl

theorem keeps_managerWrite (fault : Option ε) (refuse : D → Option ε) (w : D → D) :
    Keeps (shape : Session D L → _) (managerWrite fault refuse w : Eff (Session D L) ε Unit) :=
  Keeps.bind (Keeps.mayFail fault) fun _ => Keeps.bind (Keeps.read _) fun _ =>
    Keeps.bind (Keeps.mayFail _) fun _ => Keeps.update fun s => shape_stage s w

theorem keeps_connectionRead (fault : Option ε) (query : D → α) :
    Keeps (shape : Session D L → _) (connectionRead fault query : Eff (Session D L) ε α) :=
  Keeps.bind (Keeps.mayFail fault) fun _ => Keeps.read _

theorem keeps_connectionWrite (fault : Option ε) (w : D → D) :
    Keeps (shape : Session D L → _) (connectionWrite fault w : Eff (Session D L) ε Unit) :=
  Keeps.bind (Keeps.mayFail fault) fun _ => Keeps.update fun _ => rfl

/-! ## The ends of a transaction -/

theorem hold_withPending (s : Session D L) (p : Option (D → D)) :
    hold (s.withRunner fun r => { r with pending := p }) = hold s := by
  simp [hold, Session.withRunner, Option.map_map, Function.comp_def]

theorem hold_committed (s : Session D L) (p : D → D) : hold (s.committed p) = hold s := by
  simp [hold, Session.committed, Option.map_map, Function.comp_def]

theorem keeps_startTransaction (fault : Option ε) :
    Keeps (hold : Session D L → _) (startTransaction fault : Eff (Session D L) ε Unit) :=
  Keeps.bind (Keeps.update fun s => hold_withPending s (some id)) fun _ => Keeps.mayFail fault

theorem keeps_commitTransaction [TransactionErrors ε] (fault : Option ε) :
    Keeps (hold : Session D L → _) (commitTransaction fault : Eff (Session D L) ε Unit) := by
  refine Keeps.bind (Keeps.read _) fun pending => ?_
  cases pending with
  | none => exact Keeps.throw _
  | some p => exact Keeps.bind (Keeps.mayFail fault) fun _ => Keeps.update fun s => hold_committed s p

theorem keeps_rollbackTransaction [TransactionErrors ε] (fault : Option ε) :
    Keeps (hold : Session D L → _) (rollbackTransaction fault : Eff (Session D L) ε Unit) := by
  refine Keeps.bind (Keeps.read _) fun pending => ?_
  cases pending with
  | none => exact Keeps.throw _
  | some p => exact Keeps.bind (Keeps.mayFail fault) fun _ => Keeps.update fun s => hold_withPending s none

theorem keeps_rollbackIfCreated [TransactionErrors ε] (fault : Option ε) :
    Keeps (hold : Session D L → _) (rollbackIfCreated fault : Eff (Session D L) ε Unit) :=
  Keeps.bind (Keeps.read _) fun _ => Keeps.ite (keeps_rollbackTransaction fault) (Keeps.pure ())

theorem keeps_rollbackIfActive [TransactionErrors ε] (fault : Option ε) :
    Keeps (hold : Session D L → _) (rollbackIfActive fault : Eff (Session D L) ε Unit) :=
  Keeps.bind (Keeps.read _) fun _ => Keeps.ite (keeps_rollbackTransaction fault) (Keeps.pure ())

/-! ## Bodies that connect -/

/-- From where no runner holds a connection, what the body takes is held by the
runner it leaves. -/
def Balances (m : Eff (Session D L) ε α) : Prop :=
  ∀ s, owned s = 0 → (m s).2.held = s.held + owned (m s).2

theorem balances_of_keeps {m : Eff (Session D L) ε α} (h : Keeps shape m) : Balances m := by
  intro s hs
  have hkept := keeps_hold h s
  rw [held_of_hold hkept, owned_of_hold hkept, hs]
  omega

namespace Balances

/-- What comes before the body connects takes nothing. -/
theorem bind {m : Eff (Session D L) ε α} {f : α → Eff (Session D L) ε β} (hm : Keeps shape m)
    (hf : ∀ a, Balances (f a)) : Balances (m >>= f) := by
  intro s hs
  have hkept := keeps_hold hm s
  rw [bind_eq]
  generalize m s = settled at hkept ⊢
  obtain ⟨result, t⟩ := settled
  have hheld : t.held = s.held := held_of_hold hkept
  have howned : owned t = 0 := (owned_of_hold hkept).trans hs
  cases result with
  | error e =>
    show t.held = s.held + owned t
    omega
  | ok a => exact hheld ▸ hf a t howned

theorem ite {c : Prop} [Decidable c] {m n : Eff (Session D L) ε α} (hm : Balances m)
    (hn : Balances n) : Balances (if c then m else n) := by
  split
  · exact hm
  · exact hn

/-- What comes after the body leaves the runner and its connection. -/
theorem andThen {m : Eff (Session D L) ε α} {f : α → Eff (Session D L) ε β} (hm : Balances m)
    (hf : ∀ a, Keeps (hold : Session D L → _) (f a)) : Balances (m >>= f) := by
  intro s hs
  have hbalance := hm s hs
  rw [bind_eq]
  generalize m s = settled at hbalance ⊢
  obtain ⟨result, t⟩ := settled
  cases result with
  | error e => exact hbalance
  | ok a =>
    have hkept := hf a t
    show (f a t).2.held = s.held + owned (f a t).2
    rw [held_of_hold hkept, owned_of_hold hkept]
    exact hbalance

/-- The handler leaves the runner and its connection. -/
theorem tryCatch {m : Eff (Session D L) ε α} {h : ε → Eff (Session D L) ε α} (hm : Balances m)
    (hh : ∀ e, Keeps (hold : Session D L → _) (h e)) : Balances (Eff.tryCatch m h) := by
  intro s hs
  have hleft := obs_tryCatch (m := m) hh s
  rw [held_of_hold hleft, owned_of_hold hleft]
  exact hm s hs

/-- A session that is opened for a body. -/
theorem opened {m : Eff (Session D L) ε α} (hm : Keeps (hold : Session D L → _) m)
    (f₁ f₂ : Option ε) :
    Balances (do
      createQueryRunner
      connect f₁
      startTransaction f₂
      m : Eff (Session D L) ε α) := by
  intro s _
  cases f₁ with
  | some e => rfl
  | none =>
    have hrest : Keeps (hold : Session D L → _) (startTransaction f₂ >>= fun _ => m) :=
      Keeps.bind (keeps_startTransaction f₂) fun _ => hm
    have hkept := hrest { s with runner := some ⟨true, false, none⟩, held := s.held + 1 }
    show ((startTransaction f₂ >>= fun _ => m) _).2.held = s.held + owned _
    exact (held_of_hold hkept).trans (congrArg (s.held + ·) (owned_of_hold hkept).symm)

end Balances

/-! ## The end of a program -/

/-- A release cannot fail, and gives back what the runner holds. -/
theorem releaseIfHeld_settles (ε : Type) (s : Session D L) :
    ∃ t, (releaseIfHeld s : Except ε Unit × Session D L) = (.ok (), t) ∧
      t.held = s.held - owned s := by
  cases hrunner : s.runner with
  | none =>
    refine ⟨s, ?_, ?_⟩
    · simp only [releaseIfHeld, bind_eq, Eff.read, hrunner]
      rfl
    · simp [owned, hrunner]
  | some r =>
    cases hreleased : r.isReleased with
    | true =>
      refine ⟨s, ?_, ?_⟩
      · simp only [releaseIfHeld, bind_eq, Eff.read, hrunner, hreleased]
        rfl
      · simp [owned, hrunner, hreleased]
    | false =>
      refine ⟨s.released, ?_, ?_⟩
      · simp only [releaseIfHeld, bind_eq, Eff.read, hrunner, hreleased]
        rfl
      · cases hconnected : r.connected <;>
          simp [owned, Session.released, hrunner, hreleased, hconnected]

theorem held_tryFinally_release (m : Eff (Session D L) ε α) (s : Session D L) :
    (Eff.tryFinally m releaseIfHeld s).2.held = (m s).2.held - owned (m s).2 := by
  unfold Eff.tryFinally
  generalize m s = settled
  obtain ⟨u, hrelease, hheld⟩ := releaseIfHeld_settles ε settled.2
  rw [hrelease]
  exact hheld

/-- **No leak.** A body whose runner is declared before it and released after it
gives back what it takes, however it ends. -/
theorem held_guarded {m : Eff (Session D L) ε α} (hm : Balances m) :
    Keeps Session.held (do
      noQueryRunner
      .tryFinally m releaseIfHeld : Eff (Session D L) ε α) := by
  intro s
  have hbalance := hm { s with runner := none } rfl
  show (Eff.tryFinally m releaseIfHeld { s with runner := none }).2.held = s.held
  rw [held_tryFinally_release, hbalance]
  exact Nat.add_sub_cancel _ _

/-! ## How far an opening gets -/

/-- The runner that an opening leaves when the creation and the connect fail so. -/
def openedBy (created connected : Option ε) : Option (Bool × Bool) :=
  if created.isSome then none else some (connected.isNone, false)

theorem hold_opening {m : Eff (Session D L) ε α} (hm : Keeps (hold : Session D L → _) m)
    (f₀ f₁ f₂ : Option ε) {s : Session D L} (hs : s.runner = none) :
    (hold ((do
      .mayFail f₀
      createQueryRunner
      connect f₁
      startTransaction f₂
      m : Eff (Session D L) ε α) s).2).2 = openedBy f₀ f₁ := by
  cases f₀ with
  | some e =>
    show (hold s).2 = none
    simp [hold, hs]
  | none =>
    cases f₁ with
    | some e => rfl
    | none =>
      have hrest : Keeps (hold : Session D L → _) (startTransaction f₂ >>= fun _ => m) :=
        Keeps.bind (keeps_startTransaction f₂) fun _ => hm
      exact congrArg Prod.snd (hrest { s with runner := some ⟨true, false, none⟩, held := s.held + 1 })

/-- A body that throws while its transaction is open leaves it open. -/
def OpenOnError (m : Eff (Session D L) ε α) : Prop :=
  ∀ s, s.isTransactionActive = true →
    wp m (fun _ _ => True) (fun _ t => t.isTransactionActive = true) s

theorem OpenOnError.bind {m : Eff (Session D L) ε α} {f : α → Eff (Session D L) ε β}
    (hm : Keeps shape m) (hf : ∀ a, OpenOnError (f a)) : OpenOnError (m >>= f) := by
  intro s hs
  rw [wp_bind]
  exact wp_mono (Keeps.wp hm s) (fun a t ht => hf a t ((active_of_shape ht).trans hs))
    fun _ t ht => (active_of_shape ht).trans hs

theorem openOnError_commitTransaction [TransactionErrors ε] (fault : Option ε) :
    OpenOnError (commitTransaction fault : Eff (Session D L) ε Unit) := by
  intro s hs
  obtain ⟨p, hp⟩ := Option.isSome_iff_exists.mp hs
  exact wp_commitTransaction_pending hp (fun _ _ _ _ _ => trivial) fun _ _ => hs

/-- A catch block can end the transaction, or has none to end. -/
def recoverable (s : Session D L) : Bool := s.runner.isNone || s.isTransactionActive

/-- Between the creation of a runner and its connect, there is a runner without a
transaction. -/
theorem recoverable_opening {m : Eff (Session D L) ε α} (hm : OpenOnError m)
    (f₀ f₁ f₂ : Option ε) {s : Session D L} (hs : s.runner = none) :
    wp (do
        .mayFail f₀
        createQueryRunner
        connect f₁
        startTransaction f₂
        m)
      (fun _ _ => f₀ = none ∧ f₁ = none)
      (fun _ t => recoverable t = !(f₀.isNone && f₁.isSome)) s := by
  cases f₀ with
  | some e =>
    show recoverable s = true
    simp [recoverable, hs]
  | none =>
    cases f₁ with
    | some e => rfl
    | none =>
      cases f₂ with
      | some e => rfl
      | none =>
        have hbody := hm
          { s with runner := some ⟨true, false, some id⟩, held := s.held + 1 } rfl
        refine wp_mono hbody (fun _ _ _ => ⟨rfl, rfl⟩) (fun _ u hu => ?_)
        show (u.runner.isNone || u.isTransactionActive) = true
        rw [hu, Bool.or_true]

/-- Both, of a body between the opening and the end of the block. -/
theorem wp_opening {m : Eff (Session D L) ε α} (hkeeps : Keeps (hold : Session D L → _) m)
    (hopen : OpenOnError m) (f₀ f₁ f₂ : Option ε) {s : Session D L} (hs : s.runner = none) :
    wp (do
        .mayFail f₀
        createQueryRunner
        connect f₁
        startTransaction f₂
        m)
      (fun _ t => (hold t).2 = openedBy f₀ f₁ ∧ f₀ = none ∧ f₁ = none)
      (fun _ t => (hold t).2 = openedBy f₀ f₁ ∧ recoverable t = !(f₀.isNone && f₁.isSome)) s := by
  have hleft := hold_opening hkeeps f₀ f₁ f₂ hs
  have hrecoverable := wp_iff.mp (recoverable_opening hopen f₀ f₁ f₂ hs)
  rw [wp_iff]
  refine ⟨fun a t hrun => ⟨?_, hrecoverable.1 a t hrun⟩,
    fun e t hrun => ⟨?_, hrecoverable.2 e t hrun⟩⟩
  · rw [hrun] at hleft
    exact hleft
  · rw [hrun] at hleft
    exact hleft

/-! ## What a guarded block rejects with -/

/-- A final block that neither fails nor has anything to say. -/
def Silent (last : Eff (Session D L) ε Unit) : Prop := ∀ s, (last s).1 = .ok ()

theorem silent_releaseIfHeld : Silent (releaseIfHeld : Eff (Session D L) ε Unit) := by
  intro s
  obtain ⟨t, hrelease, _⟩ := releaseIfHeld_settles ε s
  rw [hrelease]

/-- A rollback that does not fail fails only where there is no transaction. -/
theorem rollbackTransaction_fst [TransactionErrors ε] (s : Session D L) :
    (rollbackTransaction none s : Except ε Unit × Session D L).1 =
      if s.isTransactionActive then .ok () else .error TransactionErrors.transactionNotStarted := by
  rcases Option.eq_none_or_eq_some s.pending with hp | ⟨p, hp⟩
  · simp only [rollbackTransaction, bind_eq, Eff.read, Session.isTransactionActive, hp]
    rfl
  · simp only [rollbackTransaction, bind_eq, Eff.read, Session.isTransactionActive, hp]
    rfl

theorem silent_rollbackIfActive [TransactionErrors ε] :
    Silent (rollbackIfActive none : Eff (Session D L) ε Unit) := by
  intro s
  simp only [rollbackIfActive, bind_eq, Eff.read]
  cases hactive : s.isTransactionActive with
  | false => rfl
  | true =>
    rw [if_pos rfl, rollbackTransaction_fst, hactive]
    rfl

theorem rollbackIfCreated_fst (ε : Type) [TransactionErrors ε] (s : Session D L) :
    (rollbackIfCreated none s : Except ε Unit × Session D L).1 =
      if recoverable s then .ok () else .error TransactionErrors.transactionNotStarted := by
  rcases Option.eq_none_or_eq_some s.runner with hrunner | ⟨r, hrunner⟩
  · simp only [rollbackIfCreated, bind_eq, Eff.read, recoverable, hrunner]
    rfl
  · simp only [rollbackIfCreated, bind_eq, Eff.read, recoverable, hrunner]
    exact rollbackTransaction_fst s

theorem tryFinally_fst {m : Eff (Session D L) ε α} {last : Eff (Session D L) ε Unit}
    (hlast : Silent last) (s : Session D L) : (Eff.tryFinally m last s).1 = (m s).1 := by
  have hsilent := hlast (m s).2
  unfold Eff.tryFinally
  generalize last (m s).2 = ended at hsilent ⊢
  obtain ⟨result, t⟩ := ended
  cases hsilent
  rfl

/-- The error of the block, as the handler turns it, or the error of a rollback
that has nothing to end. -/
theorem rejects_guarded [TransactionErrors ε] {block : Eff (Session D L) ε Unit}
    {last : Eff (Session D L) ε Unit} {s t : Session D L} {e : ε} (handler : ε → ε)
    (hblock : block s = (.error e, t)) (hlast : Silent last) :
    (Eff.tryFinally
        (Eff.tryCatch block fun e => do
          rollbackIfCreated none
          .throw (handler e))
        last s).1 =
      .error (if recoverable t then handler e else TransactionErrors.transactionNotStarted) := by
  rw [tryFinally_fst hlast, tryCatch_of_error hblock, bind_eq]
  have hrollback := rollbackIfCreated_fst ε t
  generalize (rollbackIfCreated none t : Except ε Unit × Session D L) = settled at hrollback ⊢
  obtain ⟨result, u⟩ := settled
  cases hrecoverable : recoverable t with
  | true =>
    rw [hrecoverable] at hrollback
    cases hrollback
    rfl
  | false =>
    rw [hrecoverable] at hrollback
    cases hrollback
    rfl

end BlockchainTask.Library.Connections

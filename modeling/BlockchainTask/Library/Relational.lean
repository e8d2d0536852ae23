import BlockchainTask.Library.Transaction

/-! # Computations that settle alike

Two computations are alike for a relation of their states when, started in related
states, they settle with the same outcome in related states. Each combinator is alike
where its parts are. A program is alike to itself for a relation that tells only a part
of the state exactly when the rest makes no difference to this part, and so a relation of
a state with itself says what a program leaves alone.

On sessions a relation of the data is taken to the runners: statements that are pending
relate what they make of related data. -/
namespace BlockchainTask.Library.Relational
open BlockchainTask.Library.Effect BlockchainTask.Library.Transaction

variable {σ τ ε α β : Type}

/-- `P` holds of what both return. -/
def Alike (r : σ → τ → Prop) (P : α → Prop) (m : Eff σ ε α) (n : Eff τ ε α) : Prop :=
  ∀ s t, r s t → ∃ result s' t', m s = (result, s') ∧ n t = (result, t') ∧ r s' t' ∧
    ∀ a, result = .ok a → P a

/-- Any outcome. -/
def Any (_ : α) : Prop := True

namespace Alike
variable {r : σ → τ → Prop} {P : α → Prop} {m : Eff σ ε α} {n : Eff τ ε α}

theorem mono {Q : α → Prop} (h : Alike r P m n) (hPQ : ∀ a, P a → Q a) : Alike r Q m n := by
  intro s t hr
  obtain ⟨result, s', t', hm, hn, hr', hP⟩ := h s t hr
  exact ⟨result, s', t', hm, hn, hr', fun a ha => hPQ a (hP a ha)⟩

theorem any (h : Alike r P m n) : Alike r Any m n := h.mono fun _ _ => trivial

theorem pure {a : α} (h : P a) : Alike r P (pure a : Eff σ ε α) (pure a) := by
  intro s t hr
  refine ⟨.ok a, s, t, rfl, rfl, hr, fun b hb => ?_⟩
  cases hb
  exact h

theorem throw (e : ε) : Alike r P (.throw e : Eff σ ε α) (.throw e) := by
  intro s t hr
  exact ⟨.error e, s, t, rfl, rfl, hr, fun a ha => nomatch ha⟩

theorem await {answer : Except ε α} (h : ∀ a, answer = .ok a → P a) :
    Alike r P (.await answer : Eff σ ε α) (.await answer) :=
  fun s t hr => ⟨answer, s, t, rfl, rfl, hr, h⟩

theorem mayFail (fault : Option ε) :
    Alike r Any (.mayFail fault : Eff σ ε Unit) (.mayFail fault) := by
  intro s t hr
  cases fault with
  | none => exact ⟨.ok (), s, t, rfl, rfl, hr, fun _ _ => trivial⟩
  | some e => exact ⟨.error e, s, t, rfl, rfl, hr, fun _ _ => trivial⟩

theorem read {f : σ → α} {g : τ → α} (h : ∀ s t, r s t → f s = g t) :
    Alike r Any (.read f : Eff σ ε α) (.read g) := by
  intro s t hr
  refine ⟨.ok (f s), s, t, rfl, ?_, hr, fun _ _ => trivial⟩
  rw [h s t hr]
  rfl

theorem update {f : σ → σ} {g : τ → τ} (h : ∀ s t, r s t → r (f s) (g t)) :
    Alike r Any (.update f : Eff σ ε Unit) (.update g) :=
  fun s t hr => ⟨.ok (), f s, g t, rfl, rfl, h s t hr, fun _ _ => trivial⟩

theorem bind {Q : β → Prop} {f : α → Eff σ ε β} {g : α → Eff τ ε β} (hm : Alike r P m n)
    (hf : ∀ a, P a → Alike r Q (f a) (g a)) : Alike r Q (m >>= f) (n >>= g) := by
  intro s t hr
  obtain ⟨result, s', t', hms, hnt, hr', hP⟩ := hm s t hr
  cases result with
  | error e =>
    rw [Eff.bind_of_error hms, Eff.bind_of_error hnt]
    exact ⟨.error e, s', t', rfl, rfl, hr', fun b hb => nomatch hb⟩
  | ok a =>
    rw [Eff.bind_of_ok hms, Eff.bind_of_ok hnt]
    exact hf a (hP a rfl) s' t' hr'

theorem ite {c : Prop} [Decidable c] {m' : Eff σ ε α} {n' : Eff τ ε α}
    (hthen : c → Alike r P m n) (helse : ¬ c → Alike r P m' n') :
    Alike r P (if c then m else m') (if c then n else n') := by
  by_cases hc : c
  · rw [if_pos hc, if_pos hc]
    exact hthen hc
  · rw [if_neg hc, if_neg hc]
    exact helse hc

theorem when {c : Prop} [Decidable c] {m : Eff σ ε Unit} {n : Eff τ ε Unit}
    (h : c → Alike r Any m n) : Alike r Any (.when c m) (.when c n) :=
  ite h fun _ => pure trivial

theorem tryCatch {f : ε → Eff σ ε α} {g : ε → Eff τ ε α} (hm : Alike r P m n)
    (hf : ∀ e, Alike r P (f e) (g e)) : Alike r P (.tryCatch m f) (.tryCatch n g) := by
  intro s t hr
  obtain ⟨result, s', t', hms, hnt, hr', hP⟩ := hm s t hr
  cases result with
  | error e =>
    rw [Eff.tryCatch_of_error hms, Eff.tryCatch_of_error hnt]
    exact hf e s' t' hr'
  | ok a =>
    unfold Eff.tryCatch
    rw [hms, hnt]
    exact ⟨.ok a, s', t', rfl, rfl, hr', hP⟩

theorem tryFinally {f : Eff σ ε Unit} {g : Eff τ ε Unit} (hm : Alike r P m n)
    (hf : Alike r Any f g) : Alike r P (.tryFinally m f) (.tryFinally n g) := by
  intro s t hr
  obtain ⟨result, s', t', hms, hnt, hr', hP⟩ := hm s t hr
  obtain ⟨last, u, v, hfs, hgt, hr'', _⟩ := hf s' t' hr'
  unfold Eff.tryFinally
  rw [hms, hnt]
  simp only [hfs, hgt]
  cases last with
  | error e => exact ⟨.error e, u, v, rfl, rfl, hr'', fun a ha => nomatch ha⟩
  | ok _ => exact ⟨result, u, v, rfl, rfl, hr'', hP⟩

/-- `P` holds of each result. -/
theorem mapEach {xs : List β} {f : β → Eff σ ε α} {g : β → Eff τ ε α}
    (h : ∀ x ∈ xs, Alike r P (f x) (g x)) :
    Alike r (fun as => ∀ a ∈ as, P a) (.mapEach xs f) (.mapEach xs g) := by
  induction xs with
  | nil => exact pure fun a ha => absurd ha List.not_mem_nil
  | cons x xs ih =>
    refine bind (h x List.mem_cons_self) fun a ha => ?_
    refine bind (ih fun y hy => h y (List.mem_cons_of_mem _ hy)) fun as has => ?_
    exact pure (List.forall_mem_cons.mpr ⟨ha, has⟩)

theorem forEach {xs : List β} {f : β → Eff σ ε Unit} {g : β → Eff τ ε Unit}
    (h : ∀ x ∈ xs, Alike r Any (f x) (g x)) : Alike r Any (.forEach xs f) (.forEach xs g) := by
  induction xs with
  | nil => exact pure trivial
  | cons x xs ih =>
    exact bind (h x List.mem_cons_self) fun _ _ => ih fun y hy => h y (List.mem_cons_of_mem _ hy)

end Alike

/-! ## Sessions -/

variable {D L : Type} {r : D → D → Prop}

/-- Statements that take related data to related data. -/
def Lifts (r : D → D → Prop) (p q : D → D) : Prop := ∀ d e, r d e → r (p d) (q e)

theorem Lifts.comp {p q w x : D → D} (h : Lifts r w x) (h' : Lifts r p q) :
    Lifts r (w ∘ p) (x ∘ q) := fun d e hr => h _ _ (h' d e hr)

structure RunnerAlike (r : D → D → Prop) (a b : Runner D) : Prop where
  connected : a.connected = b.connected
  isReleased : a.isReleased = b.isReleased
  pending : Option.Rel (Lifts r) a.pending b.pending

structure SessionAlike (r : D → D → Prop) (s t : Session D L) : Prop where
  db : r s.db t.db
  runner : Option.Rel (RunnerAlike r) s.runner t.runner
  held : s.held = t.held
  log : s.log = t.log

namespace SessionAlike
variable {s t : Session D L}

/-- What is pending, as a case distinction. -/
theorem pending_cases (h : SessionAlike r s t) :
    (s.pending = none ∧ t.pending = none) ∨
      ∃ p q, s.pending = some p ∧ t.pending = some q ∧ Lifts r p q := by
  have hrunner := h.runner
  unfold Session.pending
  generalize s.runner = a at hrunner ⊢
  generalize t.runner = b at hrunner ⊢
  cases hrunner with
  | none => exact Or.inl ⟨rfl, rfl⟩
  | some hab =>
    have hpending := hab.pending
    rename_i a b
    show (a.pending = none ∧ b.pending = none) ∨ _
    generalize hp : a.pending = p at hpending
    generalize hq : b.pending = q at hpending
    cases hpending with
    | none => exact Or.inl ⟨rfl, rfl⟩
    | some hlifts => exact Or.inr ⟨_, _, hp, hq, hlifts⟩

theorem view (h : SessionAlike r s t) : r s.view t.view := by
  unfold Session.view
  rcases h.pending_cases with ⟨hs, ht⟩ | ⟨p, q, hs, ht, hlifts⟩
  · rw [hs, ht]
    exact h.db
  · rw [hs, ht]
    exact hlifts _ _ h.db

theorem withRunner {f g : Runner D → Runner D} (h : SessionAlike r s t)
    (hf : ∀ a b, RunnerAlike r a b → RunnerAlike r (f a) (g b)) :
    SessionAlike r (s.withRunner f) (t.withRunner g) := by
  refine ⟨h.db, ?_, h.held, h.log⟩
  have hrunner := h.runner
  show Option.Rel _ (s.runner.map f) (t.runner.map g)
  generalize s.runner = a at hrunner ⊢
  generalize t.runner = b at hrunner ⊢
  cases hrunner with
  | none => exact .none
  | some hab => exact .some (hf _ _ hab)

theorem stage {w x : D → D} (h : SessionAlike r s t) (hw : Lifts r w x) :
    SessionAlike r (s.stage w) (t.stage x) := by
  obtain ⟨sdb, srunner, sheld, slog⟩ := s
  obtain ⟨tdb, trunner, theld, tlog⟩ := t
  have hrunner := h.runner
  have hheld := h.held
  have hlog := h.log
  have hdb := h.db
  cases hrunner with
  | none => exact ⟨hw _ _ hdb, .none, hheld, hlog⟩
  | some hab =>
    rename_i a b
    obtain ⟨ac, ar, ap⟩ := a
    obtain ⟨bc, br, bp⟩ := b
    have hpending := hab.pending
    cases hpending with
    | none => exact ⟨hw _ _ hdb, .some ⟨hab.connected, hab.isReleased, .none⟩, hheld, hlog⟩
    | some hlifts =>
      exact ⟨hdb, .some ⟨hab.connected, hab.isReleased, .some (hw.comp hlifts)⟩, hheld, hlog⟩

end SessionAlike

/-! ## Operations -/

/-- A session's computation is alike to another one for a relation of the data. -/
abbrev SessionsAlike (r : D → D → Prop) (P : α → Prop) (m n : Eff (Session D L) ε α) : Prop :=
  Alike (SessionAlike r) P m n

namespace SessionsAlike
variable {fault : Option ε}

theorem noQueryRunner :
    SessionsAlike r Any (noQueryRunner : Eff (Session D L) ε Unit) noQueryRunner :=
  Alike.update fun _ _ h => ⟨h.db, .none, h.held, h.log⟩

theorem createQueryRunner :
    SessionsAlike r Any (createQueryRunner : Eff (Session D L) ε Unit) createQueryRunner :=
  Alike.update fun _ _ h => ⟨h.db, .some ⟨rfl, rfl, .none⟩, h.held, h.log⟩

theorem writeLog (f : L → L) :
    SessionsAlike r Any (writeLog f : Eff (Session D L) ε Unit) (writeLog f) :=
  Alike.update fun _ _ h => ⟨h.db, h.runner, h.held, congrArg f h.log⟩

theorem connect (fault : Option ε) :
    SessionsAlike r Any (connect fault : Eff (Session D L) ε Unit) (connect fault) := by
  refine Alike.bind (Alike.mayFail fault) fun _ _ => Alike.update fun s t h => ?_
  have hrunner := h.withRunner (f := fun r => { r with connected := true })
    (g := fun r => { r with connected := true }) fun _ _ hab => ⟨rfl, hab.isReleased, hab.pending⟩
  exact ⟨hrunner.db, hrunner.runner, congrArg (· + 1) h.held, h.log⟩

theorem startTransaction (fault : Option ε) :
    SessionsAlike r Any (startTransaction fault : Eff (Session D L) ε Unit)
      (startTransaction fault) := by
  refine Alike.bind (P := Any) (Alike.update fun s t h => ?_) fun _ _ => Alike.mayFail fault
  exact h.withRunner fun _ _ hab => ⟨hab.connected, hab.isReleased, .some fun _ _ hr => hr⟩

theorem connectionRead (fault : Option ε) {query query' : D → α}
    (h : ∀ d e, r d e → query d = query' e) :
    SessionsAlike r Any (connectionRead fault query : Eff (Session D L) ε α)
      (connectionRead fault query') :=
  Alike.bind (Alike.mayFail fault) fun _ _ => Alike.read fun _ _ hs => h _ _ hs.db

theorem connectionWrite (fault : Option ε) {w x : D → D} (h : Lifts r w x) :
    SessionsAlike r Any (connectionWrite fault w : Eff (Session D L) ε Unit)
      (connectionWrite fault x) :=
  Alike.bind (Alike.mayFail fault) fun _ _ =>
    Alike.update fun _ _ hs => ⟨h _ _ hs.db, hs.runner, hs.held, hs.log⟩

theorem managerRead (fault : Option ε) {query query' : D → α}
    (h : ∀ d e, r d e → query d = query' e) :
    SessionsAlike r Any (managerRead fault query : Eff (Session D L) ε α)
      (managerRead fault query') :=
  Alike.bind (Alike.mayFail fault) fun _ _ => Alike.read fun _ _ hs => h _ _ hs.view

theorem managerWrite (fault : Option ε) {refuse refuse' : D → Option ε} {w x : D → D}
    (hrefuse : ∀ d e, r d e → refuse d = refuse' e) (h : Lifts r w x) :
    SessionsAlike r Any (managerWrite fault refuse w : Eff (Session D L) ε Unit)
      (managerWrite fault refuse' x) := by
  refine Alike.bind (Alike.mayFail fault) fun _ _ => ?_
  intro s t hs
  have hsame : refuse s.view = refuse' t.view := hrefuse _ _ hs.view
  have hrest : SessionsAlike r Any
      (Eff.mayFail (refuse s.view) >>= fun _ => .update fun s => s.stage w :
        Eff (Session D L) ε Unit)
      (Eff.mayFail (refuse s.view) >>= fun _ => .update fun s => s.stage x) :=
    Alike.bind (Alike.mayFail _) fun _ _ => Alike.update fun _ _ hs => hs.stage h
  obtain ⟨result, s', t', hms, hnt, hr', hP⟩ := hrest s t hs
  refine ⟨result, s', t', hms, ?_, hr', hP⟩
  rw [hsame] at hnt
  exact hnt

theorem commitTransaction [TransactionErrors ε] (fault : Option ε) :
    SessionsAlike r Any (commitTransaction fault : Eff (Session D L) ε Unit)
      (commitTransaction fault) := by
  intro s t hs
  rcases hs.pending_cases with ⟨hnone, hnone'⟩ | ⟨p, q, hp, hq, hlifts⟩
  · refine ⟨.error TransactionErrors.transactionNotStarted, s, t, ?_, ?_, hs, fun _ _ => trivial⟩
    · simp only [Transaction.commitTransaction, Eff.bind_eq, Eff.read, hnone, Eff.throw]
    · simp only [Transaction.commitTransaction, Eff.bind_eq, Eff.read, hnone', Eff.throw]
  · have hended := hs.withRunner (f := fun r => { r with pending := none })
      (g := fun r => { r with pending := none }) fun _ _ hab =>
        ⟨hab.connected, hab.isReleased, .none⟩
    cases fault with
    | some e =>
      refine ⟨.error e, s, t, ?_, ?_, hs, fun _ _ => trivial⟩
      · simp only [Transaction.commitTransaction, Eff.bind_eq, Eff.read, hp, Eff.mayFail]
      · simp only [Transaction.commitTransaction, Eff.bind_eq, Eff.read, hq, Eff.mayFail]
    | none =>
      refine ⟨.ok (), s.committed p, t.committed q, ?_, ?_, ?_, fun _ _ => trivial⟩
      · simp only [Transaction.commitTransaction, Eff.bind_eq, Eff.read, hp, Eff.mayFail,
          Eff.update]
      · simp only [Transaction.commitTransaction, Eff.bind_eq, Eff.read, hq, Eff.mayFail,
          Eff.update]
      · exact ⟨hlifts _ _ hs.db, hended.runner, hs.held, hs.log⟩

theorem rollbackTransaction [TransactionErrors ε] (fault : Option ε) :
    SessionsAlike r Any (rollbackTransaction fault : Eff (Session D L) ε Unit)
      (rollbackTransaction fault) := by
  intro s t hs
  rcases hs.pending_cases with ⟨hnone, hnone'⟩ | ⟨p, q, hp, hq, _⟩
  · refine ⟨.error TransactionErrors.transactionNotStarted, s, t, ?_, ?_, hs, fun _ _ => trivial⟩
    · simp only [Transaction.rollbackTransaction, Eff.bind_eq, Eff.read, hnone, Eff.throw]
    · simp only [Transaction.rollbackTransaction, Eff.bind_eq, Eff.read, hnone', Eff.throw]
  · have hrest : SessionsAlike r Any
        (Eff.mayFail fault >>= fun _ => .update fun s : Session D L =>
          s.withRunner fun r => { r with pending := none } : Eff (Session D L) ε Unit)
        (Eff.mayFail fault >>= fun _ => .update fun s : Session D L =>
          s.withRunner fun r => { r with pending := none }) :=
      Alike.bind (Alike.mayFail fault) fun _ _ => Alike.update fun _ _ h =>
        h.withRunner fun _ _ hab => ⟨hab.connected, hab.isReleased, .none⟩
    obtain ⟨result, s', t', hms, hnt, hr', hP⟩ := hrest s t hs
    refine ⟨result, s', t', ?_, ?_, hr', hP⟩
    · rw [Transaction.rollbackTransaction, Eff.bind_eq, Eff.read, hp]
      exact hms
    · rw [Transaction.rollbackTransaction, Eff.bind_eq, Eff.read, hq]
      exact hnt

/-- Whether there is a runner. -/
theorem runner_isSome {s t : Session D L} (hs : SessionAlike r s t) :
    s.runner.isSome = t.runner.isSome := by
  have hrunner := hs.runner
  generalize s.runner = a at hrunner ⊢
  generalize t.runner = b at hrunner ⊢
  cases hrunner <;> rfl

theorem rollbackIfCreated [TransactionErrors ε] (fault : Option ε) :
    SessionsAlike r Any (rollbackIfCreated fault : Eff (Session D L) ε Unit)
      (rollbackIfCreated fault) := by
  intro s t hs
  simp only [Transaction.rollbackIfCreated, Eff.bind_eq, Eff.read, runner_isSome hs]
  exact Alike.ite (fun _ => rollbackTransaction fault) (fun _ => Alike.pure trivial) s t hs

theorem release : SessionsAlike r Any (release : Eff (Session D L) ε Unit) release := by
  refine Alike.update fun s t hs => ?_
  obtain ⟨sdb, srunner, sheld, slog⟩ := s
  obtain ⟨tdb, trunner, theld, tlog⟩ := t
  have hrunner := hs.runner
  have hheld := hs.held
  have hlog := hs.log
  have hdb := hs.db
  cases hrunner with
  | none => exact ⟨hdb, .none, hheld, hlog⟩
  | some hab =>
    refine ⟨hdb, .some ⟨hab.connected, rfl, hab.pending⟩, ?_, hlog⟩
    simp only [Session.released, hab.connected, hab.isReleased]
    simp only at hheld
    rw [hheld]

theorem releaseIfHeld :
    SessionsAlike r Any (releaseIfHeld : Eff (Session D L) ε Unit) releaseIfHeld := by
  intro s t hs
  have hrunner := hs.runner
  simp only [Transaction.releaseIfHeld, Eff.bind_eq, Eff.read]
  generalize s.runner = a at hrunner ⊢
  generalize t.runner = b at hrunner ⊢
  cases hrunner with
  | none => exact Alike.pure trivial s t hs
  | some hab =>
    simp only [hab.isReleased]
    exact Alike.ite (fun _ => release) (fun _ => Alike.pure trivial) s t hs

end SessionsAlike

end BlockchainTask.Library.Relational

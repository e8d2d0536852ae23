import BlockchainTask.Library.Transaction

/-! # Transactions that follow an abstract program

The body of a transaction often concerns a small part of the data.
`Simulates d pre m f post` says that on committed data `d` the body `m` follows
`f`, a program on an abstract state: from pending statements and an abstract
state that `pre` relates, `m` returns when `f` does, with statements, states
and results that `post` relates, and throws what `f` throws. The committed data
and the log stay as they are, and the transaction stays open. -/
namespace BlockchainTask.Library.Simulation
open BlockchainTask.Library.Effect BlockchainTask.Library.Transaction

variable {D L ε A α β γ δ : Type}

def Simulates (d : D) (pre : (D → D) → A → Prop) (m : Eff (Session D L) ε α) (f : Eff A ε β)
    (post : (D → D) → A → α → β → Prop) : Prop :=
  ∀ s p a, s.db = d → s.pending = some p → pre p a →
    Eff.wp m
      (fun x t => t.db = d ∧ t.log = s.log ∧
        ∃ q b y, t.pending = some q ∧ f a = (.ok y, b) ∧ post q b x y)
      (fun e t => t.db = d ∧ t.log = s.log ∧ t.isTransactionActive = true ∧ (f a).1 = .error e) s

variable {d : D} {pre : (D → D) → A → Prop} {m : Eff (Session D L) ε α} {f : Eff A ε β}
  {post : (D → D) → A → α → β → Prop}

theorem active_of_pending {s : Session D L} {p : D → D} (h : s.pending = some p) :
    s.isTransactionActive = true := by
  rw [Session.isTransactionActive, h]
  rfl

/-- The first of two failures is the outcome. -/
theorem mayFail_or {f₁ f₂ : Option ε} {g : Eff A ε α} {a : A} {e : ε} (h : f₁.or f₂ = some e) :
    ((do
      Eff.mayFail f₁
      Eff.mayFail f₂
      g) a).1 = .error e := by
  cases h₁ : f₁ with
  | some e' =>
    rw [h₁, Option.some_or] at h
    rw [← Option.some.inj h]
    rfl
  | none =>
    rw [h₁, Option.none_or] at h
    simp only [Eff.bind_eq, Eff.mayFail, h]

namespace Simulates

theorem mono {pre' : (D → D) → A → Prop} {post' : (D → D) → A → α → β → Prop}
    (h : Simulates d pre m f post) (hpre : ∀ p a, pre' p a → pre p a)
    (hpost : ∀ q b x y, post q b x y → post' q b x y) : Simulates d pre' m f post' := by
  intro s p a hd hp hrel
  refine Eff.wp_mono (h s p a hd hp (hpre p a hrel)) (fun x t ht => ?_) (fun _ _ ht => ht)
  obtain ⟨htd, htl, q, b, y, hq, hf, hr⟩ := ht
  exact ⟨htd, htl, q, b, y, hq, hf, hpost q b x y hr⟩

protected theorem pure {x : α} {y : β} (h : ∀ p a, pre p a → post p a x y) :
    Simulates d pre (pure x : Eff (Session D L) ε α) (pure y) post := by
  intro s p a hd hp hrel
  exact ⟨hd, rfl, p, a, y, hp, rfl, h p a hrel⟩

protected theorem throw (e : ε) :
    Simulates d pre (Eff.throw e : Eff (Session D L) ε α) (Eff.throw e) post := by
  intro s p a hd hp _
  exact ⟨hd, rfl, active_of_pending hp, rfl⟩

/-- A fact that the start relates does not depend on the states. -/
theorem assuming {c : Prop} (h : c → Simulates d pre m f post) :
    Simulates d (fun p a => pre p a ∧ c) m f post :=
  fun s p a hd hp hrel => h hrel.2 s p a hd hp hrel.1

/-- Both get the same answer from outside. -/
protected theorem await (answer : Except ε α) :
    Simulates d pre (Eff.await answer : Eff (Session D L) ε α) (Eff.await answer)
      (fun q b x y => pre q b ∧ y = x) := by
  intro s p a hd hp hrel
  rw [Eff.wp_await]
  refine ⟨fun x hx => ⟨hd, rfl, p, a, x, hp, ?_, hrel, rfl⟩,
    fun e he => ⟨hd, rfl, active_of_pending hp, he⟩⟩
  rw [Eff.await, hx]

protected theorem mayFail (fault : Option ε) :
    Simulates d pre (Eff.mayFail fault : Eff (Session D L) ε Unit) (Eff.mayFail fault)
      (fun q b _ _ => pre q b) := by
  intro s p a hd hp hrel
  cases fault with
  | none => exact ⟨hd, rfl, p, a, (), hp, rfl, hrel⟩
  | some e => exact ⟨hd, rfl, active_of_pending hp, rfl⟩

protected theorem bind {g : α → Eff (Session D L) ε γ} {h : β → Eff A ε δ}
    {last : (D → D) → A → γ → δ → Prop} (hm : Simulates d pre m f post)
    (hg : ∀ x y, Simulates d (fun q b => post q b x y) (g x) (h y) last) :
    Simulates d pre (m >>= g) (f >>= h) last := by
  intro s p a hd hp hrel
  rw [Eff.wp_bind]
  refine Eff.wp_mono (hm s p a hd hp hrel) (fun x t ht => ?_) (fun e t ht => ?_)
  · obtain ⟨htd, htl, q, b, y, hq, hf, hr⟩ := ht
    refine Eff.wp_mono (hg x y t q b htd hq hr) (fun z u hu => ?_) (fun e u hu => ?_)
    · rw [Eff.bind_of_ok hf]
      exact ⟨hu.1, hu.2.1.trans htl, hu.2.2⟩
    · rw [Eff.bind_of_ok hf]
      exact ⟨hu.1, hu.2.1.trans htl, hu.2.2⟩
  · obtain ⟨htd, htl, hactive, hf⟩ := ht
    refine ⟨htd, htl, hactive, ?_⟩
    rw [Eff.bind_of_error (t := (f a).2) (Prod.ext hf rfl)]

/-- In sequence, when the first results are the same. -/
theorem bindSame {g : α → Eff (Session D L) ε γ} {f : Eff A ε α} {h : α → Eff A ε δ}
    {mid : (D → D) → A → α → Prop} {last : (D → D) → A → γ → δ → Prop}
    (hm : Simulates d pre m f fun q b x y => mid q b x ∧ y = x)
    (hg : ∀ x, Simulates d (fun q b => mid q b x) (g x) (h x) last) :
    Simulates d pre (m >>= g) (f >>= h) last := by
  refine Simulates.bind hm fun x y => Simulates.assuming fun hxy => ?_
  subst hxy
  exact hg y

protected theorem ite {c : Prop} [Decidable c] {m' : Eff (Session D L) ε α} {f' : Eff A ε β}
    (hthen : c → Simulates d pre m f post) (helse : ¬ c → Simulates d pre m' f' post) :
    Simulates d pre (if c then m else m') (if c then f else f') post := by
  by_cases hc : c
  · rw [if_pos hc, if_pos hc]
    exact hthen hc
  · rw [if_neg hc, if_neg hc]
    exact helse hc

protected theorem when {c : Prop} [Decidable c] {m : Eff (Session D L) ε Unit}
    {f : Eff A ε Unit} {post : (D → D) → A → Unit → Unit → Prop}
    (hthen : c → Simulates d pre m f post) (helse : ¬ c → ∀ p a, pre p a → post p a () ()) :
    Simulates d pre (Eff.when c m) (Eff.when c f) post :=
  Simulates.ite hthen fun hc => Simulates.pure (helse hc)

/-- A query of the pending data, answered from the abstract state. -/
protected theorem managerRead (fault : Option ε) {query : D → α} {answer : A → β}
    (h : ∀ p a, pre p a → post p a (query (p d)) (answer a)) :
    Simulates d pre (managerRead fault query : Eff (Session D L) ε α)
      (do
        .mayFail fault
        .read answer) post := by
  intro s p a hd hp hrel
  have hanswer : post p a (query (p s.db)) (answer a) := hd ▸ h p a hrel
  refine wp_managerRead_pending hp (fun hf => ?_) (fun e hf => ?_)
  · rw [hf]
    exact ⟨hd, rfl, p, a, answer a, hp, rfl, hanswer⟩
  · rw [hf]
    exact ⟨hd, rfl, active_of_pending hp, rfl⟩

/-- A statement on the pending data, refused in the abstract state for the same
error. -/
protected theorem managerWrite (fault : Option ε) {refuse : D → Option ε} {w : D → D}
    {refused : A → Option ε} {u : A → A} {post : (D → D) → A → Unit → Unit → Prop}
    (hrefuse : ∀ p a, pre p a → refuse (p d) = refused a)
    (h : ∀ p a, pre p a → refused a = none → post (w ∘ p) (u a) () ()) :
    Simulates d pre (managerWrite fault refuse w : Eff (Session D L) ε Unit)
      (do
        .mayFail fault
        .mayFail (refused (← .read id))
        .update u) post := by
  intro s p a hd hp hrel
  have hsame : refuse (p s.db) = refused a := by rw [hd, hrefuse p a hrel]
  refine wp_managerWrite_pending hp (fun hf hnone t htd htl htp => ?_) (fun e he => ?_)
  · rw [hsame] at hnone
    refine ⟨htd.trans hd, htl, w ∘ p, u a, (), htp, ?_, h p a hrel hnone⟩
    simp only [Eff.bind_eq, Eff.mayFail, Eff.read, Eff.update, hf, hnone, id_eq]
  · rw [hsame] at he
    refine ⟨hd, rfl, active_of_pending hp, ?_⟩
    cases hf : fault with
    | some e' =>
      rw [hf, Option.some_or] at he
      rw [← Option.some.inj he]
      rfl
    | none =>
      rw [hf, Option.none_or] at he
      simp only [Eff.bind_eq, Eff.mayFail, Eff.read, id_eq, he]

/-- A statement that the database never refuses. -/
protected theorem managerUpdate (fault : Option ε) {w : D → D} {u : A → A}
    {post : (D → D) → A → Unit → Unit → Prop} (h : ∀ p a, pre p a → post (w ∘ p) (u a) () ()) :
    Simulates d pre (managerWrite fault (fun _ => none) w : Eff (Session D L) ε Unit)
      (do
        .mayFail fault
        .update u) post := by
  intro s p a hd hp hrel
  refine wp_managerWrite_pending hp (fun hf _ t htd htl htp => ?_) (fun e he => ?_)
  · rw [hf]
    exact ⟨htd.trans hd, htl, w ∘ p, u a, (), htp, rfl, h p a hrel⟩
  · rw [Option.or_none] at he
    rw [he]
    exact ⟨hd, rfl, active_of_pending hp, rfl⟩

/-- From the opening of a transaction on, up to where it is neither committed nor
rolled back. -/
theorem opened {f₁ f₂ : Option ε} {a : A} {s : Session D L} (hm : Simulates d pre m f post)
    (hd : s.db = d) (ha : pre id a) :
    Eff.wp (do
        createQueryRunner
        connect f₁
        startTransaction f₂
        m)
      (fun x t => t.db = d ∧ ∃ q b y, t.pending = some q ∧ (do
          Eff.mayFail f₁
          Eff.mayFail f₂
          f) a = (.ok y, b) ∧ post q b x y)
      (fun e t => t.db = d ∧ ((do
          Eff.mayFail f₁
          Eff.mayFail f₂
          f) a).1 = .error e ∧ (t.isTransactionActive = true ↔ f₁ = none)) s := by
  refine wp_opened (fun h₁ h₂ t htd htl htp => ?_) (fun e he t htd htl hactive => ?_)
  · subst h₁ h₂
    refine Eff.wp_mono (hm t id a (htd.trans hd) htp ha) (fun _ _ hu => ⟨hu.1, hu.2.2⟩)
      (fun e u hu => ?_)
    obtain ⟨hud, _, hactive, hf⟩ := hu
    exact ⟨hud, hf, fun _ => rfl, fun _ => hactive⟩
  · exact ⟨htd.trans hd, mayFail_or he, hactive⟩

/-- A transaction around the body commits the statements that the body made, or
leaves the data alone, and its outcome is that of the abstract program between
the failures of its ends. -/
theorem transaction [TransactionErrors ε] {m : Eff (Session D L) ε Unit} {f : Eff A ε Unit}
    {post : (D → D) → A → Unit → Unit → Prop} {f₁ f₂ f₃ : Option ε} {a : A} {s : Session D L}
    (hm : Simulates d pre m f post) (hd : s.db = d) (ha : pre id a) :
    Eff.wp (do
        createQueryRunner
        connect f₁
        startTransaction f₂
        m
        commitTransaction f₃)
      (fun _ t => t.log = s.log ∧ ∃ q b, (do
          Eff.mayFail f₁
          Eff.mayFail f₂
          f
          Eff.mayFail f₃) a = (.ok (), b) ∧ t.db = q d ∧ post q b () ())
      (fun e t => t.db = d ∧ t.log = s.log ∧ ((do
          Eff.mayFail f₁
          Eff.mayFail f₂
          f
          Eff.mayFail f₃) a).1 = .error e) s := by
  refine wp_opened (fun h₁ h₂ t htd htl htp => ?_) (fun e he t htd htl _ => ?_)
  · subst h₁ h₂
    rw [Eff.wp_bind]
    refine Eff.wp_mono (hm t id a (htd.trans hd) htp ha) (fun _ u hu => ?_) (fun e u hu => ?_)
    · obtain ⟨hud, hul, q, b, _, hq, hf, hpost⟩ := hu
      refine wp_commitTransaction_pending hq (fun h₃ v hvd hvl _ => ?_) (fun e h₃ => ?_)
      · subst h₃
        refine ⟨hvl.trans (hul.trans htl), q, b, ?_, hud ▸ hvd, hpost⟩
        simp only [Eff.bind_eq, Eff.mayFail, hf]
      · refine ⟨hud, hul.trans htl, ?_⟩
        simp only [Eff.bind_eq, Eff.mayFail, hf, h₃]
    · obtain ⟨hud, hul, _, hf⟩ := hu
      refine ⟨hud, hul.trans htl, ?_⟩
      have hthrow : f a = (.error e, (f a).2) := Prod.ext hf rfl
      simp only [Eff.bind_eq, Eff.mayFail]
      rw [hthrow]
  · exact ⟨htd.trans hd, htl, mayFail_or he⟩

end Simulates

end BlockchainTask.Library.Simulation

import BlockchainTask.Library.Effect

/-! # What a computation leaves alone

An observation of the state is kept by a computation when it is the same in the
state that the computation settles in, whether it returns or throws. Each
combinator keeps what its parts keep, so a program of many statements keeps
whatever every single one of them does. -/
namespace BlockchainTask.Library.Frame
open BlockchainTask.Library.Effect

variable {σ ε α β γ : Type} {obs : σ → γ}

def Keeps (obs : σ → γ) (m : Eff σ ε α) : Prop := ∀ s, obs (m s).2 = obs s

/-- A handler that keeps the observation leaves it as it was at the throw. -/
theorem obs_tryCatch {m : Eff σ ε α} {h : ε → Eff σ ε α} (hh : ∀ e, Keeps obs (h e)) (s : σ) :
    obs (Eff.tryCatch m h s).2 = obs (m s).2 := by
  unfold Eff.tryCatch
  generalize m s = settled
  obtain ⟨result, t⟩ := settled
  cases result with
  | error e => exact hh e t
  | ok a => rfl

theorem obs_tryFinally {m : Eff σ ε α} {f : Eff σ ε Unit} (hf : Keeps obs f) (s : σ) :
    obs (Eff.tryFinally m f s).2 = obs (m s).2 := by
  have hlast := hf (m s).2
  unfold Eff.tryFinally
  generalize f (m s).2 = ended at hlast ⊢
  obtain ⟨result, t⟩ := ended
  cases result <;> exact hlast

namespace Keeps

theorem wp {m : Eff σ ε α} (h : Keeps obs m) (s : σ) :
    Eff.wp m (fun _ t => obs t = obs s) (fun _ t => obs t = obs s) s := by
  have hs := h s
  rw [Eff.wp_iff]
  refine ⟨fun a t hrun => ?_, fun e t hrun => ?_⟩
  · rw [hrun] at hs
    exact hs
  · rw [hrun] at hs
    exact hs

theorem pure (a : α) : Keeps obs (Pure.pure a : Eff σ ε α) := fun _ => rfl

theorem throw (e : ε) : Keeps obs (Eff.throw e : Eff σ ε α) := fun _ => rfl

theorem await (answer : Except ε α) : Keeps obs (Eff.await answer : Eff σ ε α) := fun _ => rfl

theorem mayFail (fault : Option ε) : Keeps obs (Eff.mayFail fault : Eff σ ε Unit) := by
  intro s
  cases fault <;> rfl

theorem read (f : σ → α) : Keeps obs (Eff.read f : Eff σ ε α) := fun _ => rfl

theorem update {f : σ → σ} (h : ∀ s, obs (f s) = obs s) :
    Keeps obs (Eff.update f : Eff σ ε Unit) := h

theorem bind {m : Eff σ ε α} {f : α → Eff σ ε β} (hm : Keeps obs m) (hf : ∀ a, Keeps obs (f a)) :
    Keeps obs (m >>= f) := by
  intro s
  have hs := hm s
  rw [Eff.bind_eq]
  generalize m s = settled at hs ⊢
  obtain ⟨result, t⟩ := settled
  cases result with
  | error e => exact hs
  | ok a => exact (hf a t).trans hs

theorem ite {c : Prop} [Decidable c] {m n : Eff σ ε α} (hm : Keeps obs m) (hn : Keeps obs n) :
    Keeps obs (if c then m else n) := by
  split
  · exact hm
  · exact hn

theorem when {c : Prop} [Decidable c] {m : Eff σ ε Unit} (hm : Keeps obs m) :
    Keeps obs (Eff.when c m) := ite hm (pure ())

theorem tryCatch {m : Eff σ ε α} {h : ε → Eff σ ε α} (hm : Keeps obs m)
    (hh : ∀ e, Keeps obs (h e)) : Keeps obs (Eff.tryCatch m h) :=
  fun s => (obs_tryCatch hh s).trans (hm s)

theorem forEach {f : α → Eff σ ε Unit} {xs : List α} (h : ∀ x, Keeps obs (f x)) :
    Keeps obs (Eff.forEach xs f) := by
  induction xs with
  | nil => exact pure ()
  | cons x xs ih => exact bind (h x) fun _ => ih

theorem whileEach {f : α → Eff σ ε Bool} {xs : List α} (h : ∀ x, Keeps obs (f x)) :
    Keeps obs (Eff.whileEach xs f) := by
  induction xs with
  | nil => exact pure ()
  | cons x xs ih => exact bind (h x) fun _ => ite ih (pure ())

theorem mapEach {f : α → Eff σ ε β} {xs : List α} (h : ∀ x, Keeps obs (f x)) :
    Keeps obs (Eff.mapEach xs f) := by
  induction xs with
  | nil => exact pure []
  | cons x xs ih => exact bind (h x) fun b => bind ih fun bs => pure (b :: bs)

end Keeps

/-! ## Steps within a relation -/

/-- From every state the computation settles in one that is related to it. -/
def Within (r : σ → σ → Prop) (m : Eff σ ε α) : Prop := ∀ s, r s (m s).2

namespace Within
variable {r : σ → σ → Prop}

theorem pure [Std.Refl r] (a : α) : Within r (Pure.pure a : Eff σ ε α) := fun s => Std.Refl.refl s

theorem throw [Std.Refl r] (e : ε) : Within r (Eff.throw e : Eff σ ε α) := fun s => Std.Refl.refl s

theorem read [Std.Refl r] (f : σ → α) : Within r (Eff.read f : Eff σ ε α) :=
  fun s => Std.Refl.refl s

theorem update {f : σ → σ} (h : ∀ s, r s (f s)) : Within r (Eff.update f : Eff σ ε Unit) := h

theorem bind [IsTrans σ r] {m : Eff σ ε α} {f : α → Eff σ ε β} (hm : Within r m)
    (hf : ∀ a, Within r (f a)) : Within r (m >>= f) := by
  intro s
  have hs := hm s
  rw [Eff.bind_eq]
  generalize m s = settled at hs ⊢
  obtain ⟨result, t⟩ := settled
  cases result with
  | error e => exact hs
  | ok a => exact IsTrans.trans _ _ _ hs (hf a t)

theorem ite {c : Prop} [Decidable c] {m n : Eff σ ε α} (hm : Within r m) (hn : Within r n) :
    Within r (if c then m else n) := by
  split
  · exact hm
  · exact hn

theorem tryCatch [IsTrans σ r] {m : Eff σ ε α} {h : ε → Eff σ ε α} (hm : Within r m)
    (hh : ∀ e, Within r (h e)) : Within r (Eff.tryCatch m h) := by
  intro s
  have hs := hm s
  unfold Eff.tryCatch
  generalize m s = settled at hs ⊢
  obtain ⟨result, t⟩ := settled
  cases result with
  | error e => exact IsTrans.trans _ _ _ hs (hh e t)
  | ok a => exact hs

end Within

end BlockchainTask.Library.Frame

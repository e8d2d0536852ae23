import Mathlib.Data.List.Range

/-! # Sequences of runs and the ground a cursor covers

A program is run again and again, each time on the state the last run left and
in an environment of its own. `crossings` records for each run where a cursor
of the state stood before and after it. A cursor that never goes back covers
the numbers between its first and its last value run by run, each exactly once
and in order, and a fact that every run establishes for the ground it crosses,
and that no later run destroys, holds of all of it. -/
namespace BlockchainTask.Library.Runs
variable {E S : Type}

def runAll (step : E → S → S) (es : List E) (s : S) : S := es.foldl (fun s e => step e s) s

@[simp] theorem runAll_nil (step : E → S → S) (s : S) : runAll step [] s = s := rfl

@[simp] theorem runAll_cons (step : E → S → S) (e : E) (es : List E) (s : S) :
    runAll step (e :: es) s = runAll step es (step e s) := rfl

/-- Each environment together with the state its run starts in. -/
def starts (step : E → S → S) : List E → S → List (E × S)
  | [], _ => []
  | e :: es, s => (e, s) :: starts step es (step e s)

theorem env_mem_of_starts {step : E → S → S} {es : List E} {s : S} {p : E × S}
    (h : p ∈ starts step es s) : p.1 ∈ es := by
  induction es generalizing s with
  | nil => simp [starts] at h
  | cons e es ih =>
    rcases List.mem_cons.mp h with rfl | h
    · exact List.mem_cons_self
    · exact List.mem_cons_of_mem _ (ih h)

/-- Invariant rule: what every run of the sequence keeps, holds at the end. -/
theorem runAll_invariant {step : E → S → S} (I : S → Prop) {es : List E} {s : S}
    (keep : ∀ e t, (e, t) ∈ starts step es s → I t → I (step e t)) (h : I s) :
    I (runAll step es s) := by
  induction es generalizing s with
  | nil => exact h
  | cons e es ih =>
    refine ih (fun e' t ht => keep e' t (List.mem_cons_of_mem _ ht)) ?_
    exact keep e s List.mem_cons_self h

/-- What every run of the sequence keeps, holds where each run starts. -/
theorem starts_invariant {step : E → S → S} (I : S → Prop) {es : List E} {s : S}
    (keep : ∀ e t, (e, t) ∈ starts step es s → I t → I (step e t)) (h : I s) :
    ∀ p ∈ starts step es s, I p.2 := by
  induction es generalizing s with
  | nil =>
    intro p hp
    cases hp
  | cons e es ih =>
    intro p hp
    rcases List.mem_cons.mp hp with rfl | hp
    · exact h
    · refine ih (fun e' t ht => keep e' t (List.mem_cons_of_mem _ ht)) ?_ p hp
      exact keep e s List.mem_cons_self h

/-- A relation that every run keeps, and that chains, holds from start to end. -/
theorem runAll_rel {step : E → S → S} {r : S → S → Prop} (refl : ∀ s, r s s)
    (trans : ∀ a b c, r a b → r b c → r a c) {es : List E} {s : S}
    (keep : ∀ e t, (e, t) ∈ starts step es s → r t (step e t)) : r s (runAll step es s) :=
  runAll_invariant (r s) (fun e t ht hr => trans _ _ _ hr (keep e t ht)) (refl s)

/-- What no run destroys and holds at the start, holds where each run starts. -/
theorem of_mem_starts {step : E → S → S} {P : S → Prop} (keep : ∀ e t, P t → P (step e t))
    {es : List E} {s : S} (h : P s) {p : E × S} (hp : p ∈ starts step es s) : P p.2 :=
  starts_invariant P (fun e t _ => keep e t) h p hp

/-- What holds at the end and not at the start is established by some run. -/
theorem exists_establishing {step : E → S → S} (P : S → Prop) {es : List E} {s : S} (hs : ¬ P s)
    (h : P (runAll step es s)) : ∃ p ∈ starts step es s, ¬ P p.2 ∧ P (step p.1 p.2) := by
  induction es generalizing s with
  | nil => exact absurd h hs
  | cons e es ih =>
    by_cases hnext : P (step e s)
    · exact ⟨(e, s), List.mem_cons_self, hs, hnext⟩
    · obtain ⟨p, hp, hestablish⟩ := ih hnext h
      exact ⟨p, List.mem_cons_of_mem _ hp, hestablish⟩

/-- What no run destroys is established by one run at most. -/
theorem establishing_unique {step : E → S → S} {P : S → Prop} (keep : ∀ e t, P t → P (step e t))
    {es : List E} {s : S} {p q : E × S} (hp : p ∈ starts step es s) (hq : q ∈ starts step es s)
    (hpest : ¬ P p.2 ∧ P (step p.1 p.2)) (hqest : ¬ P q.2 ∧ P (step q.1 q.2)) : p = q := by
  induction es generalizing s with
  | nil => cases hp
  | cons e es ih =>
    rcases List.mem_cons.mp hp with rfl | hp
    · rcases List.mem_cons.mp hq with rfl | hq
      · rfl
      · exact absurd (of_mem_starts keep hpest.2 hq) hqest.1
    · rcases List.mem_cons.mp hq with rfl | hq
      · exact absurd (of_mem_starts keep hqest.2 hp) hpest.1
      · exact ih hp hq

/-- What no run destroys and holds where a run starts, holds at the end. -/
theorem runAll_of_mem_starts {step : E → S → S} {P : S → Prop} (keep : ∀ e t, P t → P (step e t))
    {es : List E} {s : S} {p : E × S} (hp : p ∈ starts step es s) (h : P (step p.1 p.2)) :
    P (runAll step es s) := by
  induction es generalizing s with
  | nil => cases hp
  | cons e es ih =>
    rcases List.mem_cons.mp hp with rfl | hp
    · rw [runAll_cons]
      exact runAll_invariant P (fun e' t _ => keep e' t) h
    · exact ih hp

/-- One run, and where the cursor stood before and after it. -/
structure Crossing (E : Type) where
  env : E
  start : Nat
  stop : Nat

/-- The numbers the cursor passed. -/
def Crossing.window (c : Crossing E) : List Nat := List.range' c.start (c.stop - c.start)

def crossing (step : E → S → S) (cursor : S → Nat) (e : E) (s : S) : Crossing E :=
  ⟨e, cursor s, cursor (step e s)⟩

def crossings (step : E → S → S) (cursor : S → Nat) (es : List E) (s : S) : List (Crossing E) :=
  (starts step es s).map fun p => crossing step cursor p.1 p.2

theorem Crossing.mem_window {c : Crossing E} {b : Nat} :
    b ∈ c.window ↔ c.start ≤ b ∧ b < c.stop := by
  simp only [window, List.mem_range'_1]
  omega

variable {step : E → S → S} {cursor : S → Nat}

theorem cursor_le_runAll {es : List E} {s : S}
    (mono : ∀ e t, (e, t) ∈ starts step es s → cursor t ≤ cursor (step e t)) :
    cursor s ≤ cursor (runAll step es s) :=
  runAll_rel (r := fun a b => cursor a ≤ cursor b) (fun _ => Nat.le_refl _)
    (fun _ _ _ => Nat.le_trans) mono

/-- **Tiling.** The windows of a cursor that never goes back are consecutive
and disjoint, and together they are the range it has passed. -/
theorem crossings_tile {es : List E} {s : S}
    (mono : ∀ e t, (e, t) ∈ starts step es s → cursor t ≤ cursor (step e t)) :
    (crossings step cursor es s).flatMap Crossing.window =
      List.range' (cursor s) (cursor (runAll step es s) - cursor s) := by
  induction es generalizing s with
  | nil => simp [crossings, starts]
  | cons e es ih =>
    have mono' : ∀ e' t, (e', t) ∈ starts step es (step e s) → cursor t ≤ cursor (step e' t) :=
      fun e' t ht => mono e' t (List.mem_cons_of_mem _ ht)
    have hfirst : cursor s ≤ cursor (step e s) := mono e s List.mem_cons_self
    have hrest : cursor (step e s) ≤ cursor (runAll step es (step e s)) := cursor_le_runAll mono'
    have hlen : cursor (runAll step es (step e s)) - cursor s =
        (cursor (step e s) - cursor s) +
          (cursor (runAll step es (step e s)) - cursor (step e s)) := by omega
    have hmid : cursor s + 1 * (cursor (step e s) - cursor s) = cursor (step e s) := by omega
    have htail := ih mono'
    simp only [crossings] at htail
    simp only [crossings, starts, List.map_cons, List.flatMap_cons, runAll_cons, htail]
    rw [hlen, ← List.range'_append, hmid]
    rfl

/-- What every run establishes for the numbers it passes, and no run of the
sequence destroys, holds at the end for all that was passed. -/
theorem crossings_settled {P : E → Nat → S → Prop} {es : List E} {s : S}
    (settle : ∀ e t, (e, t) ∈ starts step es s →
      ∀ b ∈ (crossing step cursor e t).window, P e b (step e t))
    (keep : ∀ e t, (e, t) ∈ starts step es s → ∀ e' b, P e' b t → P e' b (step e t)) :
    ∀ c ∈ crossings step cursor es s, ∀ b ∈ c.window, P c.env b (runAll step es s) := by
  induction es generalizing s with
  | nil => simp [crossings, starts]
  | cons e es ih =>
    intro c hc b hb
    simp only [crossings, starts, List.map_cons, List.mem_cons] at hc
    rcases hc with rfl | hc
    · have hfirst : P e b (step e s) := settle e s List.mem_cons_self b hb
      rw [runAll_cons]
      refine runAll_invariant (P e b) (fun e' t ht => ?_) hfirst
      exact keep e' t (List.mem_cons_of_mem _ ht) e b
    · exact ih (fun e' t ht => settle e' t (List.mem_cons_of_mem _ ht))
        (fun e' t ht => keep e' t (List.mem_cons_of_mem _ ht)) c hc b hb

/-! ## Interleaved steps -/

variable {A : Type}

/-- The states a run reaches, by steps that all meet a condition on the action
and the state it is taken in. -/
inductive Reaches (step : S → A → Option S) (ok : S → A → Prop) (s : S) : S → Prop where
  | start : Reaches step ok s s
  | next {t u : S} {a : A} (before : Reaches step ok s t) (meets : ok t a)
      (taken : step t a = some u) : Reaches step ok s u

/-- Invariant rule: what holds at the start and survives each step that meets
the condition, holds in every state reached. -/
theorem Reaches.invariant {step : S → A → Option S} {ok : S → A → Prop} {s t : S} (I : S → Prop)
    (keep : ∀ t a u, ok t a → step t a = some u → I t → I u) (start : I s)
    (h : Reaches step ok s t) : I t := by
  induction h with
  | start => exact start
  | next _ meets taken ih => exact keep _ _ _ meets taken ih

theorem Reaches.mono {step : S → A → Option S} {ok ok' : S → A → Prop} {s t : S}
    (h : Reaches step ok s t) (himp : ∀ t a, ok t a → ok' t a) : Reaches step ok' s t := by
  induction h with
  | start => exact .start
  | next _ meets taken ih => exact .next ih (himp _ _ meets) taken

/-- A list of actions taken one after another, as a run. -/
theorem reaches_of_foldlM {step : S → A → Option S} {as : List A} {s t : S}
    (h : as.foldlM step s = some t) : Reaches step (fun _ _ => True) s t := by
  suffices hs : ∀ r, Reaches step (fun _ _ => True) s r → as.foldlM step r = some t →
      Reaches step (fun _ _ => True) s t from hs s .start h
  clear h
  induction as with
  | nil =>
    intro r hr h
    cases h
    exact hr
  | cons a as ih =>
    intro r hr h
    obtain ⟨u, hu, hrest⟩ := Option.bind_eq_some_iff.mp h
    exact ih u (.next hr trivial hu) hrest

/-- The actions of a run that are not kept make no difference to what the relation
tells. It may depend on the actions that are still to come. -/
theorem foldlM_filter {step : S → A → Option S} {keep : A → Bool} {r : List A → S → S → Prop}
    (hkeep : ∀ a as s t u, keep a = true → r (a :: as) s t → step s a = some u →
      ∃ v, step t a = some v ∧ r as u v)
    (hdrop : ∀ a as s t u, keep a = false → r (a :: as) s t → step s a = some u → r as u t)
    {as : List A} {s t u : S} (h : r as s t) (hrun : as.foldlM step s = some u) :
    ∃ v, (as.filter keep).foldlM step t = some v ∧ r [] u v := by
  induction as generalizing s t with
  | nil =>
    cases hrun
    exact ⟨t, rfl, h⟩
  | cons a as ih =>
    obtain ⟨w, hw, hrest⟩ := Option.bind_eq_some_iff.mp hrun
    cases hk : keep a with
    | false =>
      rw [List.filter_cons_of_neg (by rw [hk]; exact Bool.noConfusion)]
      exact ih (hdrop a as s t w hk h hw) hrest
    | true =>
      obtain ⟨v, hv, hnext⟩ := hkeep a as s t w hk h hw
      obtain ⟨x, hx, hlast⟩ := ih hnext hrest
      refine ⟨x, ?_, hlast⟩
      rw [List.filter_cons_of_pos hk, List.foldlM_cons, hv]
      exact hx

end BlockchainTask.Library.Runs

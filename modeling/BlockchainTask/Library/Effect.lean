import Mathlib.Data.List.Forall2

/-! # Computations that settle

A computation reads and writes a state and then settles: it returns a value or
throws an error, and either way the state it reached stays. This is how an
asynchronous function behaves when nothing else runs between its awaits: a
throw undoes nothing, a catch block continues from the state of the throw, and
a finally block runs after both and may replace the outcome by its own error.

`wp m Q R s` says that `m`, started in `s`, settles in `Q` when it returns and
in `R` when it throws. Every combinator has a rule that rewrites `wp` of the
combinator to `wp` of its parts, so a proof follows the text of the program. -/
namespace BlockchainTask.Library.Effect

/-- From a state, a settled outcome and the state left behind. -/
def Eff (σ ε α : Type) : Type := σ → Except ε α × σ

namespace Eff
variable {σ ε α β γ : Type}

protected def pure (a : α) : Eff σ ε α := fun s => (.ok a, s)

protected def bind (m : Eff σ ε α) (f : α → Eff σ ε β) : Eff σ ε β := fun s =>
  match m s with
  | (.ok a, t) => f a t
  | (.error e, t) => (.error e, t)

instance : Monad (Eff σ ε) where
  pure := Eff.pure
  bind := Eff.bind

def throw (e : ε) : Eff σ ε α := fun s => (.error e, s)

/-- An answer from outside: a value, or a rejection that is thrown here. -/
def await (answer : Except ε α) : Eff σ ε α := fun s => (answer, s)

/-- A point at which the surroundings may fail. -/
def mayFail (fault : Option ε) : Eff σ ε Unit := fun s =>
  match fault with
  | some e => (.error e, s)
  | none => (.ok (), s)

def read (f : σ → α) : Eff σ ε α := fun s => (.ok (f s), s)

def update (f : σ → σ) : Eff σ ε Unit := fun s => (.ok (), f s)

/-- `try { m } catch (e) { h e }`. -/
def tryCatch (m : Eff σ ε α) (h : ε → Eff σ ε α) : Eff σ ε α := fun s =>
  match m s with
  | (.ok a, t) => (.ok a, t)
  | (.error e, t) => h e t

/-- `try { m } finally { f }`: an error of the finally block replaces the
outcome of the try block. -/
def tryFinally (m : Eff σ ε α) (f : Eff σ ε Unit) : Eff σ ε α := fun s =>
  match f (m s).2 with
  | (.ok _, u) => ((m s).1, u)
  | (.error e, u) => (.error e, u)

/-- `if (c) m`. -/
def when (c : Prop) [Decidable c] (m : Eff σ ε Unit) : Eff σ ε Unit := if c then m else pure ()

/-- A loop over a list, in order, left at the first throw. -/
def forEach : List α → (α → Eff σ ε Unit) → Eff σ ε Unit
  | [], _ => pure ()
  | x :: xs, f => do
    f x
    forEach xs f

/-- A loop whose body may leave it: it goes on while the body gives `true`. -/
def whileEach : List α → (α → Eff σ ε Bool) → Eff σ ε Unit
  | [], _ => pure ()
  | x :: xs, f => do if ← f x then whileEach xs f else pure ()

/-- The elements that such a loop gets to, each with the state its turn starts in. -/
def reached (f : α → Eff σ ε Bool) : List α → σ → List (α × σ)
  | [], _ => []
  | x :: xs, s =>
    (x, s) :: match f x s with
      | (.ok true, t) => reached f xs t
      | _ => []

/-- The elements that a loop over a list gets to, each with the state its turn
starts in. -/
def visits (f : α → Eff σ ε Unit) : List α → σ → List (α × σ)
  | [], _ => []
  | x :: xs, s =>
    (x, s) :: match f x s with
      | (.ok _, t) => visits f xs t
      | (.error _, _) => []

theorem visits_singleton (f : α → Eff σ ε Unit) (x : α) (s : σ) : visits f [x] s = [(x, s)] := by
  rw [visits]
  rcases f x s with ⟨_ | _, _⟩ <;> rfl

/-- The results of a computation for each element, in order, left at the first
throw. -/
def mapEach : List α → (α → Eff σ ε β) → Eff σ ε (List β)
  | [], _ => pure []
  | x :: xs, f => do
    let b ← f x
    let bs ← mapEach xs f
    pure (b :: bs)

/-! ## Equations -/

theorem bind_eq (m : Eff σ ε α) (f : α → Eff σ ε β) (s : σ) :
    (m >>= f) s = match m s with
      | (.ok a, t) => f a t
      | (.error e, t) => (.error e, t) := rfl

theorem bind_of_ok {m : Eff σ ε α} {f : α → Eff σ ε β} {a : α} {s t : σ} (h : m s = (.ok a, t)) :
    (m >>= f) s = f a t := by
  show Eff.bind m f s = _
  simp [Eff.bind, h]

theorem bind_of_error {m : Eff σ ε α} {f : α → Eff σ ε β} {e : ε} {s t : σ}
    (h : m s = (.error e, t)) : (m >>= f) s = (.error e, t) := by
  show Eff.bind m f s = _
  simp [Eff.bind, h]

/-- A computation that is cut in its second part is cut as a whole. -/
theorem bind_cut {m : Eff σ ε α} {f : α → Eff σ ε β} {g : α → Eff σ ε γ} {k : γ → Eff σ ε β}
    (h : ∀ a t, f a t = (g a >>= k) t) (s : σ) : (m >>= f) s = ((m >>= g) >>= k) s := by
  simp only [bind_eq]
  cases m s with
  | mk result t =>
    cases result with
    | ok a => exact h a t
    | error e => rfl

theorem tryCatch_of_error {m : Eff σ ε α} {g : ε → Eff σ ε α} {e : ε} {s t : σ}
    (h : m s = (.error e, t)) : tryCatch m g s = g e t := by
  simp [tryCatch, h]

/-- A catch block that only rethrows leaves the state of the throw. -/
theorem tryCatch_rethrow_snd (m : Eff σ ε α) (h : ε → ε) (s : σ) :
    (tryCatch m (fun e => throw (h e)) s).2 = (m s).2 := by
  unfold tryCatch
  obtain ⟨result, t⟩ := m s
  cases result <;> rfl

/-- A loop that may be left: what the first turn leads to. -/
theorem whileEach_of_true {f : α → Eff σ ε Bool} {x : α} {s t : σ} (h : f x s = (.ok true, t))
    (xs : List α) : whileEach (x :: xs) f s = whileEach xs f t ∧
      reached f (x :: xs) s = (x, s) :: reached f xs t := by
  refine ⟨?_, ?_⟩
  · rw [whileEach, bind_of_ok h]
    rfl
  · rw [reached, h]

theorem whileEach_of_false {f : α → Eff σ ε Bool} {x : α} {s t : σ} (h : f x s = (.ok false, t))
    (xs : List α) : whileEach (x :: xs) f s = (.ok (), t) ∧ reached f (x :: xs) s = [(x, s)] := by
  refine ⟨?_, ?_⟩
  · rw [whileEach, bind_of_ok h]
    rfl
  · rw [reached, h]

theorem whileEach_of_error {f : α → Eff σ ε Bool} {x : α} {e : ε} {s t : σ}
    (h : f x s = (.error e, t)) (xs : List α) :
    whileEach (x :: xs) f s = (.error e, t) ∧ reached f (x :: xs) s = [(x, s)] := by
  refine ⟨?_, ?_⟩
  · rw [whileEach, bind_of_error h]
  · rw [reached, h]

/-- The loop gets to no other elements than those of its list. -/
theorem mem_of_reached {f : α → Eff σ ε Bool} {xs : List α} {s : σ} {v : α × σ}
    (h : v ∈ reached f xs s) : v.1 ∈ xs := by
  induction xs generalizing s with
  | nil => cases h
  | cons x xs ih =>
    rw [reached] at h
    rcases List.mem_cons.mp h with rfl | h
    · exact List.mem_cons_self
    · split at h
      · exact List.mem_cons_of_mem _ (ih h)
      · cases h

/-- What the first turn of a loop leads to. -/
theorem visits_of_ok {f : α → Eff σ ε Unit} {x : α} {s t : σ} (h : f x s = (.ok (), t))
    (xs : List α) : forEach (x :: xs) f s = forEach xs f t ∧
      visits f (x :: xs) s = (x, s) :: visits f xs t := by
  refine ⟨?_, ?_⟩
  · rw [forEach, bind_of_ok h]
  · rw [visits, h]

theorem visits_of_error {f : α → Eff σ ε Unit} {x : α} {e : ε} {s t : σ}
    (h : f x s = (.error e, t)) (xs : List α) : forEach (x :: xs) f s = (.error e, t) ∧
      visits f (x :: xs) s = [(x, s)] := by
  refine ⟨?_, ?_⟩
  · rw [forEach, bind_of_error h]
  · rw [visits, h]

/-- A loop gets to no other elements than those of its list. -/
theorem mem_of_visits {f : α → Eff σ ε Unit} {xs : List α} {s : σ} {v : α × σ}
    (h : v ∈ visits f xs s) : v.1 ∈ xs := by
  induction xs generalizing s with
  | nil => cases h
  | cons x xs ih =>
    rw [visits] at h
    rcases List.mem_cons.mp h with rfl | h
    · exact List.mem_cons_self
    · split at h
      · exact List.mem_cons_of_mem _ (ih h)
      · cases h

/-- Loop rule for one element: what its turns establish while they count, and the
other turns keep, holds at the end if it has a turn or did hold at the start. -/
theorem forEach_visits {f : α → Eff σ ε Unit} {x : α} (counts : α × σ → Prop) {I J : σ → Prop}
    {xs : List α} {s : σ}
    (own : ∀ t, counts (x, t) → I t → I (f x t).2 ∧ J (f x t).2)
    (others : ∀ y ∈ xs, y ≠ x → ∀ t, (I t → I (f y t).2) ∧ (J t → J (f y t).2))
    (hcounts : ∀ v ∈ visits f xs s, v.1 = x → counts v) (hI : I s)
    (hJ : x ∈ (visits f xs s).map Prod.fst ∨ J s) : J (forEach xs f s).2 := by
  induction xs generalizing s with
  | nil =>
    rcases hJ with hmem | hJ
    · cases hmem
    · exact hJ
  | cons y ys ih =>
    have hkeep : I (f y s).2 ∧ (y = x ∨ J s → J (f y s).2) := by
      by_cases hy : y = x
      · have hfirst : (y, s) ∈ visits f (y :: ys) s := List.mem_cons_self
        rw [hy] at hfirst ⊢
        obtain ⟨hI', hJ'⟩ := own s (hcounts (x, s) (hy ▸ hfirst) rfl) hI
        exact ⟨hI', fun _ => hJ'⟩
      · obtain ⟨hkeepI, hkeepJ⟩ := others y List.mem_cons_self hy s
        exact ⟨hkeepI hI, fun hor => hkeepJ (hor.resolve_left hy)⟩
    rcases hf : f y s with ⟨_ | _, t⟩
    · obtain ⟨hloop, hvisits⟩ := visits_of_error hf ys
      rw [hvisits, List.map_singleton, List.mem_singleton] at hJ
      rw [hloop]
      rw [hf] at hkeep
      exact hkeep.2 (hJ.imp_left Eq.symm)
    · obtain ⟨hloop, hvisits⟩ := visits_of_ok hf ys
      rw [hvisits] at hcounts hJ
      rw [hloop]
      rw [hf] at hkeep
      refine ih (fun z hz => others z (List.mem_cons_of_mem _ hz))
        (fun v hv => hcounts v (List.mem_cons_of_mem _ hv)) hkeep.1 ?_
      rw [List.map_cons, List.mem_cons] at hJ
      rcases hJ with (rfl | hlater) | hJ
      · exact Or.inr (hkeep.2 (Or.inl rfl))
      · exact Or.inl hlater
      · exact Or.inr (hkeep.2 (Or.inr hJ))

/-- A computation that only reads, for each element. -/
theorem mapEach_of_ok {f : α → Eff σ ε β} {g : α → β} {xs : List α} {s : σ}
    (h : ∀ x ∈ xs, f x s = (.ok (g x), s)) : mapEach xs f s = (.ok (xs.map g), s) := by
  induction xs with
  | nil => rfl
  | cons x xs ih =>
    have hfirst : f x s = (.ok (g x), s) := h x List.mem_cons_self
    have hrest := ih fun y hy => h y (List.mem_cons_of_mem _ hy)
    simp only [mapEach, bind_eq, hfirst, hrest, List.map_cons]
    rfl

/-- One that throws for some element throws, with the state as it was. -/
theorem mapEach_of_error {f : α → Eff σ ε β} {r : α → Except ε β} {xs : List α} {s : σ}
    (h : ∀ x ∈ xs, f x s = (r x, s)) {x : α} (hx : x ∈ xs) {e : ε} (he : r x = .error e) :
    ∃ e', mapEach xs f s = (.error e', s) := by
  induction xs with
  | nil => simp at hx
  | cons y ys ih =>
    have hfirst : f y s = (r y, s) := h y List.mem_cons_self
    cases hy : r y with
    | error e' =>
      rw [hy] at hfirst
      exact ⟨e', by simp only [mapEach, bind_eq, hfirst]⟩
    | ok b =>
      rw [hy] at hfirst
      rcases List.mem_cons.mp hx with rfl | hx
      · rw [he] at hy
        cases hy
      · obtain ⟨e', hrest⟩ := ih (fun z hz => h z (List.mem_cons_of_mem _ hz)) hx
        exact ⟨e', by simp only [mapEach, bind_eq, hfirst, hrest]⟩

theorem forEach_append (f : α → Eff σ ε Unit) (xs ys : List α) (s : σ) :
    forEach (xs ++ ys) f s = (forEach xs f >>= fun _ => forEach ys f) s := by
  induction xs generalizing s with
  | nil => rfl
  | cons x xs ih =>
    simp only [List.cons_append, forEach, bind_eq]
    cases hx : f x s with
    | mk outcome t =>
      cases outcome with
      | error e => rfl
      | ok _ => simp only [ih, bind_eq]

theorem forEach_map (f : β → Eff σ ε Unit) (g : α → β) (xs : List α) :
    forEach (xs.map g) f = forEach xs fun x => f (g x) := by
  induction xs with
  | nil => rfl
  | cons x xs ih => simp only [List.map_cons, forEach, ih]

/-- A loop in a loop is one loop. -/
theorem forEach_forEach (f : α → List β) (g : α → β → Eff σ ε Unit) (xs : List α) (s : σ) :
    forEach xs (fun x => forEach (f x) (g x)) s =
      forEach (xs.flatMap fun x => (f x).map fun y => (x, y)) (fun p => g p.1 p.2) s := by
  induction xs generalizing s with
  | nil => rfl
  | cons x xs ih =>
    rw [List.flatMap_cons, forEach_append, forEach_map]
    simp only [forEach, bind_eq, ih]

/-- A pure computation in steps returns exactly when each step does. -/
theorem except_bind_eq_ok {x : Except ε α} {f : α → Except ε β} {b : β} :
    (x >>= f) = .ok b ↔ ∃ a, x = .ok a ∧ f a = .ok b := by
  cases x with
  | error e =>
    refine ⟨fun h => ?_, fun ⟨a, ha, _⟩ => ?_⟩
    · cases h
    · cases ha
  | ok a =>
    refine ⟨fun h => ⟨a, rfl, h⟩, fun ⟨a', ha, h⟩ => ?_⟩
    cases ha
    exact h

theorem except_map_eq_ok {x : Except ε α} {f : α → β} {b : β} :
    x.map f = .ok b ↔ ∃ a, x = .ok a ∧ f a = b := by
  cases x with
  | error e =>
    refine ⟨fun h => ?_, fun ⟨a, ha, _⟩ => ?_⟩
    · cases h
    · cases ha
  | ok a =>
    refine ⟨fun h => ⟨a, rfl, Except.ok.inj h⟩, fun ⟨a', ha, h⟩ => ?_⟩
    cases ha
    exact congrArg Except.ok h

/-- A value that is thrown for when it is missing. -/
theorem eq_some_of_elim {o : Option α} {e : ε} {x : α}
    (h : o.elim (.error e) Except.ok = .ok x) : o = some x := by
  cases o with
  | none => cases h
  | some y => rw [Except.ok.inj h]

/-- A pure function that may throw, mapped over a list without a throw. -/
theorem forall₂_of_mapM {f : α → Except ε β} {xs : List α} {ys : List β}
    (h : xs.mapM f = .ok ys) : List.Forall₂ (fun x y => f x = .ok y) xs ys := by
  induction xs generalizing ys with
  | nil =>
    cases h
    exact .nil
  | cons x xs ih =>
    rw [List.mapM_cons] at h
    obtain ⟨y, hx, h⟩ := except_bind_eq_ok.mp h
    obtain ⟨rest, hxs, h⟩ := except_bind_eq_ok.mp h
    cases h
    exact .cons hx (ih hxs)

theorem except_mapM_congr {f g : α → Except ε β} {xs : List α} (h : ∀ x ∈ xs, f x = g x) :
    xs.mapM f = xs.mapM g := by
  induction xs with
  | nil => rfl
  | cons x xs ih =>
    rw [List.mapM_cons, List.mapM_cons, h x List.mem_cons_self,
      ih fun y hy => h y (List.mem_cons_of_mem _ hy)]

theorem except_mapM_of_ok {f : α → Except ε β} {g : α → β} {xs : List α}
    (h : ∀ x ∈ xs, f x = .ok (g x)) : xs.mapM f = .ok (xs.map g) := by
  induction xs with
  | nil => rfl
  | cons x xs ih =>
    rw [List.mapM_cons, h x List.mem_cons_self, ih fun y hy => h y (List.mem_cons_of_mem _ hy)]
    rfl

/-- The error of a map is that of an element. -/
theorem except_mapM_error {f : α → Except ε β} {xs : List α} {e : ε} (h : xs.mapM f = .error e) :
    ∃ x ∈ xs, f x = .error e := by
  induction xs with
  | nil => cases h
  | cons x xs ih =>
    rw [List.mapM_cons] at h
    cases hx : f x with
    | error e' =>
      rw [hx] at h
      cases h
      exact ⟨x, List.mem_cons_self, hx⟩
    | ok y =>
      rw [hx] at h
      cases hxs : xs.mapM f with
      | error e' =>
        have he : e' = e := by
          rw [hxs] at h
          exact Except.error.inj h
        obtain ⟨z, hz, herror⟩ := ih (hxs.trans (congrArg Except.error he))
        exact ⟨z, List.mem_cons_of_mem _ hz, herror⟩
      | ok ys =>
        rw [hxs] at h
        cases h

theorem except_mapM_ok_iff {f : α → Except ε β} {xs : List α} :
    (∃ ys, xs.mapM f = .ok ys) ↔ ∀ x ∈ xs, ∃ y, f x = .ok y := by
  constructor
  · intro h x hx
    obtain ⟨ys, hys⟩ := h
    have hrows := forall₂_of_mapM hys
    obtain ⟨i, hi, rfl⟩ := List.getElem_of_mem hx
    exact ⟨_, hrows.get hi (hrows.length_eq ▸ hi)⟩
  · intro h
    cases hxs : xs.mapM f with
    | ok ys => exact ⟨ys, rfl⟩
    | error e =>
      obtain ⟨x, hx, herror⟩ := except_mapM_error hxs
      obtain ⟨y, hy⟩ := h x hx
      rw [herror] at hy
      cases hy

/-- The results of a list that has them all, read one by one. -/
theorem except_mapM_eq_map {f : α → Except ε β} {xs : List α} {ys : List β}
    (h : xs.mapM f = .ok ys) (d : β) : ys = xs.map fun x => (f x).toOption.getD d := by
  have hrows := forall₂_of_mapM h
  clear h
  induction hrows with
  | nil => rfl
  | cons hxy _ ih => rw [List.map_cons, ← ih, hxy]; rfl

/-- When each result decides a relation by its element alone, the relation holds
of all results exactly when it does of all elements. -/
theorem forall₂_iff_of_forall₂ {R S : α → β → Prop} {P : α → Prop} {xs : List α} {ys : List β}
    (h : List.Forall₂ R xs ys) (hS : ∀ x y, R x y → (S x y ↔ P x)) :
    List.Forall₂ S xs ys ↔ ∀ x ∈ xs, P x := by
  induction h with
  | nil => simp
  | cons hxy _ ih => rw [List.forall₂_cons, List.forall_mem_cons, hS _ _ hxy, ih]

/-! ## Weakest preconditions -/

def wp (m : Eff σ ε α) (Q : α → σ → Prop) (R : ε → σ → Prop) (s : σ) : Prop :=
  match m s with
  | (.ok a, t) => Q a t
  | (.error e, t) => R e t

variable {Q : α → σ → Prop} {R : ε → σ → Prop} {s : σ}

theorem wp_iff {m : Eff σ ε α} :
    wp m Q R s ↔ (∀ a t, m s = (.ok a, t) → Q a t) ∧ (∀ e t, m s = (.error e, t) → R e t) := by
  unfold wp
  generalize m s = p
  obtain ⟨r, t⟩ := p
  cases r <;> simp

theorem wp_congr {m m' : Eff σ ε α} (h : m s = m' s) : wp m Q R s ↔ wp m' Q R s := by
  unfold wp
  rw [h]

@[simp] theorem wp_pure (a : α) : wp (pure a : Eff σ ε α) Q R s ↔ Q a s := Iff.rfl

@[simp] theorem wp_bind (m : Eff σ ε β) (f : β → Eff σ ε α) :
    wp (m >>= f) Q R s ↔ wp m (fun b t => wp (f b) Q R t) R s := by
  show wp (Eff.bind m f) Q R s ↔ _
  unfold wp Eff.bind
  obtain ⟨r, t⟩ := m s
  cases r <;> rfl

@[simp] theorem wp_throw (e : ε) : wp (throw e : Eff σ ε α) Q R s ↔ R e s := Iff.rfl

@[simp] theorem wp_await_ok (a : α) : wp (await (.ok a) : Eff σ ε α) Q R s ↔ Q a s := Iff.rfl

@[simp] theorem wp_await_error (e : ε) :
    wp (await (.error e) : Eff σ ε α) Q R s ↔ R e s := Iff.rfl

theorem wp_await (answer : Except ε α) :
    wp (await answer : Eff σ ε α) Q R s ↔
      (∀ a, answer = .ok a → Q a s) ∧ (∀ e, answer = .error e → R e s) := by
  cases answer <;> simp

@[simp] theorem wp_mayFail_none {Q : Unit → σ → Prop} :
    wp (mayFail none : Eff σ ε Unit) Q R s ↔ Q () s := Iff.rfl

@[simp] theorem wp_mayFail_some {Q : Unit → σ → Prop} (e : ε) :
    wp (mayFail (some e) : Eff σ ε Unit) Q R s ↔ R e s := Iff.rfl

theorem wp_mayFail {Q : Unit → σ → Prop} (fault : Option ε) :
    wp (mayFail fault : Eff σ ε Unit) Q R s ↔
      (fault = none → Q () s) ∧ (∀ e, fault = some e → R e s) := by
  cases fault <;> simp

@[simp] theorem wp_read (f : σ → α) : wp (read f : Eff σ ε α) Q R s ↔ Q (f s) s := Iff.rfl

@[simp] theorem wp_update {Q : Unit → σ → Prop} (f : σ → σ) :
    wp (update f : Eff σ ε Unit) Q R s ↔ Q () (f s) := Iff.rfl

@[simp] theorem wp_tryCatch (m : Eff σ ε α) (h : ε → Eff σ ε α) :
    wp (tryCatch m h) Q R s ↔ wp m Q (fun e t => wp (h e) Q R t) s := by
  unfold wp tryCatch
  obtain ⟨r, t⟩ := m s
  cases r <;> rfl

@[simp] theorem wp_tryFinally (m : Eff σ ε α) (f : Eff σ ε Unit) :
    wp (tryFinally m f) Q R s ↔
      wp m (fun a t => wp f (fun _ u => Q a u) R t)
        (fun e t => wp f (fun _ u => R e u) R t) s := by
  unfold wp tryFinally
  obtain ⟨r, t⟩ := m s
  cases r <;> (dsimp only; obtain ⟨r', u⟩ := f t; cases r' <;> rfl)

theorem wp_ite {c : Prop} [Decidable c] (m n : Eff σ ε α) :
    wp (if c then m else n) Q R s ↔ (c → wp m Q R s) ∧ (¬c → wp n Q R s) := by
  by_cases h : c <;> simp [h]

theorem wp_when {c : Prop} [Decidable c] {Q : Unit → σ → Prop} (m : Eff σ ε Unit) :
    wp (when c m) Q R s ↔ (c → wp m Q R s) ∧ (¬c → Q () s) := wp_ite m (pure ())

/-- Consequence: both postconditions may be weakened. -/
theorem wp_mono {m : Eff σ ε α} {Q' : α → σ → Prop} {R' : ε → σ → Prop}
    (h : wp m Q R s) (hQ : ∀ a t, Q a t → Q' a t) (hR : ∀ e t, R e t → R' e t) :
    wp m Q' R' s := by
  unfold wp at h ⊢
  generalize m s = p at h ⊢
  obtain ⟨r, t⟩ := p
  cases r with
  | ok a => exact hQ a t h
  | error e => exact hR e t h

/-- Two facts about one computation hold together. -/
theorem wp_and {m : Eff σ ε α} {Q' : α → σ → Prop} {R' : ε → σ → Prop}
    (h : wp m Q R s) (h' : wp m Q' R' s) :
    wp m (fun a t => Q a t ∧ Q' a t) (fun e t => R e t ∧ R' e t) s := by
  unfold wp at h h' ⊢
  generalize m s = p at h h' ⊢
  obtain ⟨r, t⟩ := p
  cases r <;> exact ⟨h, h'⟩

/-- Loop rule: an invariant over the part of the list already done. -/
theorem wp_forEach {f : α → Eff σ ε Unit} (I : List α → σ → Prop) {xs : List α}
    (step : ∀ done x rest, xs = done ++ x :: rest → ∀ t, I done t →
      wp (f x) (fun _ u => I (done ++ [x]) u) R t)
    (start : I [] s) : wp (forEach xs f) (fun _ t => I xs t) R s := by
  suffices h : ∀ rest done t, xs = done ++ rest → I done t →
      wp (forEach rest f) (fun _ u => I xs u) R t from h xs [] s rfl start
  intro rest
  induction rest with
  | nil =>
    intro done t he hi
    simpa [forEach, he] using hi
  | cons x rest ih =>
    intro done t he hi
    simp only [forEach, wp_bind]
    refine wp_mono (step done x rest he t hi) (fun _ u hu => ?_) (fun _ _ hr => hr)
    exact ih (done ++ [x]) u (by simp [he]) hu

/-- The results of a mapped computation correspond to the elements one by one,
under a state invariant that every element keeps. -/
theorem wp_mapEach {f : α → Eff σ ε β} (I : σ → Prop) (P : α → β → Prop) {xs : List α}
    (step : ∀ x ∈ xs, ∀ t, I t → wp (f x) (fun b u => I u ∧ P x b) R t) (start : I s) :
    wp (mapEach xs f) (fun bs t => I t ∧ List.Forall₂ P xs bs) R s := by
  induction xs generalizing s with
  | nil => simpa [mapEach] using start
  | cons x xs ih =>
    simp only [mapEach, wp_bind, wp_pure]
    refine wp_mono (step x (by simp) s start) (fun b t hb => ?_) (fun _ _ hr => hr)
    obtain ⟨hi, hp⟩ := hb
    refine wp_mono (ih (fun y hy => step y (by simp [hy])) hi) (fun bs u hbs => ?_)
      (fun _ _ hr => hr)
    exact ⟨hbs.1, .cons hp hbs.2⟩

/-- Every element has its result. -/
theorem exists_result {P : α → β → Prop} {xs : List α} {bs : List β} (h : List.Forall₂ P xs bs)
    {x : α} (hx : x ∈ xs) : ∃ b ∈ bs, P x b := by
  induction h with
  | nil => simp at hx
  | cons hp _ ih =>
    rcases List.mem_cons.mp hx with rfl | hx
    · exact ⟨_, List.mem_cons_self, hp⟩
    · obtain ⟨b, hb, hpb⟩ := ih hx
      exact ⟨b, List.mem_cons_of_mem _ hb, hpb⟩

/-- The outcome and the final state satisfy whatever both postconditions give. -/
theorem wp_final {m : Eff σ ε α} {P : σ → Prop} (h : wp m (fun _ t => P t) (fun _ t => P t) s) :
    P (m s).2 := by
  unfold wp at h
  generalize m s = p at h ⊢
  obtain ⟨r, t⟩ := p
  cases r <;> exact h

end Eff

end BlockchainTask.Library.Effect

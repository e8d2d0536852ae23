import Mathlib.Data.List.Nodup
import Mathlib.Data.List.ProdSigma
import Mathlib.Tactic.Tauto

/-! # The first element of each key

A list without its repetitions, where elements are told apart by a key: of each
key the first element stays, in the order of the list. The keys are all that a
filter, an append or a product needs to know of what is dropped, so a list that
is built from a list with repetitions can be built without them. -/
namespace BlockchainTask.Library.Distinct

/-- The induction over the distinct elements of a list: the first one, and the
rest without what repeats it. -/
theorem distinct_induction {α : Type} {P : List α → Prop} (nil : P [])
    (cons : ∀ x xs, (∀ p : α → Bool, P (xs.filter p)) → P (x :: xs)) (xs : List α) : P xs := by
  suffices h : ∀ bound, ∀ ys : List α, ys.length ≤ bound → P ys from h xs.length xs (Nat.le_refl _)
  intro bound
  induction bound with
  | zero =>
    intro ys hys
    rw [List.length_eq_zero_iff.mp (Nat.le_zero.mp hys)]
    exact nil
  | succ bound ih =>
    intro ys hys
    cases ys with
    | nil => exact nil
    | cons y ys =>
      rw [List.length_cons] at hys
      refine cons y ys fun p => ih _ ?_
      have hfilter := List.length_filter_le p ys
      omega

variable {α β κ μ : Type} [DecidableEq κ] [DecidableEq μ]

def distinctOn (key : α → κ) (xs : List α) : List α := xs.eraseDupsBy fun x y => key x == key y

variable {key : α → κ}

theorem distinctOn_nil : distinctOn key [] = [] := rfl

theorem distinctOn_cons (x : α) (xs : List α) :
    distinctOn key (x :: xs) = x :: distinctOn key (xs.filter fun y => key y ≠ key x) := by
  rw [distinctOn, List.eraseDupsBy_cons, distinctOn]
  congr 2
  refine List.filter_congr fun y _ => ?_
  simp [beq_eq_false_iff_ne]

/-- A filter that does not tell apart what the key does not. -/
theorem distinctOn_filter {p : α → Bool} (h : ∀ x y, key x = key y → p x = p y) (xs : List α) :
    distinctOn key (xs.filter p) = (distinctOn key xs).filter p := by
  induction xs using distinct_induction with
  | nil => rfl
  | cons x xs ih =>
    rw [distinctOn_cons]
    by_cases hx : p x = true
    · rw [List.filter_cons_of_pos hx, distinctOn_cons, List.filter_cons_of_pos hx, ← ih,
        List.filter_filter, List.filter_filter]
      congr 3
      funext y
      rw [Bool.and_comm]
    · rw [List.filter_cons_of_neg hx, List.filter_cons_of_neg hx, ← ih, List.filter_filter]
      congr 1
      refine List.filter_congr fun y _ => ?_
      by_cases hy : key y = key x
      · simp [h y x hy, hx]
      · simp [hy]

theorem mem_of_mem_distinctOn {x : α} {xs : List α} (h : x ∈ distinctOn key xs) : x ∈ xs := by
  induction xs using distinct_induction with
  | nil => exact h
  | cons y ys ih =>
    rw [distinctOn_cons, List.mem_cons] at h
    rcases h with rfl | h
    · exact List.mem_cons_self
    · exact List.mem_cons_of_mem _ (List.mem_filter.mp (ih _ h)).1

/-- Every key of the list is that of an element that stays. -/
theorem mem_map_distinctOn {k : κ} {xs : List α} :
    k ∈ (distinctOn key xs).map key ↔ k ∈ xs.map key := by
  induction xs using distinct_induction with
  | nil => exact Iff.rfl
  | cons x xs ih =>
    rw [distinctOn_cons, List.map_cons, List.map_cons, List.mem_cons, List.mem_cons, ih]
    by_cases hk : k = key x
    · simp [hk]
    · have hrest : k ∈ (xs.filter fun y => key y ≠ key x).map key ↔ k ∈ xs.map key := by
        simp only [List.mem_map, List.mem_filter, decide_eq_true_eq]
        constructor
        · intro h
          obtain ⟨y, ⟨hy, _⟩, hkey⟩ := h
          exact ⟨y, hy, hkey⟩
        · intro h
          obtain ⟨y, hy, hkey⟩ := h
          exact ⟨y, ⟨hy, fun heq => hk (hkey.symm.trans heq)⟩, hkey⟩
      rw [hrest]

theorem nodup_map_distinctOn (xs : List α) : ((distinctOn key xs).map key).Nodup := by
  induction xs using distinct_induction with
  | nil => exact List.nodup_nil
  | cons x xs ih =>
    rw [distinctOn_cons, List.map_cons, List.nodup_cons, mem_map_distinctOn]
    refine ⟨fun hmem => ?_, ih _⟩
    obtain ⟨y, hy, hkey⟩ := List.mem_map.mp hmem
    have hne := (List.mem_filter.mp hy).2
    rw [hkey] at hne
    simp at hne

/-- Where the keys are different, what is found for a key is what has it. -/
theorem find?_eq_some_iff {xs : List α} (h : (xs.map key).Nodup) {k : κ} {x : α} :
    xs.find? (fun y => key y == k) = some x ↔ x ∈ xs ∧ key x = k := by
  constructor
  · intro hfind
    exact ⟨List.mem_of_find?_eq_some hfind, by simpa using List.find?_some hfind⟩
  · intro hx
    cases hfind : xs.find? fun y => key y == k with
    | none =>
      have hnone := List.find?_eq_none.mp hfind x hx.1
      simp [hx.2] at hnone
    | some y =>
      have hkey : key y = k := by simpa using List.find?_some hfind
      rw [List.inj_on_of_nodup_map h (List.mem_of_find?_eq_some hfind) hx.1 (hkey.trans hx.2.symm)]

/-- What is appended counts only where its key is new. -/
theorem distinctOn_append (xs ys : List α) :
    distinctOn key (xs ++ ys) =
      distinctOn key xs ++ distinctOn key (ys.filter fun y => key y ∉ xs.map key) := by
  induction xs using distinct_induction generalizing ys with
  | nil =>
    rw [List.nil_append, distinctOn_nil, List.nil_append]
    congr 1
    exact (List.filter_eq_self.mpr fun y _ => by simp).symm
  | cons x xs ih =>
    rw [List.cons_append, distinctOn_cons, distinctOn_cons, List.filter_append,
      ih _, List.cons_append, List.filter_filter]
    congr 3
    refine List.filter_congr fun y _ => ?_
    have hmem : key y ∈ (xs.filter fun z => key z ≠ key x).map key ↔
        key y ∈ xs.map key ∧ key y ≠ key x := by
      simp only [List.mem_map, List.mem_filter, decide_eq_true_eq]
      constructor
      · intro h
        obtain ⟨z, ⟨hz, hne⟩, hkey⟩ := h
        exact ⟨⟨z, hz, hkey⟩, hkey ▸ hne⟩
      · intro h
        obtain ⟨⟨z, hz, hkey⟩, hne⟩ := h
        exact ⟨z, ⟨hz, hkey ▸ hne⟩, hkey⟩
    rw [Bool.eq_iff_iff, Bool.and_eq_true, decide_eq_true_eq, decide_eq_true_eq, decide_eq_true_eq,
      hmem, List.map_cons, List.mem_cons]
    tauto

/-- An injective relabelling. -/
theorem distinctOn_map {key' : β → μ} (f : α → β)
    (h : ∀ x y, key' (f x) = key' (f y) ↔ key x = key y) (xs : List α) :
    distinctOn key' (xs.map f) = (distinctOn key xs).map f := by
  induction xs using distinct_induction with
  | nil => rfl
  | cons x xs ih =>
    rw [List.map_cons, distinctOn_cons, distinctOn_cons, List.map_cons,
      ← ih _, List.filter_map]
    congr 3
    refine List.filter_congr fun y _ => ?_
    simp [h]

/-- Repetitions of a finer key may be dropped first. -/
theorem distinctOn_distinctOn {key' : α → μ} (h : ∀ x y, key x = key y → key' x = key' y)
    (xs : List α) : distinctOn key' (distinctOn key xs) = distinctOn key' xs := by
  induction xs using distinct_induction with
  | nil => rfl
  | cons x xs ih =>
    have hfilter : (distinctOn key (xs.filter fun y => key y ≠ key x)).filter
        (fun y => key' y ≠ key' x) = distinctOn key ((xs.filter fun y => key y ≠ key x).filter
          fun y => key' y ≠ key' x) :=
      (distinctOn_filter (fun y z hyz => by rw [h y z hyz]) _).symm
    have hfiner : (xs.filter fun y => key y ≠ key x).filter (fun y => key' y ≠ key' x) =
        xs.filter fun y => key' y ≠ key' x := by
      rw [List.filter_filter]
      refine List.filter_congr fun y _ => ?_
      by_cases hy : key y = key x
      · simp [h y x hy]
      · simp [hy]
    rw [distinctOn_cons, distinctOn_cons, distinctOn_cons, hfilter, hfiner, ih]

/-- Where only the elements made from one key pass, those of that key are what is left,
once for each time the key occurs. -/
theorem filter_flatMap_of_others {p : α → Bool} {f : κ → List α} {c : κ}
    {ks : List κ} (hothers : ∀ k ∈ ks, k ≠ c → (f k).filter p = []) :
    (ks.flatMap f).filter p = (List.replicate (ks.count c) ((f c).filter p)).flatten := by
  induction ks with
  | nil => rfl
  | cons k ks ih =>
    have hrest := ih fun k' hk' => hothers k' (List.mem_cons_of_mem _ hk')
    rw [List.flatMap_cons, List.filter_append, hrest]
    by_cases hk : k = c
    · rw [hk, List.count_cons_self, List.replicate_succ, List.flatten_cons]
    · rw [hothers k List.mem_cons_self hk, List.nil_append, List.count_cons_of_ne hk]

theorem filter_product (p : α → Bool) (q : β → Bool) (xs : List α) (ys : List β) :
    (xs ×ˢ ys).filter (fun pair => p pair.1 && q pair.2) = xs.filter p ×ˢ ys.filter q := by
  induction xs with
  | nil => rfl
  | cons x xs ih =>
    rw [List.product_cons, List.filter_append, ih, List.filter_map]
    cases hx : p x with
    | false =>
      rw [List.filter_cons_of_neg (by simp [hx])]
      simp [Function.comp_def, hx]
    | true =>
      rw [List.filter_cons_of_pos hx, List.product_cons]
      simp [Function.comp_def, hx]

/-- The distinct pairs are the pairs of distinct elements. -/
theorem distinctOn_product {key' : β → μ} (xs : List α) (ys : List β) :
    distinctOn (fun p : α × β => (key p.1, key' p.2)) (xs ×ˢ ys) =
      distinctOn key xs ×ˢ distinctOn key' ys := by
  induction xs using distinct_induction with
  | nil => rfl
  | cons x xs ih =>
    rw [List.product_cons, distinctOn_append, distinctOn_cons, List.product_cons, ← ih]
    congr 1
    · exact distinctOn_map (Prod.mk x) (fun y z => by simp) ys
    · congr 1
      -- a pair repeats one of the row of `x` exactly when its first part repeats `x`
      have hrow := filter_product (fun z => decide (key z ≠ key x)) (fun _ => true) xs ys
      rw [List.filter_eq_self.mpr fun _ _ => rfl] at hrow
      rw [← hrow]
      refine List.filter_congr fun p hp => ?_
      have hmem : p.2 ∈ ys := (List.mem_product.mp hp).2
      rw [Bool.and_true, decide_eq_decide, List.map_map, List.mem_map, not_iff_not]
      constructor
      · intro h
        obtain ⟨y, _, hkey⟩ := h
        exact (Prod.mk.inj hkey).1.symm
      · intro h
        exact ⟨p.2, hmem, Prod.ext h.symm rfl⟩

/-- `xs.filter((x, i) => xs.findIndex((y) => same(x, y)) === i)`. -/
def filterFirstIndex (same : α → α → Bool) (xs : List α) : List α :=
  (xs.zipIdx.filter fun p => xs.findIdx (same p.1) == p.2).map Prod.fst

/-- An element is the first one like it exactly when its key is not among those
before it. -/
theorem findIdx_at {same : α → α → Bool} (h : ∀ x y, same x y = true ↔ key x = key y)
    (done rest : List α) (x : α) :
    ((done ++ x :: rest).findIdx (same x) == done.length) = decide (key x ∉ done.map key) := by
  have hbefore : done.findIdx (same x) < done.length ↔ key x ∈ done.map key := by
    rw [List.findIdx_lt_length, List.mem_map]
    exact exists_congr fun y => and_congr_right fun _ => (h x y).trans eq_comm
  rw [Bool.eq_iff_iff, beq_iff_eq, decide_eq_true_eq, List.findIdx_append, List.findIdx_cons,
    (h x x).mpr rfl]
  by_cases hx : key x ∈ done.map key
  · have hlt := hbefore.mpr hx
    rw [if_pos hlt]
    exact ⟨fun heq => by omega, fun hnot => absurd hx hnot⟩
  · rw [if_neg (hbefore.not.mpr hx)]
    simp [hx]

/-- What is kept of the elements behind some others. -/
theorem filterFirstIndex_behind {same : α → α → Bool}
    (h : ∀ x y, same x y = true ↔ key x = key y) (done rest : List α) :
    ((rest.zipIdx done.length).filter fun p => (done ++ rest).findIdx (same p.1) == p.2).map
      Prod.fst = distinctOn key (rest.filter fun x => key x ∉ done.map key) := by
  induction rest generalizing done with
  | nil => rfl
  | cons x rest ih =>
    have hrest := ih (done ++ [x])
    simp only [List.length_append, List.length_singleton, List.append_assoc,
      List.singleton_append] at hrest
    have hfirst := findIdx_at h done rest x
    rw [List.zipIdx_cons]
    by_cases hx : key x ∈ done.map key
    · rw [List.filter_cons_of_neg (by simpa [hfirst] using hx), hrest,
        List.filter_cons_of_neg (by simpa using hx)]
      congr 1
      refine List.filter_congr fun y _ => ?_
      rw [decide_eq_decide, List.map_append, List.mem_append]
      constructor
      · intro hy hmem
        exact hy (Or.inl hmem)
      · intro hy hmem
        rcases hmem with hmem | hmem
        · exact hy hmem
        · rw [List.mem_singleton.mp hmem] at hy
          exact hy hx
    · rw [List.filter_cons_of_pos (by simpa [hfirst] using hx), List.map_cons, hrest,
        List.filter_cons_of_pos (by simpa using hx), distinctOn_cons, List.filter_filter]
      congr 2
      refine List.filter_congr fun y _ => ?_
      rw [Bool.eq_iff_iff, Bool.and_eq_true, decide_eq_true_eq, decide_eq_true_eq,
        decide_eq_true_eq, List.map_append, List.mem_append, List.map_singleton,
        List.mem_singleton]
      tauto

theorem filterFirstIndex_eq {same : α → α → Bool} (h : ∀ x y, same x y = true ↔ key x = key y)
    (xs : List α) : filterFirstIndex same xs = distinctOn key xs := by
  have hall := filterFirstIndex_behind h [] xs
  have hnew : (xs.filter fun x => key x ∉ ([] : List α).map key) = xs :=
    List.filter_eq_self.mpr fun x _ => by simp
  rw [hnew] at hall
  exact hall

end BlockchainTask.Library.Distinct

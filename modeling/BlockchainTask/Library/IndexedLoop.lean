import BlockchainTask.Library.Effect

/-! # Filling an array by index

A loop over the indices of a list that may throw, and the loop that writes a
value for each element into an array of blanks. When the indices it writes at
are consecutive the loop is a map: it throws what the first element throws, and
else the array holds the values in order. A loop in a loop that writes row by
row is a map to the rows. -/
namespace BlockchainTask.Library.IndexedLoop
open BlockchainTask.Library.Effect

variable {α β γ σ ε : Type}

/-- `for (i = start; …; i++) state = body(i, xs[i - start], state)`. -/
def forIndex (body : ℕ → α → σ → Except ε σ) : ℕ → List α → σ → Except ε σ
  | _, [], state => .ok state
  | i, x :: xs, state => body i x state >>= forIndex body (i + 1) xs

/-- `array[i] = value`, which throws outside of the array. -/
def writeAt (outside : ε) (array : List β) (i : ℕ) (value : β) : Except ε (List β) :=
  if i < array.length then .ok (array.set i value) else .error outside

/-- `array[index(i)] = value(i, x)`, as the body of a loop. -/
def assign (outside : ε) (value : ℕ → α → Except ε β) (index : ℕ → ℕ) (i : ℕ) (x : α)
    (array : List β) : Except ε (List β) :=
  value i x >>= writeAt outside array (index i)

/-- The values of the elements, each by its index. -/
def mapIndex (value : ℕ → α → Except ε β) (start : ℕ) (xs : List α) : Except ε (List β) :=
  (xs.zipIdx start).mapM fun p => value p.2 p.1

theorem mapIndex_cons (value : ℕ → α → Except ε β) (start : ℕ) (x : α) (xs : List α) :
    mapIndex value start (x :: xs) =
      value start x >>= fun y => mapIndex value (start + 1) xs >>= fun ys => .ok (y :: ys) := by
  unfold mapIndex
  rw [List.zipIdx_cons, List.mapM_cons]
  rfl

theorem length_of_mapIndex {value : ℕ → α → Except ε β} {start : ℕ} {xs : List α} {ys : List β}
    (h : mapIndex value start xs = .ok ys) : ys.length = xs.length := by
  have hrows := Eff.forall₂_of_mapM h
  rw [← hrows.length_eq, List.length_zipIdx]

/-- A map without a throw. -/
theorem mapIndex_of_ok (value : ℕ → α → Except ε β) (result : ℕ → α → β) {xs : List α}
    (h : ∀ i x, xs[i]? = some x → value i x = .ok (result i x)) :
    mapIndex value 0 xs = .ok (xs.mapIdx result) := by
  rw [List.mapIdx_eq_zipIdx_map]
  exact Eff.except_mapM_of_ok fun p hp => h p.2 p.1 (List.mk_mem_zipIdx_iff_getElem?.mp hp)

/-- Where the map returns, each element has a value. -/
theorem exists_of_mapIndex {value : ℕ → α → Except ε β} {xs : List α} {ys : List β}
    (h : mapIndex value 0 xs = .ok ys) {i : ℕ} {x : α} (hx : xs[i]? = some x) :
    ∃ y, value i x = .ok y :=
  Eff.except_mapM_ok_iff.mp ⟨ys, h⟩ (x, i) (List.mk_mem_zipIdx_iff_getElem?.mpr hx)

/-- The value of an element is at its index. -/
theorem getElem?_of_mapIndex {value : ℕ → α → Except ε β} {xs : List α} {ys : List β}
    (h : mapIndex value 0 xs = .ok ys) {i : ℕ} {x : α} (hx : xs[i]? = some x) :
    ∃ y, value i x = .ok y ∧ ys[i]? = some y := by
  have hrows := Eff.forall₂_of_mapM h
  obtain ⟨hi, rfl⟩ := List.getElem?_eq_some_iff.mp hx
  have hy : i < ys.length := (length_of_mapIndex h).symm ▸ hi
  refine ⟨ys[i], ?_, List.getElem?_eq_getElem hy⟩
  have hrow := hrows.get (by simpa using hi) hy
  simpa using hrow

/-- The results are the values of the elements, each with its index. -/
theorem mem_iff_of_mapIndex {value : ℕ → α → Except ε β} {xs : List α} {ys : List β}
    (h : mapIndex value 0 xs = .ok ys) (y : β) :
    y ∈ ys ↔ ∃ i x, xs[i]? = some x ∧ value i x = .ok y := by
  constructor
  · intro hy
    obtain ⟨i, hi⟩ := List.mem_iff_getElem?.mp hy
    have hlt : i < xs.length := length_of_mapIndex h ▸ (List.getElem?_eq_some_iff.mp hi).1
    have hx : xs[i]? = some xs[i] := List.getElem?_eq_getElem hlt
    obtain ⟨own, hown, hplace⟩ := getElem?_of_mapIndex h hx
    cases hplace.symm.trans hi
    exact ⟨i, xs[i], hx, hown⟩
  · rintro ⟨i, x, hx, hvalue⟩
    obtain ⟨own, hown, hplace⟩ := getElem?_of_mapIndex h hx
    cases hown.symm.trans hvalue
    exact List.mem_of_getElem? hplace

/-- The values are those that are wanted exactly when each one is. -/
theorem mapIndex_eq_ok_iff {value : ℕ → α → Except ε β} {result : ℕ → α → β} {xs : List α} :
    mapIndex value 0 xs = .ok (xs.mapIdx result) ↔
      ∀ i x, xs[i]? = some x → value i x = .ok (result i x) := by
  refine ⟨fun h i x hx => ?_, mapIndex_of_ok value result⟩
  rw [List.mapIdx_eq_zipIdx_map] at h
  have hrows := Eff.forall₂_of_mapM h
  rw [List.forall₂_map_right_iff, List.forall₂_same] at hrows
  exact hrows (x, i) (List.mk_mem_zipIdx_iff_getElem?.mpr hx)

/-- A throw is one of the values. -/
theorem mapIndex_error_iff {value : ℕ → α → Except ε β} {xs : List α} :
    (∃ e, mapIndex value 0 xs = .error e) ↔
      ∃ i x, xs[i]? = some x ∧ ∃ e, value i x = .error e := by
  constructor
  · rintro ⟨e, h⟩
    obtain ⟨p, hp, hvalue⟩ := Eff.except_mapM_error h
    exact ⟨p.2, p.1, List.mk_mem_zipIdx_iff_getElem?.mp hp, e, hvalue⟩
  · rintro ⟨i, x, hx, e, hvalue⟩
    cases h : mapIndex value 0 xs with
    | error e' => exact ⟨e', rfl⟩
    | ok ys =>
      obtain ⟨y, hy⟩ := exists_of_mapIndex h hx
      rw [hvalue] at hy
      cases hy

/-- A map over what is made of the elements and their indices. -/
theorem mapM_mapIdx_of_ok {item : ℕ → α → γ} {value : γ → Except ε β} {result : ℕ → α → β}
    {xs : List α} (h : ∀ i x, xs[i]? = some x → value (item i x) = .ok (result i x)) :
    (xs.mapIdx item).mapM value = .ok (xs.mapIdx result) := by
  rw [List.mapIdx_eq_zipIdx_map, List.mapM_map]
  exact mapIndex_of_ok (fun i x => value (item i x)) result h

/-- Rows of one length, indexed through. -/
theorem mapIdx_flatten {k : ℕ} {rows : List (List α)} (h : ∀ row ∈ rows, row.length = k)
    (f : ℕ → α → β) :
    rows.flatten.mapIdx f =
      (rows.mapIdx fun i row => row.mapIdx fun j x => f (i * k + j) x).flatten := by
  induction rows generalizing f with
  | nil => rfl
  | cons row rows ih =>
    have hrow := h row List.mem_cons_self
    rw [List.flatten_cons, List.mapIdx_append, List.mapIdx_cons, List.flatten_cons,
      ih fun r hr => h r (List.mem_cons_of_mem _ hr)]
    have hindex : ∀ i j, i * k + j + row.length = (i + 1) * k + j := by
      intro i j
      rw [hrow, Nat.succ_mul]
      omega
    simp only [hindex, Nat.zero_mul, Nat.zero_add]

/-- A cell of a table: the row's index times their length, and the place in the row. -/
theorem getElem?_flatten_of_rows {k : ℕ} {rows : List (List α)}
    (h : ∀ row ∈ rows, row.length = k) {i j : ℕ} {row : List α} {x : α} (hrow : rows[i]? = some row)
    (hx : row[j]? = some x) : rows.flatten[j + k * i]? = some x := by
  induction rows generalizing i with
  | nil => cases hrow
  | cons first rows ih =>
    have hfirst := h first List.mem_cons_self
    rw [List.flatten_cons]
    cases i with
    | zero =>
      obtain rfl : first = row := Option.some.inj hrow
      rw [Nat.mul_zero, Nat.add_zero, List.getElem?_append_left (List.getElem?_eq_some_iff.mp hx).1]
      exact hx
    | succ i =>
      rw [List.getElem?_append_right (by rw [hfirst, Nat.mul_succ]; omega), hfirst,
        show j + k * (i + 1) - k = j + k * i by rw [Nat.mul_succ]; omega]
      exact ih (fun r hr => h r (List.mem_cons_of_mem _ hr)) hrow

theorem length_flatten_of_rows {k : ℕ} {rows : List (List α)} (h : ∀ row ∈ rows, row.length = k) :
    rows.flatten.length = rows.length * k := by
  rw [List.length_flatten, List.map_congr_left h, List.map_const', List.sum_replicate_nat]

theorem writeAt_next (outside : ε) (done : List β) (blank : β) (blanks : List β) (value : β) :
    writeAt outside (done ++ blank :: blanks) done.length value =
      .ok ((done ++ [value]) ++ blanks) := by
  rw [writeAt, if_pos (by simp)]
  simp

/-- **A row.** Writing at the indices that follow what is done puts the values
behind it, in the place of as many blanks. -/
theorem forIndex_assign (outside : ε) (value : ℕ → α → Except ε β) (index : ℕ → ℕ)
    (xs : List α) :
    ∀ (start : ℕ) (done blanks : List β), xs.length ≤ blanks.length →
      (∀ k, index (start + k) = done.length + k) →
      forIndex (assign outside value index) start xs (done ++ blanks) =
        (mapIndex value start xs).map fun ys => done ++ ys ++ blanks.drop xs.length := by
  induction xs with
  | nil =>
    intro start done blanks _ _
    show Except.ok (done ++ blanks) = .ok (done ++ [] ++ blanks.drop 0)
    rw [List.append_nil, List.drop_zero]
  | cons x xs ih =>
    intro start done blanks hlength hindex
    cases blanks with
    | nil => cases hlength
    | cons blank blanks =>
      have hnext : ∀ k, index (start + 1 + k) = (done ++ [blank]).length + k := by
        intro k
        rw [show start + 1 + k = start + (k + 1) by omega, hindex, List.length_append,
          List.length_singleton]
        omega
      rw [forIndex, assign, mapIndex_cons]
      cases hvalue : value start x with
      | error e => rfl
      | ok y =>
        show (writeAt outside (done ++ blank :: blanks) (index start) y >>= _) =
          (mapIndex value (start + 1) xs >>= fun ys => .ok (y :: ys)).map _
        rw [show index start = done.length from hindex 0, writeAt_next]
        show forIndex (assign outside value index) (start + 1) xs (done ++ [y] ++ blanks) = _
        rw [ih _ _ _ (Nat.le_of_succ_le_succ hlength) (by simpa using hnext)]
        cases mapIndex value (start + 1) xs with
        | error e => rfl
        | ok ys =>
          show Except.ok (done ++ [y] ++ ys ++ blanks.drop xs.length) =
            Except.ok (done ++ y :: ys ++ blanks.drop xs.length)
          rw [List.append_assoc done [y], List.singleton_append]

/-- The loop that fills an array of the length of its list. -/
theorem fill_eq_mapIndex (outside : ε) (value : ℕ → α → Except ε β) (blank : β) (xs : List α) :
    forIndex (assign outside value id) 0 xs (List.replicate xs.length blank) =
      mapIndex value 0 xs := by
  have hfill := forIndex_assign outside value id xs 0 [] (List.replicate xs.length blank)
    (by simp) (fun k => by simp)
  rw [List.nil_append] at hfill
  rw [hfill]
  cases mapIndex value 0 xs with
  | error e => rfl
  | ok ys =>
    show Except.ok ([] ++ ys ++ (List.replicate xs.length blank).drop xs.length) = Except.ok ys
    simp

/-- **Rows.** A loop whose body writes the row of an element, each row behind the
one before. -/
theorem forIndex_rows (outside : ε) (value : ℕ → α → ℕ → γ → Except ε β) (ys : List γ)
    (xs : List α) :
    ∀ (start : ℕ) (done blanks : List β), done.length = ys.length * start →
      ys.length * xs.length ≤ blanks.length →
      forIndex (fun i x => forIndex (assign outside (value i x) fun j => j + ys.length * i) 0 ys)
          start xs (done ++ blanks) =
        (mapIndex (fun i x => mapIndex (value i x) 0 ys) start xs).map fun rows =>
          done ++ rows.flatten ++ blanks.drop (ys.length * xs.length) := by
  induction xs with
  | nil =>
    intro start done blanks _ _
    show Except.ok (done ++ blanks) = .ok (done ++ [] ++ blanks.drop (ys.length * 0))
    rw [List.append_nil, Nat.mul_zero, List.drop_zero]
  | cons x xs ih =>
    intro start done blanks hdone hlength
    rw [List.length_cons, Nat.mul_succ] at hlength
    rw [forIndex, forIndex_assign outside _ _ ys _ _ _ (by omega) (fun k => by rw [hdone]; omega),
      mapIndex_cons]
    cases hrow : mapIndex (value start x) 0 ys with
    | error e => rfl
    | ok row =>
      have hrowLength := length_of_mapIndex hrow
      show forIndex _ (start + 1) xs (done ++ row ++ blanks.drop ys.length) =
        (mapIndex (fun i x => mapIndex (value i x) 0 ys) (start + 1) xs >>= fun rows =>
          .ok (row :: rows)).map _
      rw [ih _ _ _ (by rw [List.length_append, hdone, hrowLength, Nat.mul_succ])
        (by rw [List.length_drop]; omega), List.drop_drop]
      cases mapIndex (fun i x => mapIndex (value i x) 0 ys) (start + 1) xs with
      | error e => rfl
      | ok rows =>
        show Except.ok _ = Except.ok (done ++ (row :: rows).flatten ++ _)
        rw [List.flatten_cons, ← List.append_assoc, List.length_cons, Nat.mul_succ, Nat.add_comm]

/-- The loop in a loop that fills an array of the rows. -/
theorem fillRows_eq_mapIndex (outside : ε) (value : ℕ → α → ℕ → γ → Except ε β) (blank : β)
    (ys : List γ) (xs : List α) :
    forIndex (fun i x => forIndex (assign outside (value i x) fun j => j + ys.length * i) 0 ys)
        0 xs (List.replicate (ys.length * xs.length) blank) =
      (mapIndex (fun i x => mapIndex (value i x) 0 ys) 0 xs).map List.flatten := by
  have hfill := forIndex_rows outside value ys xs 0 []
    (List.replicate (ys.length * xs.length) blank) (by simp) (by simp)
  rw [List.nil_append] at hfill
  rw [hfill]
  cases mapIndex (fun i x => mapIndex (value i x) 0 ys) 0 xs with
  | error e => rfl
  | ok rows =>
    show Except.ok ([] ++ rows.flatten ++ (List.replicate (ys.length * xs.length) blank).drop
      (ys.length * xs.length)) = Except.ok rows.flatten
    simp

/-! ## Where a loop writes -/

/-- A body that notes the indices it writes at. -/
def noting (body : ℕ → α → σ → Except ε σ) (writes : ℕ → List ℕ) (i : ℕ) (x : α)
    (state : σ × List ℕ) : Except ε (σ × List ℕ) :=
  (body i x state.1).map fun next => (next, state.2 ++ writes i)

/-- Notes do not change a loop. -/
theorem forIndex_noting (body : ℕ → α → σ → Except ε σ) (writes : ℕ → List ℕ) (xs : List α) :
    ∀ (start : ℕ) (state : σ) (written : List ℕ),
      forIndex (noting body writes) start xs (state, written) =
        (forIndex body start xs state).map fun next =>
          (next, written ++ (List.range' start xs.length).flatMap writes) := by
  induction xs with
  | nil =>
    intro start state written
    show Except.ok (state, written) = .ok (state, written ++ [])
    rw [List.append_nil]
  | cons x xs ih =>
    intro start state written
    rw [forIndex, forIndex]
    unfold noting
    cases hstep : body start x state with
    | error e => rfl
    | ok next =>
      show forIndex (noting body writes) (start + 1) xs (next, written ++ writes start) =
        (forIndex body (start + 1) xs next).map _
      rw [ih]
      simp only [List.length_cons, List.range'_succ, List.flatMap_cons, List.append_assoc]

/-- Nor those of a loop in it. -/
theorem forIndex_noting_rows (body : ℕ → α → ℕ → γ → σ → Except ε σ)
    (writes : ℕ → ℕ → List ℕ) (ys : List γ) (xs : List α) (state : σ) :
    forIndex (fun i x => forIndex (noting (body i x) (writes i)) 0 ys) 0 xs (state, []) =
      (forIndex (fun i x => forIndex (body i x) 0 ys) 0 xs state).map fun next =>
        (next, (List.range xs.length).flatMap fun i =>
          (List.range ys.length).flatMap (writes i)) := by
  have hrows : (fun i x => forIndex (noting (body i x) (writes i)) 0 ys) =
      noting (fun i x => forIndex (body i x) 0 ys)
        fun i => (List.range ys.length).flatMap (writes i) := by
    funext i x state
    rw [noting, List.range_eq_range', ← forIndex_noting]
  simp only [hrows, forIndex_noting, List.range_eq_range', List.nil_append]

/-- Row by row, a table is gone through from its first index to its last one. -/
theorem rows_eq_range (width height : ℕ) :
    ((List.range height).flatMap fun i =>
      (List.range width).flatMap fun j => [j + width * i]) = List.range (width * height) := by
  induction height with
  | zero => rfl
  | succ height ih =>
    rw [List.range_succ, List.flatMap_append, ih, Nat.mul_succ, List.range_add]
    simp only [List.flatMap_cons, List.flatMap_nil, List.append_nil, Nat.add_comm,
      ← List.map_eq_flatMap]

end BlockchainTask.Library.IndexedLoop

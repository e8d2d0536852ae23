import BlockchainTask.Library.Distinct
import Mathlib.Data.List.Nodup
import Mathlib.Data.List.Pairwise

/-! # Rows that are folded by a key

A query with joins has a row for each combination of what is joined, and the rows of
one key are folded into one entry, at the place of the first one. A page that is cut
out of the rows before they are folded is not the page of the entries: it is exactly
when the rows before it are of different keys that are not in it, what is in it is
whole, and it either has as many keys as fit or no new key comes after it. -/
namespace BlockchainTask.Library.FoldedRows
open BlockchainTask.Library.Distinct

variable {ρ κ η α : Type} [DecidableEq κ] {key : ρ → κ} {build : ρ → List ρ → η} {k l : ℕ}

/-- The elements from a place on, so many at most. -/
def page (k l : ℕ) (xs : List α) : List α := (xs.drop k).take l

/-- The rows of a key. -/
def groupOf (key : ρ → κ) (rows : List ρ) (x : κ) : List ρ := rows.filter fun row => key row = x

/-- An entry for each key, out of its first row and all of its rows. -/
def fold (key : ρ → κ) (build : ρ → List ρ → η) (rows : List ρ) : List η :=
  (distinctOn key rows).map fun first => build first (groupOf key rows (key first))

theorem page_map (f : α → η) (xs : List α) : page k l (xs.map f) = (page k l xs).map f := by
  simp [page]

/-- Before the page, the page, and behind it. -/
theorem parts (k l : ℕ) (xs : List α) : xs.take k ++ (page k l xs ++ xs.drop (k + l)) = xs := by
  rw [page, ← List.drop_drop, List.take_append_drop, List.take_append_drop]

theorem length_page_le (xs : List α) : (page k l xs).length ≤ l := List.length_take_le l _

theorem page_of_length_le {xs : List α} (h : xs.length ≤ k) : page k l xs = [] := by
  rw [page, List.drop_eq_nil_of_le h, List.take_nil]

/-- The first pages are the rows that they reach to. -/
theorem flatMap_pages (l pages : ℕ) (xs : List α) :
    ((List.range pages).flatMap fun i => page (i * l) l xs) = xs.take (pages * l) := by
  induction pages with
  | zero => rw [Nat.zero_mul, List.take_zero, List.range_zero, List.flatMap_nil]
  | succ pages ih =>
    rw [List.range_succ, List.flatMap_append, ih, List.flatMap_singleton, page, Nat.succ_mul,
      List.take_add]

/-! ## Distinct keys -/

theorem distinctOn_of_nodup {xs : List ρ} (h : (xs.map key).Nodup) : distinctOn key xs = xs := by
  induction xs with
  | nil => rfl
  | cons x xs ih =>
    rw [List.map_cons, List.nodup_cons] at h
    have hother : (xs.filter fun y => key y ≠ key x) = xs := List.filter_eq_self.mpr fun y hy => by
      simpa using fun he => h.1 (List.mem_map.mpr ⟨y, hy, he⟩)
    rw [distinctOn_cons, hother, ih h.2]

theorem length_distinctOn_le (key : ρ → κ) (xs : List ρ) : (distinctOn key xs).length ≤ xs.length := by
  induction xs using distinct_induction with
  | nil => exact Nat.le_refl _
  | cons x xs ih =>
    have hfilter := List.length_filter_le (fun y => decide (key y ≠ key x)) xs
    have hrest := ih fun y => decide (key y ≠ key x)
    rw [distinctOn_cons, List.length_cons, List.length_cons]
    omega

/-- Nothing is dropped only where all keys are different. -/
theorem nodup_of_length_distinctOn {xs : List ρ} (h : (distinctOn key xs).length = xs.length) :
    (xs.map key).Nodup := by
  induction xs with
  | nil => exact List.nodup_nil
  | cons x xs ih =>
    rw [distinctOn_cons, List.length_cons, List.length_cons] at h
    have hfilter := List.length_filter_le (fun y => decide (key y ≠ key x)) xs
    have hrest := length_distinctOn_le key (xs.filter fun y => key y ≠ key x)
    have hall : (xs.filter fun y => key y ≠ key x) = xs :=
      List.filter_eq_self.mpr (List.length_filter_eq_length_iff.mp (by omega))
    rw [hall] at h
    rw [List.map_cons, List.nodup_cons]
    refine ⟨fun hmem => ?_, ih (by omega)⟩
    obtain ⟨y, hy, hkey⟩ := List.mem_map.mp hmem
    have hne := List.filter_eq_self.mp hall y hy
    simp [hkey] at hne

theorem distinctOn_eq_nil_iff {xs : List ρ} : distinctOn key xs = [] ↔ xs = [] := by
  cases xs with
  | nil => exact ⟨fun _ => rfl, fun _ => rfl⟩
  | cons x xs => simp [distinctOn_cons]

/-- In a list without repetitions a value has one place. -/
theorem index_eq_of_nodup {xs : List α} (h : xs.Nodup) {i j : ℕ} {x : α} (hi : xs[i]? = some x)
    (hj : xs[j]? = some x) : i = j := by
  obtain ⟨hib, hix⟩ := List.getElem?_eq_some_iff.mp hi
  obtain ⟨hjb, hjx⟩ := List.getElem?_eq_some_iff.mp hj
  exact (List.Nodup.getElem_inj_iff h).mp (hix.trans hjx.symm)

/-! ## The keys of a page -/

/-- The rows before the page are of different keys that are not in it, and it has as
many keys as fit, or all that are left. -/
structure Heads (key : ρ → κ) (rows : List ρ) (k l : ℕ) : Prop where
  before : ((rows.take k).map key).Nodup
  apart : ∀ row ∈ rows.take k, key row ∉ (page k l rows).map key
  full : (((page k l rows).map key).Nodup ∧ (page k l rows).length = l) ∨
    ∀ row ∈ rows.drop (k + l), key row ∈ (rows.take (k + l)).map key

/-- The first rows of the keys that come behind a page. -/
def newBehind (key : ρ → κ) (rows : List ρ) (k l : ℕ) : List ρ :=
  distinctOn key (((rows.drop (k + l)).filter fun row => key row ∉ (rows.take k).map key).filter
    fun row => key row ∉ (page k l rows).map key)

theorem distinctOn_parts {rows : List ρ} (hbefore : ((rows.take k).map key).Nodup)
    (hapart : ∀ row ∈ rows.take k, key row ∉ (page k l rows).map key) :
    distinctOn key rows =
      rows.take k ++ (distinctOn key (page k l rows) ++ newBehind key rows k l) := by
  have hpage : ((page k l rows).filter fun row => key row ∉ (rows.take k).map key) =
      page k l rows := by
    refine List.filter_eq_self.mpr fun row hrow => decide_eq_true fun hmem => ?_
    obtain ⟨earlier, hearlier, hkey⟩ := List.mem_map.mp hmem
    exact hapart earlier hearlier (hkey ▸ List.mem_map_of_mem hrow)
  calc distinctOn key rows
      = distinctOn key (rows.take k ++ (page k l rows ++ rows.drop (k + l))) := by rw [parts]
    _ = rows.take k ++ (distinctOn key (page k l rows) ++ newBehind key rows k l) := by
      rw [distinctOn_append, distinctOn_of_nodup hbefore, List.filter_append, hpage,
        distinctOn_append, newBehind]

theorem newBehind_eq_nil_iff {rows : List ρ} : newBehind key rows k l = [] ↔
    ∀ row ∈ rows.drop (k + l), key row ∈ (rows.take (k + l)).map key := by
  have hseen : (rows.take (k + l)).map key =
      (rows.take k).map key ++ (page k l rows).map key := by
    rw [List.take_add, List.map_append, page]
  simp only [newBehind, distinctOn_eq_nil_iff, List.filter_filter, List.filter_eq_nil_iff, hseen,
    List.mem_append, Bool.and_eq_true, decide_eq_true_eq]
  refine forall₂_congr fun row _ => ?_
  tauto

/-- The first rows of a page are the page of the first rows. -/
theorem page_distinctOn {rows : List ρ} (h : Heads key rows k l) (hk : k ≤ rows.length) :
    page k l (distinctOn key rows) = distinctOn key (page k l rows) := by
  have hlength : (rows.take k).length = k := List.length_take_of_le hk
  rw [page, distinctOn_parts h.before h.apart, List.drop_left' hlength]
  rcases h.full with ⟨hnodup, hfull⟩ | hseen
  · rw [distinctOn_of_nodup hnodup, List.take_left' hfull]
  · rw [newBehind_eq_nil_iff.mpr hseen, List.append_nil, List.take_of_length_le]
    exact Nat.le_trans (length_distinctOn_le key _) (length_page_le rows)

theorem length_distinctOn_before {rows : List ρ} (hk : k < rows.length) {row : ρ}
    (hrow : rows[k]? = some row)
    (hplace : ((distinctOn key rows).map key)[k]? = some (key row)) :
    (distinctOn key (rows.take k)).length = k := by
  have hnodup : ((distinctOn key rows).map key).Nodup := nodup_map_distinctOn rows
  have hsplit : (distinctOn key rows).map key = (distinctOn key (rows.take k)).map key ++
      (distinctOn key ((rows.drop k).filter fun row => key row ∉ (rows.take k).map key)).map key := by
    rw [← List.map_append, ← distinctOn_append, List.take_append_drop]
  by_cases hseen : key row ∈ (rows.take k).map key
  · -- its key would have an earlier place, too
    obtain ⟨i, hi, hkey⟩ := List.getElem_of_mem (mem_map_distinctOn.mpr hseen)
    have hearlier : ((distinctOn key rows).map key)[i]? = some (key row) := by
      rw [hsplit, List.getElem?_append_left hi, List.getElem?_eq_getElem hi, hkey]
    have hindex := index_eq_of_nodup hnodup hearlier hplace
    have hle := length_distinctOn_le key (rows.take k)
    rw [List.length_map] at hi
    rw [List.length_take] at hle
    omega
  · obtain ⟨hbound, rfl⟩ := List.getElem?_eq_some_iff.mp hrow
    have hnext : ((distinctOn key rows).map key)[(distinctOn key (rows.take k)).length]? =
        some (key rows[k]) := by
      rw [hsplit, List.getElem?_append_right (by simp), List.drop_eq_getElem_cons hk,
        List.filter_cons_of_pos (by simpa using hseen), distinctOn_cons]
      simp
    exact index_eq_of_nodup hnodup hnext hplace

/-- The keys of a page are the page of the keys only so. -/
theorem heads_of_page {rows : List ρ} (hk : k < rows.length) (hl : 0 < l)
    (h : (distinctOn key (page k l rows)).map key = page k l ((distinctOn key rows).map key)) :
    Heads key rows k l := by
  have hnodup : ((distinctOn key rows).map key).Nodup := nodup_map_distinctOn rows
  have hpage : page k l rows = rows[k] :: (rows.drop (k + 1)).take (l - 1) := by
    rw [page, List.drop_eq_getElem_cons hk, List.take_cons hl]
  have hplace : ((distinctOn key rows).map key)[k]? = some (key rows[k]) := by
    have hfirst := congrArg (fun keys => keys[0]?) h
    simp only [hpage, distinctOn_cons, List.map_cons, List.getElem?_cons_zero] at hfirst
    rw [hfirst, page, List.getElem?_take_of_lt hl, List.getElem?_drop, Nat.add_zero]
  have htake : (rows.take k).length = k := List.length_take_of_le (Nat.le_of_lt hk)
  have hkeysTake : ((rows.take k).map key).length = k := by rw [List.length_map, htake]
  have hlength := length_distinctOn_before hk (List.getElem?_eq_getElem hk) hplace
  have hbefore : ((rows.take k).map key).Nodup :=
    nodup_of_length_distinctOn (hlength.trans htake.symm)
  have hapart : ∀ row ∈ rows.take k, key row ∉ (page k l rows).map key := by
    intro row hrow hmem
    have hlater : key row ∈ ((distinctOn key rows).map key).drop k :=
      List.mem_of_mem_take (h ▸ mem_map_distinctOn.mpr hmem)
    have hearlier : key row ∈ ((distinctOn key rows).map key).take k := by
      have hsplit : distinctOn key (rows.take k ++ rows.drop k) = _ := distinctOn_append _ _
      rw [List.take_append_drop, distinctOn_of_nodup hbefore] at hsplit
      rw [hsplit, List.map_append, List.take_left' hkeysTake]
      exact List.mem_map_of_mem hrow
    rw [← List.take_append_drop k ((distinctOn key rows).map key)] at hnodup
    exact (List.nodup_append.mp hnodup).2.2 _ hearlier _ hlater rfl
  refine ⟨hbefore, hapart, ?_⟩
  have hkeys : (distinctOn key (page k l rows)).map key =
      ((distinctOn key (page k l rows)).map key ++ (newBehind key rows k l).map key).take l := by
    conv_lhs => rw [h]
    rw [page, distinctOn_parts hbefore hapart, List.map_append, List.drop_left' hkeysTake,
      List.map_append]
  have hcount := congrArg List.length hkeys
  rw [List.length_take, List.length_append, List.length_map, List.length_map] at hcount
  have hle := length_distinctOn_le key (page k l rows)
  have hfits := length_page_le (k := k) (l := l) rows
  by_cases hfull : (distinctOn key (page k l rows)).length = l
  · exact Or.inl ⟨nodup_of_length_distinctOn (by omega), by omega⟩
  · exact Or.inr (newBehind_eq_nil_iff.mp (List.length_eq_zero_iff.mp (by omega)))

/-! ## The entries of a page -/

/-- **A page of rows.** Folded, it is the page of the entries exactly when it lies
behind all rows, or its keys are the page of the keys and each of them is whole. -/
theorem fold_page_iff (keyOf : η → κ) (hkey : ∀ first group, keyOf (build first group) = key first)
    (rows : List ρ) (hl : 0 < l) :
    fold key build (page k l rows) = page k l (fold key build rows) ↔
      rows.length ≤ k ∨ Heads key rows k l ∧ ∀ first ∈ distinctOn key (page k l rows),
        build first (groupOf key (page k l rows) (key first)) =
          build first (groupOf key rows (key first)) := by
  by_cases hk : rows.length ≤ k
  · have hentries : (fold key build rows).length ≤ k := by
      rw [fold, List.length_map]
      exact Nat.le_trans (length_distinctOn_le key rows) hk
    simp only [hk, true_or, iff_true, page_of_length_le hk, page_of_length_le hentries]
    rfl
  · rw [or_iff_right hk]
    have hk := Nat.lt_of_not_le hk
    have hentries (h : Heads key rows k l) : page k l (fold key build rows) =
        (distinctOn key (page k l rows)).map fun first =>
          build first (groupOf key rows (key first)) := by
      rw [fold, page_map, page_distinctOn h (Nat.le_of_lt hk)]
    constructor
    · intro h
      have hheads : Heads key rows k l := by
        have hkeys := congrArg (List.map keyOf) h
        rw [fold, fold, ← page_map, List.map_map, List.map_map] at hkeys
        simp only [Function.comp_def, hkey] at hkeys
        exact heads_of_page hk hl hkeys
      refine ⟨hheads, List.map_inj_left.mp ?_⟩
      rw [← hentries hheads]
      exact h
    · rintro ⟨hheads, hwhole⟩
      rw [hentries hheads]
      exact List.map_congr_left hwhole

/-! ## Consecutive pages -/

theorem mem_page_iff {rows : List ρ} (hl : 0 < l) {i : ℕ} {row : ρ} :
    row ∈ page (i * l) l rows ↔ ∃ a, a / l = i ∧ rows[a]? = some row := by
  have hwindow : ∀ a, a / l = i ↔ i * l ≤ a ∧ a < i * l + l := by
    intro a
    rw [Nat.div_eq_iff hl]
    omega
  rw [List.mem_iff_getElem?]
  constructor
  · rintro ⟨j, hj⟩
    rw [page, List.getElem?_take] at hj
    split at hj
    · rename_i hjl
      rw [List.getElem?_drop] at hj
      exact ⟨i * l + j, (hwindow _).mpr ⟨Nat.le_add_right _ _, by omega⟩, hj⟩
    · cases hj
  · rintro ⟨a, ha, hrow⟩
    obtain ⟨hle, hlt⟩ := (hwindow a).mp ha
    refine ⟨a - i * l, ?_⟩
    rw [page, List.getElem?_take_of_lt (by omega), List.getElem?_drop, Nat.add_sub_cancel' hle]
    exact hrow

/-- The keys of the first pages, one after another. -/
def pagesKeys (key : ρ → κ) (l pages : ℕ) (rows : List ρ) : List κ :=
  (List.range pages).flatMap fun i => (distinctOn key (page (i * l) l rows)).map key

/-- No key has rows on two pages. -/
def OnOnePage (key : ρ → κ) (l : ℕ) (rows : List ρ) : Prop :=
  ∀ a b row other, rows[a]? = some row → rows[b]? = some other → key row = key other →
    a / l = b / l

theorem mem_keys_page {rows : List ρ} (hl : 0 < l) {i : ℕ} {x : κ} :
    x ∈ (distinctOn key (page (i * l) l rows)).map key ↔
      ∃ a row, a / l = i ∧ rows[a]? = some row ∧ key row = x := by
  rw [mem_map_distinctOn, List.mem_map]
  constructor
  · rintro ⟨row, hrow, hkey⟩
    obtain ⟨a, ha, hrow⟩ := (mem_page_iff hl).mp hrow
    exact ⟨a, row, ha, hrow, hkey⟩
  · rintro ⟨a, row, ha, hrow, hkey⟩
    exact ⟨row, (mem_page_iff hl).mpr ⟨a, ha, hrow⟩, hkey⟩

/-- Pages that reach to the last row have all keys. -/
theorem mem_pagesKeys {rows : List ρ} (hl : 0 < l) {pages : ℕ} (hpages : rows.length ≤ pages * l)
    {x : κ} : x ∈ pagesKeys key l pages rows ↔ x ∈ (distinctOn key rows).map key := by
  rw [pagesKeys, List.mem_flatMap, mem_map_distinctOn, List.mem_map]
  simp only [List.mem_range, mem_keys_page hl]
  constructor
  · rintro ⟨_, _, a, row, _, hrow, hkey⟩
    exact ⟨row, List.mem_of_getElem? hrow, hkey⟩
  · rintro ⟨row, hrow, hkey⟩
    obtain ⟨a, ha⟩ := List.mem_iff_getElem?.mp hrow
    have hbound := (List.getElem?_eq_some_iff.mp ha).1
    exact ⟨a / l, (Nat.div_lt_iff_lt_mul hl).mpr (by omega), a, row, rfl, ha, hkey⟩

/-- **Consecutive pages** have every key once exactly when none has rows on two. -/
theorem pagesKeys_perm_iff {rows : List ρ} (hl : 0 < l) {pages : ℕ}
    (hpages : rows.length ≤ pages * l) :
    (pagesKeys key l pages rows).Perm ((distinctOn key rows).map key) ↔ OnOnePage key l rows := by
  have hall : ((distinctOn key rows).map key).Nodup := nodup_map_distinctOn rows
  constructor
  · intro hperm a b row other ha hb hkey
    have hnodup := hperm.nodup_iff.mpr hall
    rw [pagesKeys, List.nodup_flatMap] at hnodup
    by_contra hpage
    have hrange : ∀ {c r}, rows[c]? = some r → c / l ∈ List.range pages := by
      intro c r hc
      have hbound := (List.getElem?_eq_some_iff.mp hc).1
      exact List.mem_range.mpr ((Nat.div_lt_iff_lt_mul hl).mpr (by omega))
    have hsymm : Std.Symm (Function.onFun List.Disjoint fun i =>
        (distinctOn key (page (i * l) l rows)).map key) := ⟨fun _ _ h _ hx hy => h hy hx⟩
    have hapart := hnodup.2.forall (hrange ha) (hrange hb) hpage
    exact hapart ((mem_keys_page hl).mpr ⟨a, row, rfl, ha, rfl⟩)
      ((mem_keys_page hl).mpr ⟨b, other, rfl, hb, hkey.symm⟩)
  · intro h
    refine (List.perm_ext_iff_of_nodup ?_ hall).mpr fun x => mem_pagesKeys hl hpages
    rw [pagesKeys, List.nodup_flatMap]
    refine ⟨fun i _ => nodup_map_distinctOn _, ?_⟩
    refine List.nodup_range.imp fun {i j} hne x hi hj => hne ?_
    obtain ⟨a, row, rfl, ha, hrow⟩ := (mem_keys_page hl).mp hi
    obtain ⟨b, other, rfl, hb, hother⟩ := (mem_keys_page hl).mp hj
    exact h a b row other ha hb (hrow.trans hother.symm)

end BlockchainTask.Library.FoldedRows

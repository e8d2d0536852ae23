import Mathlib.Data.List.Basic
import Mathlib.Data.List.Nodup

/-! # Tables with generated ids and a unique index

A table keeps its rows in the order they were inserted. Ids are generated in
increasing order and never reused. `key` is the unique index: no two rows have
the same key, and a row whose key is `none` (a null column in the index) takes
part in no conflict. Both facts are fields of the table, so every table that
exists satisfies them. -/
namespace BlockchainTask.Library.Store

structure Stored (R : Type) where
  id : Nat
  row : R
  deriving DecidableEq

structure Table (R K : Type) (key : R → Option K) where
  rows : List (Stored R)
  nextId : Nat
  idsIncrease : (rows.map Stored.id).Pairwise (· < ·)
  idsBelow : ∀ s ∈ rows, s.id < nextId
  keysDiffer : (rows.filterMap fun s => key s.row).Nodup

namespace Table
variable {R K : Type} {key : R → Option K}

def empty : Table R K key := ⟨[], 0, by simp, by simp, by simp⟩

theorem id_inj {t : Table R K key} {a b : Stored R} (ha : a ∈ t.rows) (hb : b ∈ t.rows)
    (h : a.id = b.id) : a = b :=
  List.inj_on_of_nodup_map (t.idsIncrease.imp Nat.ne_of_lt) ha hb h

theorem key_inj {t : Table R K key} {a b : Stored R} {k : K} (ha : a ∈ t.rows) (hb : b ∈ t.rows)
    (hka : key a.row = some k) (hkb : key b.row = some k) : a = b := by
  obtain ⟨xs, ys, he⟩ := List.append_of_mem ha
  have hn := t.keysDiffer
  rw [he] at hn hb
  simp only [List.filterMap_append, List.filterMap_cons, hka, List.nodup_append,
    List.nodup_cons, List.mem_filterMap, List.mem_cons] at hn
  obtain ⟨_, ⟨hys, _⟩, hxs⟩ := hn
  rcases List.mem_append.mp hb with hb | hb
  · exact absurd rfl (hxs k ⟨b, hb, hkb⟩ k (Or.inl rfl))
  · rcases List.mem_cons.mp hb with rfl | hb
    · rfl
    · exact absurd ⟨b, hb, hkb⟩ hys
/-- The row of an id. -/
def byId (t : Table R K key) (i : Nat) : Option (Stored R) := t.rows.find? fun s => s.id == i

theorem byId_of_mem {t : Table R K key} {s : Stored R} (h : s ∈ t.rows) :
    t.byId s.id = some s := by
  cases hf : t.byId s.id with
  | none =>
    have hnone := List.find?_eq_none.mp hf s h
    simp at hnone
  | some s' =>
    have hid : s'.id = s.id := by simpa using List.find?_some hf
    rw [id_inj (List.mem_of_find?_eq_some hf) h hid]

variable [DecidableEq K]

/-- The row of a key. -/
def lookup (t : Table R K key) (k : K) : Option (Stored R) :=
  t.rows.find? fun s => decide (key s.row = some k)

/-- The row of a key, without its id. -/
def content (t : Table R K key) (k : K) : Option R := (t.lookup k).map Stored.row

/-- The row would break the unique index. -/
def conflicts (t : Table R K key) (r : R) : Bool :=
  match key r with
  | some k => (t.lookup k).isSome
  | none => false

theorem lookup_some {t : Table R K key} {k : K} {s : Stored R} (h : t.lookup k = some s) :
    s ∈ t.rows ∧ key s.row = some k :=
  ⟨List.mem_of_find?_eq_some h, by simpa using List.find?_some h⟩

theorem lookup_none {t : Table R K key} {k : K} :
    t.lookup k = none ↔ ∀ s ∈ t.rows, key s.row ≠ some k := by
  simp [lookup, List.find?_eq_none]

theorem lookup_iff {t : Table R K key} {k : K} {s : Stored R} :
    t.lookup k = some s ↔ s ∈ t.rows ∧ key s.row = some k := by
  refine ⟨lookup_some, fun ⟨hm, hk⟩ => ?_⟩
  cases h : t.lookup k with
  | none => exact absurd hk (lookup_none.mp h s hm)
  | some s' =>
    obtain ⟨hm', hk'⟩ := lookup_some h
    rw [key_inj hm' hm hk' hk]

/-! ## Inserts -/

/-- `INSERT` of a row that breaks no index. -/
def insert (t : Table R K key) (r : R) (h : t.conflicts r = false) : Table R K key where
  rows := t.rows ++ [⟨t.nextId, r⟩]
  nextId := t.nextId + 1
  idsIncrease := by
    simp only [List.map_append, List.map_cons, List.map_nil, List.pairwise_append,
      List.pairwise_singleton, List.mem_map, List.mem_singleton, forall_eq, true_and]
    refine ⟨t.idsIncrease, ?_⟩
    intro i hi
    obtain ⟨s, hs, rfl⟩ := hi
    exact t.idsBelow s hs
  idsBelow := by
    intro s hs
    rcases List.mem_append.mp hs with hs | hs
    · exact Nat.lt_succ_of_lt (t.idsBelow s hs)
    · rw [List.mem_singleton.mp hs]; exact Nat.lt_succ_self _
  keysDiffer := by
    rw [List.filterMap_append, List.nodup_append]
    refine ⟨t.keysDiffer, ?_, ?_⟩
    · cases hk : key r <;> simp [hk]
    · intro a ha b hb
      obtain ⟨s, hs, hka⟩ := List.mem_filterMap.mp ha
      cases hk : key r with
      | none => simp [hk] at hb
      | some k =>
        have hbk : b = k := by simpa [hk] using hb
        have hnone : t.lookup k = none := by simpa [conflicts, hk] using h
        intro hab
        exact lookup_none.mp hnone s hs (hka.trans (by rw [hab, hbk]))

/-- `INSERT IGNORE`: a row that breaks the index is dropped. -/
def insertIgnore (t : Table R K key) (r : R) : Table R K key :=
  if h : t.conflicts r = false then t.insert r h else t

/-- `INSERT IGNORE` of several rows, in order. -/
def insertAll (t : Table R K key) (rs : List R) : Table R K key := rs.foldl insertIgnore t

theorem lookup_insert {t : Table R K key} {r : R} (h : t.conflicts r = false) (k : K) :
    (t.insert r h).lookup k = if key r = some k then some ⟨t.nextId, r⟩ else t.lookup k := by
  by_cases hk : key r = some k
  · have hnone : t.lookup k = none := by simpa [conflicts, hk] using h
    have hold : t.rows.find? (fun s => decide (key s.row = some k)) = none := hnone
    simp [lookup, insert, List.find?_append, hold, hk]
  · simp [lookup, insert, List.find?_append, hk]

/-- An ignored insert keeps the rows there are; a key without a row gets the
new row. -/
theorem lookup_insertIgnore (t : Table R K key) (r : R) (k : K) :
    (t.insertIgnore r).lookup k =
      (t.lookup k).or (if key r = some k then some ⟨t.nextId, r⟩ else none) := by
  unfold insertIgnore
  split
  · rename_i h
    rw [lookup_insert h]
    by_cases hk : key r = some k
    · have hnone : t.lookup k = none := by simpa [conflicts, hk] using h
      simp [hk, hnone]
    · simp [hk]
  · rename_i h
    by_cases hk : key r = some k
    · have hsome : (t.lookup k).isSome = true := by
        simpa [conflicts, hk, Option.isSome_iff_ne_none] using h
      obtain ⟨s, hs⟩ := Option.isSome_iff_exists.mp hsome
      simp [hs]
    · simp [hk]

theorem insertIgnore_rows (t : Table R K key) (r : R) :
    (t.insertIgnore r).rows = t.rows ∨ (t.insertIgnore r).rows = t.rows ++ [⟨t.nextId, r⟩] := by
  unfold insertIgnore
  split
  · exact Or.inr rfl
  · exact Or.inl rfl

theorem insertIgnore_nextId (t : Table R K key) (r : R) : t.nextId ≤ (t.insertIgnore r).nextId := by
  unfold insertIgnore
  split
  · exact Nat.le_succ _
  · exact Nat.le_refl _

theorem insertAll_cons (t : Table R K key) (r : R) (rs : List R) :
    t.insertAll (r :: rs) = (t.insertIgnore r).insertAll rs := rfl

theorem insertAll_append (t : Table R K key) (rs rs' : List R) :
    t.insertAll (rs ++ rs') = (t.insertAll rs).insertAll rs' := by
  simp [insertAll, List.foldl_append]

theorem insertAll_nextId (t : Table R K key) (rs : List R) : t.nextId ≤ (t.insertAll rs).nextId := by
  induction rs generalizing t with
  | nil => exact Nat.le_refl _
  | cons r rs ih => exact Nat.le_trans (insertIgnore_nextId t r) (ih (t.insertIgnore r))

/-- Inserts only append: the old rows are a prefix of the new ones. -/
theorem rows_prefix_insertAll (t : Table R K key) (rs : List R) :
    t.rows <+: (t.insertAll rs).rows := by
  induction rs generalizing t with
  | nil => exact List.prefix_refl _
  | cons r rs ih =>
    refine List.IsPrefix.trans ?_ (ih (t.insertIgnore r))
    rcases insertIgnore_rows t r with h | h
    · exact ⟨[], by rw [List.append_nil, h]⟩
    · rw [h]; exact List.prefix_append _ _

/-- A row of the table after inserts was there before, or is one of the
inserted rows under a new id. -/
theorem mem_insertAll {t : Table R K key} {rs : List R} {s : Stored R}
    (h : s ∈ (t.insertAll rs).rows) : s ∈ t.rows ∨ s.row ∈ rs ∧ t.nextId ≤ s.id := by
  induction rs generalizing t with
  | nil => exact Or.inl h
  | cons r rs ih =>
    rcases ih (t := t.insertIgnore r) h with hm | ⟨hm, hi⟩
    · rcases insertIgnore_rows t r with he | he <;> rw [he] at hm
      · exact Or.inl hm
      · rcases List.mem_append.mp hm with hm | hm
        · exact Or.inl hm
        · rw [List.mem_singleton.mp hm]
          exact Or.inr ⟨List.mem_cons_self, Nat.le_refl _⟩
    · exact Or.inr ⟨List.mem_cons_of_mem _ hm, Nat.le_trans (insertIgnore_nextId t r) hi⟩

/-- A key keeps its row through any inserts. -/
theorem lookup_insertAll_of_some {t : Table R K key} {k : K} {s : Stored R}
    (h : t.lookup k = some s) (rs : List R) : (t.insertAll rs).lookup k = some s := by
  obtain ⟨hm, hk⟩ := lookup_some h
  exact lookup_iff.mpr ⟨(rows_prefix_insertAll t rs).subset hm, hk⟩

/-- A key without a row gets the first inserted row that has it. -/
theorem content_insertAll_of_none {t : Table R K key} {k : K} (h : t.lookup k = none)
    (rs : List R) : (t.insertAll rs).content k = rs.find? fun r => decide (key r = some k) := by
  induction rs generalizing t with
  | nil => simp [insertAll, content, h]
  | cons r rs ih =>
    rw [insertAll_cons]
    by_cases hk : key r = some k
    · have hl : (t.insertIgnore r).lookup k = some ⟨t.nextId, r⟩ := by
        rw [lookup_insertIgnore, h]; simp [hk]
      rw [content, lookup_insertAll_of_some hl]
      simp [hk]
    · rw [ih (by rw [lookup_insertIgnore, h]; simp [hk])]
      simp [hk]

/-- After the inserts every inserted key has a row. -/
theorem lookup_insertAll_isSome {t : Table R K key} {rs : List R} {r : R} (h : r ∈ rs) {k : K}
    (hk : key r = some k) : ((t.insertAll rs).lookup k).isSome = true := by
  cases ht : t.lookup k with
  | some s => rw [lookup_insertAll_of_some ht]; rfl
  | none =>
    have hc := content_insertAll_of_none ht rs
    have hf : (rs.find? fun r => decide (key r = some k)).isSome = true := by
      rw [List.find?_isSome]; exact ⟨r, h, by simpa using hk⟩
    rw [← hc, content] at hf
    simpa using hf

/-- Rows outside the unique index are all appended, in order. -/
theorem rows_insertAll_of_null (t : Table R K key) {rs : List R} (h : ∀ r ∈ rs, key r = none) :
    (t.insertAll rs).rows.map Stored.row = t.rows.map Stored.row ++ rs := by
  induction rs generalizing t with
  | nil => simp [insertAll]
  | cons r rs ih =>
    have hc : t.conflicts r = false := by simp [conflicts, h r List.mem_cons_self]
    rw [insertAll_cons, ih _ fun r' hr => h r' (List.mem_cons_of_mem _ hr)]
    simp [insertIgnore, hc, insert]

end Table

/-! ## Updates -/

/-- The row with the id `i`, rewritten; any other row as it is. -/
def Stored.updated {R : Type} (i : Nat) (f : R → R) (s : Stored R) : Stored R :=
  if s.id = i then ⟨s.id, f s.row⟩ else s

@[simp] theorem Stored.updated_id {R : Type} (i : Nat) (f : R → R) (s : Stored R) :
    (s.updated i f).id = s.id := by
  unfold Stored.updated; split <;> rfl

theorem Stored.updated_key {R K : Type} {key : R → Option K} {f : R → R}
    (hf : ∀ r, key (f r) = key r) (i : Nat) (s : Stored R) :
    key (s.updated i f).row = key s.row := by
  unfold Stored.updated
  split
  · exact hf s.row
  · rfl

namespace Table
variable {R K : Type} {key : R → Option K}

/-- `UPDATE ... WHERE id = i`, of columns outside the index. -/
def updateId (t : Table R K key) (i : Nat) (f : R → R) (hf : ∀ r, key (f r) = key r) :
    Table R K key where
  rows := t.rows.map (Stored.updated i f)
  nextId := t.nextId
  idsIncrease := by
    have he : Stored.id ∘ Stored.updated i f = Stored.id := funext (Stored.updated_id i f)
    rw [List.map_map, he]
    exact t.idsIncrease
  idsBelow := by
    intro s hs
    obtain ⟨s', hs', rfl⟩ := List.mem_map.mp hs
    rw [Stored.updated_id]
    exact t.idsBelow s' hs'
  keysDiffer := by
    have he : (fun s : Stored R => key s.row) ∘ Stored.updated i f = fun s => key s.row :=
      funext (Stored.updated_key hf i)
    rw [List.filterMap_map, he]
    exact t.keysDiffer

def single (i : Nat) (r : R) : Table R K key where
  rows := [⟨i, r⟩]
  nextId := i + 1
  idsIncrease := by simp
  idsBelow := by simp
  keysDiffer := by cases h : key r <;> simp [h]

/-- No table whose row of the id is none that the update makes is left by it. -/
theorem updateId_not_surjective {f : R → R} {hf : ∀ r, key (f r) = key r} {i : Nat} {r : R}
    (h : ∀ r', f r' ≠ r) : ¬ Function.Surjective fun t : Table R K key => t.updateId i f hf := by
  intro hsurj
  obtain ⟨t, ht⟩ := hsurj (Table.single i r)
  have hrows : t.rows.map (Stored.updated i f) = [⟨i, r⟩] := congrArg Table.rows ht
  obtain ⟨s, _, hs⟩ := List.mem_map.mp (hrows ▸ List.mem_singleton_self _)
  have hid : s.id = i := by rw [← Stored.updated_id i f s, hs]
  rw [Stored.updated, if_pos hid] at hs
  exact h s.row (congrArg Stored.row hs)

variable [DecidableEq K]

theorem lookup_updateId (t : Table R K key) (i : Nat) (f : R → R) (hf) (k : K) :
    (t.updateId i f hf).lookup k = (t.lookup k).map (Stored.updated i f) := by
  have he : (fun s : Stored R => decide (key s.row = some k)) ∘ Stored.updated i f =
      fun s => decide (key s.row = some k) := by
    funext s
    rw [Function.comp, Stored.updated_key hf]
  simp only [lookup, updateId, List.find?_map, he]

/-- An update through the id of a key's row is an update of that key alone. -/
theorem content_updateId {t : Table R K key} {k : K} {s : Stored R} (h : t.lookup k = some s)
    (f : R → R) (hf) (k' : K) :
    (t.updateId s.id f hf).content k' = if k' = k then some (f s.row) else t.content k' := by
  obtain ⟨hm, hk⟩ := lookup_some h
  rw [content, lookup_updateId]
  by_cases hkk : k' = k
  · subst hkk; simp [h, Stored.updated]
  · rw [if_neg hkk, content]
    cases h' : t.lookup k' with
    | none => rfl
    | some s' =>
      obtain ⟨hm', hk'⟩ := lookup_some h'
      have hne : s'.id ≠ s.id := by
        intro he
        rw [id_inj hm' hm he, hk] at hk'
        exact hkk (Option.some.inj hk').symm
      simp [Stored.updated, hne]

/-- It changes the table exactly when it changes that row. -/
theorem updateId_eq_self_iff {t : Table R K key} {k : K} {s : Stored R} (h : t.lookup k = some s)
    (f : R → R) (hf) : t.updateId s.id f hf = t ↔ f s.row = s.row := by
  constructor
  · intro he
    have hrow := content_updateId h f hf k
    rw [he, if_pos rfl, content, h] at hrow
    exact (Option.some.inj hrow).symm
  · intro hrow
    have hrows : t.rows.map (Stored.updated s.id f) = t.rows.map id := by
      refine List.map_congr_left fun s' hs' => ?_
      unfold Stored.updated
      split
      · rename_i hid
        rw [id_inj hs' (lookup_some h).1 hid, hrow]
        rfl
      · rfl
    rw [List.map_id] at hrows
    obtain ⟨rows, nextId, _, _, _⟩ := t
    simp only [updateId, mk.injEq, and_true]
    exact hrows

/-- No table without a row is left by an insert. -/
theorem insertIgnore_not_surjective (r : R) :
    ¬ Function.Surjective fun t : Table R K key => t.insertIgnore r := by
  intro hsurj
  obtain ⟨t, ht⟩ := hsurj Table.empty
  have hempty : (t.insertIgnore r).rows = [] := congrArg Table.rows ht
  rcases insertIgnore_rows t r with h | h
  · have hnone : t.rows = [] := h.symm.trans hempty
    have hfree : t.conflicts r = false := by
      unfold conflicts
      split <;> simp [lookup, hnone]
    simp [insertIgnore, hfree, insert] at hempty
  · rw [h] at hempty
    exact List.append_ne_nil_of_right_ne_nil _ (List.cons_ne_nil _ _) hempty

/-- Updates of other rows. -/
theorem foldl_updated_of_notMem {R P : Type} {i : P → Nat} {f : P → R → R} {ps : List P}
    {s : Stored R} (h : s.id ∉ ps.map i) :
    ps.foldl (fun s p => s.updated (i p) (f p)) s = s := by
  induction ps with
  | nil => rfl
  | cons p ps ih =>
    rw [List.map_cons, List.mem_cons, not_or] at h
    rw [List.foldl_cons, Stored.updated, if_neg h.1]
    exact ih h.2

/-- Among updates of different rows, the one of a row. -/
theorem foldl_updated_of_mem {R P : Type} {i : P → Nat} {f : P → R → R} {ps : List P}
    {s : Stored R} {p : P} (hdistinct : (ps.map i).Nodup) (hp : p ∈ ps) (hid : s.id = i p) :
    ps.foldl (fun s p => s.updated (i p) (f p)) s = s.updated (i p) (f p) := by
  induction ps with
  | nil => cases hp
  | cons q ps ih =>
    rw [List.map_cons, List.nodup_cons] at hdistinct
    rw [List.foldl_cons]
    rcases List.mem_cons.mp hp with rfl | hp
    · refine foldl_updated_of_notMem ?_
      rw [Stored.updated_id, hid]
      exact hdistinct.1
    · have hne : s.id ≠ i q := fun hq => hdistinct.1 (hq ▸ hid ▸ List.mem_map_of_mem hp)
      rw [show s.updated (i q) (f q) = s from if_neg hne]
      exact ih hdistinct.2 hp

/-! ## Deletes -/

/-- `DELETE ... WHERE`. -/
def deleteWhere (t : Table R K key) (p : R → Bool) : Table R K key where
  rows := t.rows.filter fun s => !p s.row
  nextId := t.nextId
  idsIncrease := t.idsIncrease.sublist (List.filter_sublist.map _)
  idsBelow := fun s hs => t.idsBelow s (List.mem_of_mem_filter hs)
  keysDiffer := t.keysDiffer.sublist (List.filter_sublist.filterMap _)

theorem lookup_deleteWhere (t : Table R K key) (p : R → Bool) (k : K) :
    (t.deleteWhere p).lookup k = (t.lookup k).filter fun s => !p s.row := by
  cases hold : t.lookup k with
  | none =>
    exact lookup_none.mpr fun s hs => lookup_none.mp hold s (List.mem_of_mem_filter hs)
  | some s =>
    obtain ⟨hmem, hk⟩ := lookup_some hold
    cases hp : p s.row with
    | false =>
      rw [Option.filter_some, if_pos (by simp [hp])]
      exact lookup_iff.mpr ⟨List.mem_filter.mpr ⟨hmem, by simp [hp]⟩, hk⟩
    | true =>
      rw [Option.filter_some, if_neg (by simp [hp])]
      refine lookup_none.mpr fun s' hs' hk' => ?_
      obtain ⟨hmem', hp'⟩ := List.mem_filter.mp hs'
      rw [key_inj hmem' hmem hk' hk, hp] at hp'
      cases hp'

/-- A delete of the row of a key. -/
theorem content_deleteKey (t : Table R K key) {k : K} {p : R → Bool}
    (h : ∀ r, p r = true ↔ key r = some k) (k' : K) :
    (t.deleteWhere p).content k' = if k' = k then none else t.content k' := by
  rw [content, lookup_deleteWhere]
  cases hold : t.lookup k' with
  | none => simp [content, hold]
  | some s =>
    obtain ⟨_, hk'⟩ := lookup_some hold
    by_cases hkk : k' = k
    · have hp : p s.row = true := (h s.row).mpr (hkk ▸ hk')
      rw [Option.filter_some, if_neg (by simp [hp]), if_pos hkk]
      rfl
    · have hp : p s.row = false := by
        rw [Bool.eq_false_iff]
        exact fun hp => hkk (Option.some.inj (hk'.symm.trans ((h s.row).mp hp)))
      rw [Option.filter_some, if_pos (by simp [hp]), if_neg hkk, content, hold]

/-! ## Tables that differ in the row of one key -/

/-- The rows outside the unique index. -/
def unkeyed (t : Table R K key) : List (Stored R) := t.rows.filter fun s => (key s.row).isNone

/-- The second table has `row` under the key, and is the first one otherwise. -/
structure OnlyAt (k : K) (row : Option R) (t t' : Table R K key) : Prop where
  own : t'.content k = row
  others : ∀ k', k' ≠ k → t'.content k' = t.content k'
  unkeyed : t'.unkeyed = t.unkeyed

variable {k : K} {row row' : Option R} {t t' t'' : Table R K key}

theorem OnlyAt.refl (k : K) (t : Table R K key) : OnlyAt k (t.content k) t t :=
  ⟨rfl, fun _ _ => rfl, rfl⟩

theorem OnlyAt.trans (h : OnlyAt k row t t') (h' : OnlyAt k row' t' t'') : OnlyAt k row' t t'' :=
  ⟨h'.own, fun k' hk => (h'.others k' hk).trans (h.others k' hk), h'.unkeyed.trans h.unkeyed⟩

theorem OnlyAt.insertIgnore {r : R} (hk : key r = some k) (hfree : t.content k = none) :
    OnlyAt k (some r) t (t.insertIgnore r) := by
  have hlookup : t.lookup k = none := Option.map_eq_none_iff.mp hfree
  have hconflict : t.conflicts r = false := by simp [conflicts, hk, hlookup]
  refine ⟨?_, fun k' hk' => ?_, ?_⟩
  · rw [content, lookup_insertIgnore, hlookup, if_pos hk]
    rfl
  · have hne : ¬ key r = some k' := by
      rw [hk]
      exact fun he => hk' (Option.some.inj he).symm
    rw [content, lookup_insertIgnore, if_neg hne, Option.or_none]
    rfl
  · simp [Table.unkeyed, Table.insertIgnore, hconflict, insert, hk]

theorem OnlyAt.updateId {s : Stored R} (h : t.lookup k = some s) (f : R → R) (hf) :
    OnlyAt k (some (f s.row)) t (t.updateId s.id f hf) := by
  obtain ⟨hmem, hk⟩ := lookup_some h
  refine ⟨?_, fun k' hk' => ?_, ?_⟩
  · rw [content_updateId h, if_pos rfl]
  · rw [content_updateId h, if_neg hk']
  · have hkeys : (fun s' : Stored R => (key s'.row).isNone) ∘ Stored.updated s.id f =
        fun s' => (key s'.row).isNone := by
      funext s'
      rw [Function.comp, Stored.updated_key hf]
    rw [Table.unkeyed, Table.updateId, List.filter_map, hkeys]
    refine (List.map_congr_left fun s' hs' => ?_).trans (List.map_id _)
    obtain ⟨hmem', hnone⟩ := List.mem_filter.mp hs'
    have hne : s'.id ≠ s.id := by
      intro hid
      rw [id_inj hmem' hmem hid, hk] at hnone
      cases hnone
    rw [Stored.updated, if_neg hne, id_eq]

end Table

/-! ## Updates of all rows with a property -/

def Stored.updatedIf {R : Type} (p : R → Bool) (f : R → R) (s : Stored R) : Stored R :=
  ⟨s.id, if p s.row then f s.row else s.row⟩

namespace Table
variable {R K : Type} {key : R → Option K}

/-- `UPDATE ... WHERE`, of columns outside the index. -/
def updateWhere (t : Table R K key) (p : R → Bool) (f : R → R) (hf : ∀ r, key (f r) = key r) :
    Table R K key where
  rows := t.rows.map (Stored.updatedIf p f)
  nextId := t.nextId
  idsIncrease := by
    have he : Stored.id ∘ Stored.updatedIf p f = Stored.id := rfl
    rw [List.map_map, he]
    exact t.idsIncrease
  idsBelow := by
    intro s hs
    obtain ⟨s', hs', rfl⟩ := List.mem_map.mp hs
    exact t.idsBelow s' hs'
  keysDiffer := by
    have he : (fun s : Stored R => key s.row) ∘ Stored.updatedIf p f = fun s => key s.row := by
      funext s
      rw [Function.comp, Stored.updatedIf]
      split
      · exact hf s.row
      · rfl
    rw [List.filterMap_map, he]
    exact t.keysDiffer

/-- The rows without their ids. -/
def contents (t : Table R K key) : List R := t.rows.map Stored.row

theorem contents_updateWhere (t : Table R K key) (p : R → Bool) (f : R → R) (hf) :
    (t.updateWhere p f hf).contents = t.contents.map fun r => if p r then f r else r := by
  simp [contents, updateWhere, Stored.updatedIf, Function.comp_def]

theorem contents_insertIgnore [DecidableEq K] {t : Table R K key} {r : R}
    (h : t.conflicts r = false) : (t.insertIgnore r).contents = t.contents ++ [r] := by
  rw [insertIgnore, dif_pos h, contents, contents, insert, List.map_append, List.map_singleton]

/-- Under a key stands what the update makes of the row that stood there. -/
theorem content_updateWhere [DecidableEq K] (t : Table R K key) (p : R → Bool) (f : R → R) (hf)
    (k : K) : (t.updateWhere p f hf).content k =
      (t.content k).map fun r => if p r then f r else r := by
  have hkeys : (fun s : Stored R => decide (key s.row = some k)) ∘ Stored.updatedIf p f =
      fun s => decide (key s.row = some k) := by
    funext s
    rw [Function.comp, Stored.updatedIf]
    by_cases hp : p s.row = true
    · rw [if_pos hp, hf]
    · rw [if_neg hp]
  rw [content, lookup, updateWhere, List.find?_map, hkeys, content, lookup, Option.map_map,
    Option.map_map]
  rfl

/-! ## A part of the rows

Rows with the same key are in the part together or not at all. -/

def part (t : Table R K key) (p : R → Bool) : List R := t.contents.filter p

theorem part_insertIgnore_of_not [DecidableEq K] (t : Table R K key) {p : R → Bool} {r : R}
    (h : p r = false) : (t.insertIgnore r).part p = t.part p := by
  rcases insertIgnore_rows t r with hrows | hrows
  · rw [part, contents, hrows, part, contents]
  · rw [part, contents, hrows, List.map_append, List.filter_append, List.map_singleton,
      List.filter_singleton, h, part, contents]
    exact List.append_nil _

theorem part_insertAll_of_not [DecidableEq K] (t : Table R K key) {p : R → Bool} {rs : List R}
    (h : ∀ r ∈ rs, p r = false) : (t.insertAll rs).part p = t.part p := by
  induction rs generalizing t with
  | nil => rfl
  | cons r rs ih =>
    rw [insertAll_cons, ih _ fun r' hr' => h r' (List.mem_cons_of_mem _ hr')]
    exact part_insertIgnore_of_not t (h r List.mem_cons_self)

/-- A row of the part can only conflict within the part. -/
theorem conflicts_iff_part [DecidableEq K] {t : Table R K key} {p : R → Bool} {r : R}
    (hp : ∀ r r' k, key r = some k → key r' = some k → p r = p r') (hr : p r = true) :
    t.conflicts r = true ↔ ∃ k, key r = some k ∧ ∃ r' ∈ t.part p, key r' = some k := by
  rw [conflicts]
  cases hk : key r with
  | none => simp
  | some k =>
    constructor
    · intro h
      obtain ⟨s, hs⟩ := Option.isSome_iff_exists.mp h
      obtain ⟨hmem, hkey⟩ := lookup_some hs
      refine ⟨k, rfl, s.row, List.mem_filter.mpr ⟨List.mem_map_of_mem hmem, ?_⟩, hkey⟩
      exact (hp s.row r k hkey hk).trans hr
    · rintro ⟨k', hk', r', hr', hkey⟩
      cases hk'
      obtain ⟨s, hmem, rfl⟩ := List.mem_map.mp (List.mem_of_mem_filter hr')
      show (t.lookup k).isSome = true
      rw [lookup_iff.mpr ⟨hmem, hkey⟩]
      rfl

/-- What an insert makes of a part depends on the part. -/
theorem part_insertIgnore_congr [DecidableEq K] {t u : Table R K key} {p : R → Bool}
    (hp : ∀ r r' k, key r = some k → key r' = some k → p r = p r') (h : t.part p = u.part p)
    (r : R) : (t.insertIgnore r).part p = (u.insertIgnore r).part p := by
  cases hr : p r with
  | false => rw [part_insertIgnore_of_not t hr, part_insertIgnore_of_not u hr, h]
  | true =>
    have hconflicts : t.conflicts r = u.conflicts r := by
      rw [Bool.eq_iff_iff, conflicts_iff_part hp hr, conflicts_iff_part hp hr, h]
    cases hfree : t.conflicts r with
    | true =>
      have hfree' : u.conflicts r = true := hconflicts ▸ hfree
      rw [insertIgnore, dif_neg (by rw [hfree]; exact Bool.noConfusion), insertIgnore,
        dif_neg (by rw [hfree']; exact Bool.noConfusion), h]
    | false =>
      rw [part, contents_insertIgnore hfree, part, contents_insertIgnore (hconflicts ▸ hfree),
        List.filter_append, List.filter_append]
      exact congrArg (· ++ _) h

theorem part_insertAll_congr [DecidableEq K] {t u : Table R K key} {p : R → Bool}
    (hp : ∀ r r' k, key r = some k → key r' = some k → p r = p r') (h : t.part p = u.part p)
    (rs : List R) : (t.insertAll rs).part p = (u.insertAll rs).part p := by
  induction rs generalizing t u with
  | nil => exact h
  | cons r rs ih => exact ih (part_insertIgnore_congr hp h r)

theorem part_deleteWhere (t : Table R K key) (p q : R → Bool) :
    (t.deleteWhere q).part p = (t.part p).filter fun r => !q r := by
  rw [part, contents, deleteWhere, part, contents, List.filter_filter, List.filter_map,
    List.filter_map, List.filter_filter]
  refine congrArg (fun q => List.map Stored.row (List.filter q t.rows)) (funext fun s => ?_)
  exact Bool.and_comm _ _

/-- A search for a row of the part. -/
theorem find?_contents (t : Table R K key) {p q : R → Bool} (h : ∀ r, q r = true → p r = true) :
    t.contents.find? q = (t.part p).find? q := by
  rw [part, List.find?_filter]
  refine congrArg (t.contents.find? ·) (funext fun r => ?_)
  rw [Bool.eq_iff_iff, decide_eq_true_iff]
  exact ⟨fun hq => ⟨h r hq, hq⟩, And.right⟩

end Table

/-! ## The first row with a property -/

namespace Table
variable {R K : Type} {key : R → Option K}

def first (t : Table R K key) (p : R → Bool) : Option (Stored R) := t.rows.find? fun s => p s.row

theorem mem_of_first {t : Table R K key} {p : R → Bool} {s : Stored R} (h : t.first p = some s) :
    s ∈ t.rows := List.mem_of_find?_eq_some h

theorem holds_of_first {t : Table R K key} {p : R → Bool} {s : Stored R} (h : t.first p = some s) :
    p s.row = true := List.find?_some (p := fun s : Stored R => p s.row) h

theorem first_isSome {t : Table R K key} {p : R → Bool} :
    (t.first p).isSome = true ↔ ∃ r ∈ t.contents, p r = true := by
  simp [first, contents]

/-- An update of columns that the property does not look at. -/
theorem first_updateId (t : Table R K key) {p : R → Bool} (i : Nat) {f : R → R} (hf)
    (hp : ∀ r, p (f r) = p r) :
    (t.updateId i f hf).first p = (t.first p).map (Stored.updated i f) := by
  have hsame : (fun s : Stored R => p s.row) ∘ Stored.updated i f = fun s => p s.row := by
    funext s
    rw [Function.comp, Stored.updated]
    split
    · exact hp s.row
    · rfl
  rw [first, first, updateId, List.find?_map, hsame]

variable [DecidableEq K]

/-- A new row is the last one. -/
theorem first_insertIgnore {t : Table R K key} {r : R} (h : t.conflicts r = false) (p : R → Bool) :
    (t.insertIgnore r).first p = (t.first p).or (if p r then some ⟨t.nextId, r⟩ else none) := by
  rw [first, first, insertIgnore, dif_pos h, insert, List.find?_append, List.find?_singleton]

end Table

end BlockchainTask.Library.Store

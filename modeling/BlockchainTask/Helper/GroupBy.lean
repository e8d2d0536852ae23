import BlockchainTask.Helper
import Mathlib

/-! # Groups of an array by a key

An object of groups has a property for each key, named by the key's text. The
names that are array indices are listed first and in ascending order, the other
ones in the order they were made. -/
namespace BlockchainTask.Helper.GroupBy
open BlockchainTask.Helper

variable {α : Type}

/-- An object whose properties are arrays, in the order they were made. -/
abbrev Groups (α : Type) : Type := List (String × List α)

def Groups.names (groups : Groups α) : List String := groups.map Prod.fst

def push (groups : Groups α) (name : String) (value : α) : Groups α :=
  if name ∈ groups.names then
    groups.map fun group => if group.1 = name then (group.1, group.2 ++ [value]) else group
  else groups ++ [(name, [value])]

/-- `_.groupBy`. -/
def groupBy (array : List α) (key : α → String) : Groups α :=
  array.foldl (fun groups value => push groups (key value) value) []

/-- `groups[name]`; `_.chunk` takes a missing one for an empty array. -/
def Groups.property (groups : Groups α) (name : String) : List α :=
  ((groups.find? fun group => group.1 = name).map Prod.snd).getD []

def arrayIndex (name : String) : Option ℕ :=
  match name.toNat? with
  | some n => if n.repr = name ∧ n < 2 ^ 32 - 1 then some n else none
  | none => none

/-- `Object.keys`. -/
def objectKeys (groups : Groups α) : List String :=
  ((groups.names.filterMap arrayIndex).insertionSort (· ≤ ·)).map Nat.repr ++
    groups.names.filter fun name => (arrayIndex name).isNone

/-- `Number` of the text of a number. -/
def number (name : String) : ℕ := name.toNat?.getD 0

@[simp] theorem number_repr (n : ℕ) : number n.repr = n := by
  rw [number, Nat.toNat?_repr]
  rfl

/-! ## What the groups are -/

/-- The groups of an array: each name once, with all that has it as its key. -/
structure Grouped (array : List α) (key : α → String) (groups : Groups α) : Prop where
  nodup : groups.names.Nodup
  values : ∀ group ∈ groups, group.2 = array.filter fun value => key value = group.1
  names : ∀ name, name ∈ groups.names ↔ ∃ value ∈ array, key value = name

theorem names_push_of_mem {groups : Groups α} {name : String} (hmem : name ∈ groups.names)
    (value : α) : (push groups name value).names = groups.names := by
  unfold push Groups.names at *
  rw [if_pos hmem, List.map_map]
  refine List.map_congr_left fun group _ => ?_
  simp only [Function.comp]
  split <;> rfl

theorem names_push_of_notMem {groups : Groups α} {name : String} (hmem : name ∉ groups.names)
    (value : α) : (push groups name value).names = groups.names ++ [name] := by
  unfold push
  rw [if_neg hmem]
  exact List.map_append

theorem filter_append_last (array : List α) (key : α → String) (value : α) (name : String) :
    (array ++ [value]).filter (fun v => key v = name) =
      array.filter (fun v => key v = name) ++ if key value = name then [value] else [] := by
  rw [List.filter_append]
  by_cases hname : key value = name
  · simp [hname]
  · simp [hname]

/-- A value whose key has a group is put at the end of it. -/
theorem grouped_push_of_mem {array : List α} {key : α → String} {groups : Groups α}
    (h : Grouped array key groups) {value : α} (hmem : key value ∈ groups.names) :
    Grouped (array ++ [value]) key (push groups (key value) value) := by
  have hnames := names_push_of_mem hmem value
  refine ⟨hnames ▸ h.nodup, fun group hgroup => ?_, fun name => ?_⟩
  · unfold push at hgroup
    rw [if_pos hmem] at hgroup
    obtain ⟨old, hold, rfl⟩ := List.mem_map.mp hgroup
    have hvalues := h.values old hold
    by_cases hname : old.1 = key value
    · rw [if_pos hname, filter_append_last, if_pos hname.symm, hvalues]
    · rw [if_neg hname, filter_append_last, if_neg (Ne.symm hname), List.append_nil]
      exact hvalues
  · rw [hnames, h.names]
    constructor
    · rintro ⟨v, hv, rfl⟩
      exact ⟨v, List.mem_append_left _ hv, rfl⟩
    · rintro ⟨v, hv, rfl⟩
      rcases List.mem_append.mp hv with hv | hv
      · exact ⟨v, hv, rfl⟩
      · rw [List.mem_singleton.mp hv]
        exact (h.names _).mp hmem

/-- One whose key has none makes a group, with nothing else in it. -/
theorem grouped_push_of_notMem {array : List α} {key : α → String} {groups : Groups α}
    (h : Grouped array key groups) {value : α} (hmem : key value ∉ groups.names) :
    Grouped (array ++ [value]) key (push groups (key value) value) := by
  have hnames := names_push_of_notMem hmem value
  refine ⟨?_, fun group hgroup => ?_, fun name => ?_⟩
  · rw [hnames, List.nodup_append]
    refine ⟨h.nodup, List.nodup_singleton _, fun a ha b hb hab => ?_⟩
    rw [List.mem_singleton] at hb
    exact hmem (hb ▸ hab ▸ ha)
  · unfold push at hgroup
    rw [if_neg hmem] at hgroup
    rcases List.mem_append.mp hgroup with hgroup | hgroup
    · have hne : key value ≠ group.1 := by
        intro he
        exact hmem (he ▸ List.mem_map_of_mem hgroup)
      rw [filter_append_last, if_neg hne, List.append_nil]
      exact h.values group hgroup
    · have hnone : array.filter (fun v => key v = key value) = [] := by
        rw [List.filter_eq_nil_iff]
        intro v hv hkey
        exact hmem ((h.names _).mpr ⟨v, hv, by simpa using hkey⟩)
      rw [List.mem_singleton.mp hgroup, filter_append_last, if_pos rfl, hnone, List.nil_append]
  · rw [hnames, List.mem_append, List.mem_singleton, h.names]
    constructor
    · rintro (⟨v, hv, rfl⟩ | rfl)
      · exact ⟨v, List.mem_append_left _ hv, rfl⟩
      · exact ⟨value, by simp, rfl⟩
    · rintro ⟨v, hv, rfl⟩
      rcases List.mem_append.mp hv with hv | hv
      · exact Or.inl ⟨v, hv, rfl⟩
      · exact Or.inr (by rw [List.mem_singleton.mp hv])

theorem grouped_push {array : List α} {key : α → String} {groups : Groups α}
    (h : Grouped array key groups) (value : α) :
    Grouped (array ++ [value]) key (push groups (key value) value) := by
  by_cases hmem : key value ∈ groups.names
  · exact grouped_push_of_mem h hmem
  · exact grouped_push_of_notMem h hmem

theorem grouped_groupBy (array : List α) (key : α → String) :
    Grouped array key (groupBy array key) := by
  suffices h : ∀ rest done groups, Grouped done key groups → Grouped (done ++ rest) key
      (rest.foldl (fun groups value => push groups (key value) value) groups) by
    have hempty : Grouped [] key ([] : Groups α) := by
      constructor <;> simp [Groups.names]
    exact h array [] [] hempty
  intro rest
  induction rest with
  | nil =>
    intro done groups h
    simpa using h
  | cons value rest ih =>
    intro done groups h
    have hnext := ih (done ++ [value]) _ (grouped_push h value)
    simpa using hnext

/-! ## Every value in one group -/

theorem property_groupBy {array : List α} {key : α → String} {name : String}
    (h : name ∈ (groupBy array key).names) :
    (groupBy array key).property name = array.filter fun value => key value = name := by
  have hgrouped := grouped_groupBy array key
  unfold Groups.property
  cases hfind : (groupBy array key).find? fun group => group.1 = name with
  | none =>
    obtain ⟨group, hgroup, hname⟩ := List.mem_map.mp h
    have hnone := List.find?_eq_none.mp hfind group hgroup
    exact absurd (decide_eq_true hname) hnone
  | some group =>
    have hname : group.1 = name := by simpa using List.find?_some hfind
    rw [← hname]
    exact hgrouped.values group (List.mem_of_find?_eq_some hfind)

theorem arrayIndex_repr {name : String} {n : ℕ} (h : arrayIndex name = some n) : n.repr = name := by
  unfold arrayIndex at h
  cases hnat : name.toNat? with
  | none =>
    rw [hnat] at h
    cases h
  | some m =>
    rw [hnat] at h
    simp only at h
    by_cases hindex : m.repr = name ∧ m < 2 ^ 32 - 1
    · rw [if_pos hindex] at h
      rw [← Option.some.inj h]
      exact hindex.1
    · rw [if_neg hindex] at h
      cases h

/-- The keys of an object are its names, in another order. -/
theorem objectKeys_perm (groups : Groups α) : (objectKeys groups).Perm groups.names := by
  have hindices : ((groups.names.filterMap arrayIndex).insertionSort (· ≤ ·)).map Nat.repr |>.Perm
      (groups.names.filter fun name => (arrayIndex name).isSome) := by
    refine ((List.perm_insertionSort _ _).map Nat.repr).trans ?_
    induction groups.names with
    | nil => exact .nil
    | cons name names ih =>
      cases hindex : arrayIndex name with
      | none => simpa [hindex] using ih
      | some n =>
        rw [List.filterMap_cons_some hindex, List.map_cons, arrayIndex_repr hindex,
          List.filter_cons_of_pos (by rw [hindex]; rfl)]
        exact ih.cons name
  have hsplit := List.filter_append_perm (fun name => (arrayIndex name).isSome) groups.names
  refine (hindices.append_right _).trans ?_
  simpa using hsplit

/-- Values split by distinct names that cover their keys. -/
theorem filters_perm {key : α → String} {names : List String} (hnodup : names.Nodup) :
    ∀ {array : List α}, (∀ value ∈ array, key value ∈ names) →
      (names.flatMap fun name => array.filter fun value => key value = name).Perm array := by
  induction names with
  | nil =>
    intro array h
    have hnil : array = [] := List.eq_nil_iff_forall_not_mem.mpr fun value hv =>
      List.not_mem_nil (h value hv)
    rw [hnil]
    exact .nil
  | cons name names ih =>
    intro array h
    obtain ⟨hname, hnodup⟩ := List.nodup_cons.mp hnodup
    rw [List.flatMap_cons]
    have hsplit := List.filter_append_perm (fun value => decide (key value = name)) array
    refine List.Perm.trans (List.Perm.append_left _ ?_) hsplit
    have hcovered : ∀ value ∈ array.filter (fun value => !decide (key value = name)),
        key value ∈ names := by
      intro value hvalue
      obtain ⟨hmem, hne⟩ := List.mem_filter.mp hvalue
      rcases List.mem_cons.mp (h value hmem) with he | he
      · simp [he] at hne
      · exact he
    have hrest := ih hnodup hcovered
    refine List.Perm.trans (List.Perm.of_eq ?_) hrest
    refine List.flatMap_congr fun other hother => ?_
    rw [List.filter_filter]
    refine List.filter_congr fun value _ => ?_
    by_cases hkey : key value = other
    · have hne : other ≠ name := fun he => hname (he ▸ hother)
      simp [hkey, hne]
    · simp [hkey]

/-- **Partition.** The groups of all keys together are the array. -/
theorem groups_perm (array : List α) (key : α → String) :
    ((objectKeys (groupBy array key)).flatMap (groupBy array key).property).Perm array := by
  have hgrouped := grouped_groupBy array key
  refine ((objectKeys_perm _).flatMap_right _).trans ?_
  rw [List.flatMap_congr fun name hname => property_groupBy hname]
  exact filters_perm hgrouped.nodup fun value hvalue => (hgrouped.names _).mpr ⟨value, hvalue, rfl⟩

end BlockchainTask.Helper.GroupBy

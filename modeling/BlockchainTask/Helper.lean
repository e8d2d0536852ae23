import Mathlib.Data.List.Range
import Mathlib.Data.List.Dedup

/-! # Helpers

The helper functions of `libs/helper` that the jobs share: letter case,
sequence numbers, the end of the next chunk and the constants. -/
namespace BlockchainTask.Helper

variable {α : Type}

def ZERO_ADDRESS : String := "0x0000000000000000000000000000000000000000"

def UNKNOWN_STRING : String := "UNKNOWN"

def UNKNOWN_UINT256 : Nat := 0

/-- `toLowerCase`, for the ASCII texts that addresses are. -/
def toLowerCase (s : String) : String := String.ofList (s.toList.map Char.toLower)

theorem toLower_toLower (c : Char) : c.toLower.toLower = c.toLower := by
  have h : ¬ (c.toLower.val ≥ 'A'.val ∧ c.toLower.val ≤ 'Z'.val) := by
    unfold Char.toLower
    split
    · rename_i h
      simp only [ge_iff_le, UInt32.le_iff_toNat_le, UInt32.toNat_add] at h ⊢
      grind
    · assumption
  exact dif_neg h

@[simp] theorem toLowerCase_toLowerCase (s : String) :
    toLowerCase (toLowerCase s) = toLowerCase s := by
  simp only [toLowerCase, String.toList_ofList, List.map_map, Function.comp_def, toLower_toLower]

theorem toLowerCase_ne_empty {s : String} (h : s ≠ "") : toLowerCase s ≠ "" := by
  intro he
  have hlist := congrArg String.toList he
  simp only [toLowerCase, String.toList_ofList, String.toList_empty, List.map_eq_nil_iff] at hlist
  exact h (String.toList_eq_nil_iff.mp hlist)

/-- Equal up to letter case: how the database's collation compares texts. -/
def sameText (s t : String) : Prop := toLowerCase s = toLowerCase t

instance (s t : String) : Decidable (sameText s t) :=
  inferInstanceAs (Decidable (toLowerCase s = toLowerCase t))

def fillSequenceNumber (number start : Nat) : List Nat := List.range' start number

theorem mem_fillSequenceNumber {s e b : Nat} :
    b ∈ fillSequenceNumber (e - s) s ↔ s ≤ b ∧ b < e := by
  simp only [fillSequenceNumber, List.mem_range'_1]
  omega

/-- The end of a run's window: at most `chunkSize` after its start. -/
def chunkEnd (chunkSize start total : Nat) : Nat :=
  if total - start > chunkSize then start + chunkSize else total

theorem chunkEnd_bounds {chunkSize start total : Nat} (h : start < total) (hc : 0 < chunkSize) :
    start < chunkEnd chunkSize start total ∧ chunkEnd chunkSize start total ≤ total ∧
      chunkEnd chunkSize start total ≤ start + chunkSize := by
  unfold chunkEnd
  split <;> omega

/-- Pieces of the given size, the last one shorter. The bound on their number is
the length of the array. -/
def splitWithin (chunkSize : Nat) : Nat → List α → List (List α)
  | 0, _ => []
  | _ + 1, [] => []
  | bound + 1, x :: xs =>
    (x :: xs).take chunkSize :: splitWithin chunkSize bound ((x :: xs).drop chunkSize)

/-- `_.chunk`. -/
def toSplitWithChunkSize (array : List α) (chunkSize : Nat) : List (List α) :=
  if chunkSize = 0 then [] else splitWithin chunkSize array.length array

/-- What was flattened from pieces of the chunk size is split into them again. -/
theorem toSplitWithChunkSize_flatten {chunkSize : Nat} (hsize : 0 < chunkSize)
    {pieces : List (List α)} (h : ∀ piece ∈ pieces, piece.length = chunkSize) :
    toSplitWithChunkSize pieces.flatten chunkSize = pieces := by
  suffices hs : ∀ bound, pieces.flatten.length ≤ bound →
      splitWithin chunkSize bound pieces.flatten = pieces by
    rw [toSplitWithChunkSize, if_neg (by omega)]
    exact hs _ (Nat.le_refl _)
  induction pieces with
  | nil =>
    intro bound _
    cases bound <;> rfl
  | cons piece pieces ih =>
    intro bound hbound
    have hpiece : piece.length = chunkSize := h piece List.mem_cons_self
    have hrest := ih fun q hq => h q (List.mem_cons_of_mem _ hq)
    rw [List.flatten_cons] at hbound ⊢
    rw [List.length_append] at hbound
    cases bound with
    | zero => omega
    | succ bound =>
      cases hp : piece with
      | nil =>
        rw [hp, List.length_nil] at hpiece
        omega
      | cons x xs =>
        have htake : (piece ++ pieces.flatten).take chunkSize = piece := by
          rw [← hpiece, List.take_left]
        have hdrop : (piece ++ pieces.flatten).drop chunkSize = pieces.flatten := by
          rw [← hpiece, List.drop_left]
        rw [hp] at htake hdrop
        rw [List.cons_append] at htake hdrop ⊢
        rw [splitWithin, htake, hdrop, hrest bound (by omega)]

theorem flatten_splitWithin {chunkSize : Nat} (hsize : 0 < chunkSize) (bound : Nat) :
    ∀ array : List α, array.length ≤ bound → (splitWithin chunkSize bound array).flatten = array := by
  induction bound with
  | zero =>
    intro array hbound
    rw [List.eq_nil_of_length_eq_zero (by omega : array.length = 0)]
    rfl
  | succ bound ih =>
    intro array hbound
    cases array with
    | nil => rfl
    | cons x xs =>
      have hrest : ((x :: xs).drop chunkSize).length ≤ bound := by
        rw [List.length_drop, List.length_cons]
        rw [List.length_cons] at hbound
        omega
      rw [splitWithin, List.flatten_cons, ih _ hrest, List.take_append_drop]

/-- The pieces of an array, one after another, are the array. -/
theorem flatten_toSplitWithChunkSize {chunkSize : Nat} (hsize : 0 < chunkSize) (array : List α) :
    (toSplitWithChunkSize array chunkSize).flatten = array := by
  rw [toSplitWithChunkSize, if_neg (by omega)]
  exact flatten_splitWithin hsize array.length array (Nat.le_refl _)

theorem length_of_mem_splitWithin {chunkSize : Nat} (bound : Nat) :
    ∀ {array piece : List α}, piece ∈ splitWithin chunkSize bound array →
      piece.length ≤ chunkSize := by
  induction bound with
  | zero =>
    intro array piece h
    exact absurd h List.not_mem_nil
  | succ bound ih =>
    intro array piece h
    cases array with
    | nil => exact absurd h List.not_mem_nil
    | cons x xs =>
      rcases List.mem_cons.mp h with rfl | h
      · exact List.length_take_le chunkSize (x :: xs)
      · exact ih h

theorem length_of_mem_toSplitWithChunkSize {chunkSize : Nat} {array piece : List α}
    (h : piece ∈ toSplitWithChunkSize array chunkSize) : piece.length ≤ chunkSize := by
  unfold toSplitWithChunkSize at h
  split at h
  · exact absurd h List.not_mem_nil
  · exact length_of_mem_splitWithin _ h

theorem getElem?_splitWithin {chunkSize : Nat} (bound : Nat) :
    ∀ {array piece : List α} {i : Nat}, (splitWithin chunkSize bound array)[i]? = some piece →
      piece = (array.drop (i * chunkSize)).take chunkSize := by
  induction bound with
  | zero =>
    intro array piece i h
    cases h
  | succ bound ih =>
    intro array piece i h
    cases array with
    | nil => cases h
    | cons x xs =>
      rw [splitWithin] at h
      cases i with
      | zero =>
        rw [Nat.zero_mul, List.drop_zero]
        exact (Option.some.inj h).symm
      | succ i =>
        rw [List.getElem?_cons_succ] at h
        rw [ih h, List.drop_drop, Nat.succ_mul, Nat.add_comm]

/-- Where a piece lies in the array. -/
theorem getElem?_toSplitWithChunkSize {chunkSize i : Nat} {array piece : List α}
    (h : (toSplitWithChunkSize array chunkSize)[i]? = some piece) :
    piece = (array.drop (i * chunkSize)).take chunkSize := by
  unfold toSplitWithChunkSize at h
  split at h
  · cases h
  · exact getElem?_splitWithin _ h

/-- `_.zip`: as long as the longer array, with nothing where the other one ends. -/
def zip {β : Type} (array : List α) (otherArray : List β) : List (Option α × Option β) :=
  (List.range (max array.length otherArray.length)).map fun i => (array[i]?, otherArray[i]?)

/-- Arrays of one length. -/
theorem zip_of_length_eq {β : Type} {array : List α} {otherArray : List β}
    (h : otherArray.length = array.length) :
    zip array otherArray = (array.zip otherArray).map fun p => (some p.1, some p.2) := by
  refine List.ext_getElem (by simp [zip, h]) fun i hi _ => ?_
  have hbound : i < array.length := by simpa [zip, h] using hi
  simp [zip, hbound, h ▸ hbound]

/-- The values of an array without those of another, all in lower case. A null
value has no lower case. -/
def removeStringValues (array removeArray : List (Option String)) : List (Option String) :=
  let lowerArray := array.map fun value => value.map toLowerCase
  let lowerRemoveArray := removeArray.map fun value => value.map toLowerCase
  if lowerRemoveArray.length = 0 then lowerArray
  else lowerArray.filter fun value => !lowerRemoveArray.contains value

theorem mem_removeStringValues {array removeArray : List (Option String)} {value : Option String}
    (h : value ∈ removeStringValues array removeArray) :
    (∃ v ∈ array, value = v.map toLowerCase) ∧
      ∀ r ∈ removeArray, value ≠ r.map toLowerCase := by
  simp only [removeStringValues] at h
  split at h
  · rename_i hempty
    rw [List.length_map, List.length_eq_zero_iff] at hempty
    obtain ⟨v, hv, rfl⟩ := List.mem_map.mp h
    exact ⟨⟨v, hv, rfl⟩, by simp [hempty]⟩
  · obtain ⟨hmem, hnot⟩ := List.mem_filter.mp h
    obtain ⟨v, hv, rfl⟩ := List.mem_map.mp hmem
    refine ⟨⟨v, hv, rfl⟩, fun r hr heq => ?_⟩
    have hin : v.map toLowerCase ∈ removeArray.map fun value => value.map toLowerCase :=
      List.mem_map.mpr ⟨r, hr, heq.symm⟩
    simp [hin] at hnot

end BlockchainTask.Helper

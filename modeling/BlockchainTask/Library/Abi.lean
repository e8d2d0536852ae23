import Mathlib.Algebra.Group.Nat.Defs
import Mathlib.Algebra.Group.Int.Defs
import Mathlib.Data.List.Forall2

/-! # ABI-encoded bytes

The decoders of `abi.decode` for bytes in memory. A value is a word of 32 bytes,
the highest byte first, and a text lies behind the head, at an offset that the
head holds, with its length before it. A decoder fails where the compiled code
reverts: on a head that is not whole, on a word outside of its type's range, and
on an offset or a length that leads out of the bytes. Bytes that are not reached
are not looked at. -/
namespace BlockchainTask.Library.Abi

abbrev Bytes : Type := List UInt8

/-- The text of some bytes, if they are UTF-8. -/
def textOf (bytes : Bytes) : Option String := String.fromUTF8? ⟨bytes.toArray⟩

def natOfBytes (bytes : Bytes) : ℕ := bytes.foldl (fun n byte => n * 256 + byte.toNat) 0

/-- A number as a word. -/
def encodeWord (n : ℕ) : Bytes := (List.range 32).map fun i => UInt8.ofNat (n / 256 ^ (31 - i))

def wordAt (data : Bytes) (offset : ℕ) : ℕ := natOfBytes ((data.drop offset).take 32)

/-- A word in the range of a type of so many bits. -/
def uintAt (bits : ℕ) (data : Bytes) (offset : ℕ) : Option ℕ :=
  if wordAt data offset < 2 ^ bits then some (wordAt data offset) else none

/-- `abi.decode(data, (uint…, uint…))`. -/
def decodeUints (bits : List ℕ) (data : Bytes) : Option (List ℕ) :=
  if data.length < 32 * bits.length then none
  else bits.zipIdx.mapM fun p => uintAt p.1 data (32 * p.2)

/-- `abi.decode(data, (uint…))`. -/
def decodeUint (bits : ℕ) (data : Bytes) : Option ℕ :=
  if data.length < 32 then none else uintAt bits data 0

/-- The greatest offset and length that are followed. -/
def MAX_OFFSET : ℕ := 2 ^ 64 - 1

/-- The bytes of a text whose length is at an offset. -/
def textAt (data : Bytes) (offset : ℕ) : Option Bytes :=
  if data.length < offset + 32 then none
  else
    let length := wordAt data offset
    if MAX_OFFSET < length ∨ data.length < offset + 32 + length then none
    else some ((data.drop (offset + 32)).take length)

/-- The words of an array whose length is at an offset. -/
def wordsAt (data : Bytes) (offset : ℕ) : Option (List ℕ) :=
  if data.length < offset + 32 then none
  else
    let length := wordAt data offset
    if data.length < offset + 32 + 32 * length then none
    else some ((List.range length).map fun i => wordAt data (offset + 32 + 32 * i))

/-- `abi.decode(data, (string))`. -/
def decodeString (data : Bytes) : Option Bytes :=
  if data.length < 32 then none
  else if MAX_OFFSET < wordAt data 0 then none
  else textAt data (wordAt data 0)

@[simp] theorem decodeUint_nil (bits : ℕ) : decodeUint bits [] = none := rfl

/-- A text is decoded exactly when its head, its length and all of its bytes are
there. -/
theorem decodeString_isSome_iff {data : Bytes} :
    (decodeString data).isSome = true ↔
      32 ≤ data.length ∧ wordAt data 0 ≤ MAX_OFFSET ∧
        wordAt data (wordAt data 0) ≤ MAX_OFFSET ∧
          wordAt data 0 + 32 + wordAt data (wordAt data 0) ≤ data.length := by
  unfold decodeString textAt
  constructor
  · intro h
    split at h
    · cases h
    · split at h
      · cases h
      · split at h
        · cases h
        · simp only at h
          split at h
          · cases h
          · omega
  · intro h
    obtain ⟨hhead, hoffset, hlength, hall⟩ := h
    rw [if_neg (by omega), if_neg (by omega), if_neg (by omega)]
    simp only
    rw [if_neg (by omega)]
    rfl

/-- A single word is a text only where it is zero: the empty text, at offset
zero. -/
theorem decodeString_word {data : Bytes} (h : data.length = 32) :
    (decodeString data).isSome = true ↔ wordAt data 0 = 0 := by
  rw [decodeString_isSome_iff, h]
  constructor
  · intro hsome
    omega
  · intro hzero
    rw [hzero, hzero]
    unfold MAX_OFFSET
    omega

/-! ## Encoding and decoding -/

theorem foldl_natOfBytes (bytes : Bytes) (n : ℕ) :
    bytes.foldl (fun n byte => n * 256 + byte.toNat) n =
      n * 256 ^ bytes.length + natOfBytes bytes := by
  induction bytes generalizing n with
  | nil => simp [natOfBytes]
  | cons byte bytes ih =>
    rw [natOfBytes, List.foldl_cons, List.foldl_cons, ih, ih (0 * 256 + byte.toNat),
      List.length_cons, Nat.pow_succ]
    grind

theorem natOfBytes_append (xs ys : Bytes) :
    natOfBytes (xs ++ ys) = natOfBytes xs * 256 ^ ys.length + natOfBytes ys := by
  rw [natOfBytes, List.foldl_append, foldl_natOfBytes]
  rfl

/-- The lowest `count` bytes of a number, the highest one first. -/
def bytesOf (count n : ℕ) : Bytes :=
  (List.range count).map fun i => UInt8.ofNat (n / 256 ^ (count - 1 - i))

theorem bytesOf_succ (count n : ℕ) :
    bytesOf (count + 1) n = bytesOf count (n / 256) ++ [UInt8.ofNat n] := by
  rw [bytesOf, List.range_succ, List.map_append, List.map_singleton]
  refine congrArg₂ (· ++ ·) (List.map_congr_left fun i hi => ?_) (by simp)
  have hlt := List.mem_range.mp hi
  have hpow : 256 ^ (count + 1 - 1 - i) = 256 * 256 ^ (count - 1 - i) := by
    rw [← Nat.pow_succ']
    congr 1
    omega
  rw [hpow, Nat.div_div_eq_div_mul]

theorem natOfBytes_bytesOf (count n : ℕ) : natOfBytes (bytesOf count n) = n % 256 ^ count := by
  induction count generalizing n with
  | zero => simp [bytesOf, natOfBytes, Nat.mod_one]
  | succ count ih =>
    have hlast : natOfBytes [UInt8.ofNat n] = n % 256 := by simp [natOfBytes]
    rw [bytesOf_succ, natOfBytes_append, ih, hlast, List.length_singleton, Nat.pow_one,
      Nat.pow_succ', Nat.mod_mul, Nat.mul_comm, Nat.add_comm]

@[simp] theorem length_encodeWord (n : ℕ) : (encodeWord n).length = 32 := by
  rw [encodeWord, List.length_map, List.length_range]

theorem natOfBytes_encodeWord {n : ℕ} (h : n < 2 ^ 256) : natOfBytes (encodeWord n) = n := by
  have hbytes : natOfBytes (encodeWord n) = n % 2 ^ 256 := natOfBytes_bytesOf 32 n
  rw [hbytes, Nat.mod_eq_of_lt h]

/-- A word is read behind whatever stands before it. -/
theorem wordAt_append (before data : Bytes) (offset : ℕ) :
    wordAt (before ++ data) (before.length + offset) = wordAt data offset := by
  rw [wordAt, List.drop_length_add_append]
  rfl

theorem wordAt_encodeWord {n : ℕ} (h : n < 2 ^ 256) (rest : Bytes) :
    wordAt (encodeWord n ++ rest) 0 = n := by
  rw [wordAt, List.drop_zero, List.take_left' (length_encodeWord n), natOfBytes_encodeWord h]

/-- A number is decoded where its type holds it. -/
theorem decodeUint_encodeWord {bits n : ℕ} (h : n < 2 ^ 256) (hbits : n < 2 ^ bits) (rest : Bytes) :
    decodeUint bits (encodeWord n ++ rest) = some n := by
  have hlength : ¬ (encodeWord n ++ rest).length < 32 := by
    rw [List.length_append, length_encodeWord]
    omega
  rw [decodeUint, if_neg hlength, uintAt, wordAt_encodeWord h, if_pos hbits]

/-- A text as the only value that a function returns: the offset of its length, its
length, and its bytes filled up to whole words. -/
def encodeString (text : Bytes) : Bytes :=
  encodeWord 32 ++ (encodeWord text.length ++ (text ++
    List.replicate ((32 - text.length % 32) % 32) 0))

theorem textAt_encoded {text : Bytes} (h : text.length ≤ MAX_OFFSET) (before rest : Bytes) :
    textAt (before ++ (encodeWord text.length ++ (text ++ rest))) before.length = some text := by
  have hword : wordAt (before ++ (encodeWord text.length ++ (text ++ rest))) before.length =
      text.length := by
    have hoffset := wordAt_append before (encodeWord text.length ++ (text ++ rest)) 0
    rw [Nat.add_zero] at hoffset
    rw [hoffset, wordAt_encodeWord (Nat.lt_of_le_of_lt h (by unfold MAX_OFFSET; omega))]
  have hlength : (before ++ (encodeWord text.length ++ (text ++ rest))).length =
      before.length + 32 + text.length + rest.length := by
    simp only [List.length_append, length_encodeWord]
    omega
  have hdrop : (before ++ (encodeWord text.length ++ (text ++ rest))).drop (before.length + 32) =
      text ++ rest := by
    rw [List.drop_length_add_append, List.drop_left' (length_encodeWord _)]
  rw [textAt, if_neg (by omega)]
  simp only [hword]
  rw [if_neg (by omega), hdrop, List.take_left' rfl]

/-- **Round trip of a text.** -/
theorem decodeString_encodeString {text : Bytes} (h : text.length ≤ MAX_OFFSET) :
    decodeString (encodeString text) = some text := by
  have hoffset : wordAt (encodeString text) 0 = 32 := wordAt_encodeWord (by decide) _
  have hlength : ¬ (encodeString text).length < 32 := by
    rw [encodeString, List.length_append, length_encodeWord]
    omega
  have hfollowed : ¬ MAX_OFFSET < wordAt (encodeString text) 0 := by
    rw [hoffset]
    decide
  rw [decodeString, if_neg hlength, if_neg hfollowed, hoffset]
  have htext := textAt_encoded h (encodeWord 32)
    (List.replicate ((32 - text.length % 32) % 32) 0)
  rw [length_encodeWord] at htext
  exact htext

theorem encodeString_ne_nil (text : Bytes) : encodeString text ≠ [] := by
  intro h
  have hlength := congrArg List.length h
  rw [encodeString, List.length_append, length_encodeWord] at hlength
  simp at hlength

/-- Several words, as a function returns them. -/
def encodeWords (words : List ℕ) : Bytes := words.flatMap encodeWord

@[simp] theorem length_encodeWords (words : List ℕ) :
    (encodeWords words).length = 32 * words.length := by
  induction words with
  | nil => rfl
  | cons n words ih =>
    rw [encodeWords, List.flatMap_cons, List.length_append, length_encodeWord, List.length_cons]
    rw [encodeWords] at ih
    omega

theorem wordAt_encodeWords {words : List ℕ} {i n : ℕ} (hn : words[i]? = some n) (h : n < 2 ^ 256) :
    wordAt (encodeWords words) (32 * i) = n := by
  obtain ⟨hi, rfl⟩ := List.getElem?_eq_some_iff.mp hn
  have hsplit : encodeWords words = encodeWords (words.take i) ++
      (encodeWord words[i] ++ encodeWords (words.drop (i + 1))) := by
    rw [encodeWords, encodeWords, encodeWords, ← List.flatMap_cons, ← List.flatMap_append,
      List.getElem_cons_drop, List.take_append_drop]
  have hbefore : (encodeWords (words.take i)).length = 32 * i := by
    rw [length_encodeWords, List.length_take, Nat.min_eq_left (Nat.le_of_lt hi)]
  have hread := wordAt_append (encodeWords (words.take i))
    (encodeWord words[i] ++ encodeWords (words.drop (i + 1))) 0
  rw [hbefore] at hread
  rw [hsplit]
  exact hread.trans (wordAt_encodeWord h _)

/-- **Round trip of several numbers**, each in the range of its type. -/
theorem decodeUints_encodeWords {bits words : List ℕ} (hbits : ∀ b ∈ bits, b ≤ 256)
    (h : List.Forall₂ (fun b n => n < 2 ^ b) bits words) :
    decodeUints bits (encodeWords words) = some words := by
  rw [decodeUints, if_neg (by rw [length_encodeWords, h.length_eq]; omega)]
  have hread : ∀ (i b n : ℕ), bits[i]? = some b → words[i]? = some n →
      uintAt b (encodeWords words) (32 * i) = some n := by
    intro i b n hb hn
    obtain ⟨hi, rfl⟩ := List.getElem?_eq_some_iff.mp hb
    obtain ⟨hi', rfl⟩ := List.getElem?_eq_some_iff.mp hn
    have hrange : words[i] < 2 ^ bits[i] := h.get hi hi'
    have hword : words[i] < 2 ^ 256 :=
      Nat.lt_of_lt_of_le hrange (Nat.pow_le_pow_right (by omega) (hbits _ (List.getElem_mem hi)))
    rw [uintAt, wordAt_encodeWords hn hword, if_pos hrange]
  have hall : bits.zipIdx.map (fun p => uintAt p.1 (encodeWords words) (32 * p.2)) =
      words.map some := by
    refine List.ext_getElem (by simp [h.length_eq]) fun i hi hi' => ?_
    simp only [List.getElem_map, List.getElem_zipIdx, Nat.zero_add]
    rw [List.length_map] at hi'
    rw [List.length_map, List.length_zipIdx] at hi
    exact hread i _ _ (List.getElem?_eq_getElem hi) (List.getElem?_eq_getElem hi')
  have hmap : bits.zipIdx.mapM (fun p => uintAt p.1 (encodeWords words) (32 * p.2)) =
      (words.map some).mapM id := by
    rw [← hall, List.mapM_map]
    rfl
  rw [hmap, List.mapM_map]
  exact (List.mapM_pure (f := id)).trans (congrArg some (List.map_id _))

/-- A signed number as the word of its two's complement. -/
def wordOfInt (n : ℤ) : ℕ := (n % 2 ^ 256).toNat

theorem wordOfInt_lt (n : ℤ) : wordOfInt n < 2 ^ 256 := by
  have hnonneg : 0 ≤ n % 2 ^ 256 := Int.emod_nonneg n (by decide)
  have hlt : n % 2 ^ 256 < 2 ^ 256 := Int.emod_lt_of_pos n (by decide)
  unfold wordOfInt
  omega

theorem wordOfInt_of_nonneg {n : ℤ} (h : 0 ≤ n) (hlt : n < 2 ^ 255) : (wordOfInt n : ℤ) = n := by
  have hmod : n % 2 ^ 256 = n := Int.emod_eq_of_lt h (by omega)
  rw [wordOfInt, hmod, Int.toNat_of_nonneg h]

/-- A negative number is read as one of the greatest. -/
theorem wordOfInt_of_neg {n : ℤ} (h : n < 0) (hle : -2 ^ 255 ≤ n) :
    (wordOfInt n : ℤ) = 2 ^ 256 + n := by
  have hmod : n % 2 ^ 256 = 2 ^ 256 + n := by
    rw [← Int.add_emod_left (2 ^ 256) n]
    exact Int.emod_eq_of_lt (by omega) (by omega)
  rw [wordOfInt, hmod, Int.toNat_of_nonneg (by omega)]

theorem encodeWord_ne_nil (n : ℕ) : encodeWord n ≠ [] := by
  intro h
  have hlength := congrArg List.length h
  rw [length_encodeWord] at hlength
  cases hlength

end BlockchainTask.Library.Abi

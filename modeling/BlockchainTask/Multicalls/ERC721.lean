import BlockchainTask.Multicalls.BatchSafety

/-! # NF tokens in the batch contract

The part of `MultiCall.sol` that reads NF tokens by their indexes. The owner and the
URI of a token have defaults. Its id has none: an index that the collection does not
answer reverts the batch. -/
namespace BlockchainTask.Multicalls.ERC721
open BlockchainTask.Library.Abi BlockchainTask.Library.Effect BlockchainTask.Library.IndexedLoop
open BlockchainTask.Multicalls.MultiCall (Address Chain UNKNOWN_ADDRESS UNKNOWN_STRING UNKNOWN_UINT
  abiDecode isEmptyBytes safeDecode)
open BlockchainTask.Multicalls.BatchSafety

inductive Revert where
  /-- `"invalid index"`. -/
  | invalidIndex
  | other (revert : MultiCall.Revert)

structure ERC721Info where
  id : ℕ
  owner : Address
  tokenURI : Bytes
  deriving DecidableEq

section
variable (chain : Chain) (token : Address)

def safeERC721OwnerOf (id : ℕ) : Except MultiCall.Revert Address :=
  safeDecode (decodeUint 160) UNKNOWN_ADDRESS (chain.staticcall token ⟨0x6352211e, [id]⟩)

def safeERC721TokenURI (id : ℕ) : Except MultiCall.Revert Bytes :=
  safeDecode decodeString UNKNOWN_STRING (chain.staticcall token ⟨0xc87b56dd, [id]⟩)

def safeERC721BalanceOf (holder : Address) : Except MultiCall.Revert ℕ :=
  safeDecode (decodeUint 256) UNKNOWN_UINT (chain.staticcall token ⟨0x70a08231, [holder]⟩)

def safeERC721TokenByIndex (index : ℕ) : Except Revert ℕ :=
  let returned := chain.staticcall token ⟨0x4f6ccce7, [index]⟩
  if returned.success && !isEmptyBytes returned.data then
    (abiDecode (decodeUint 256) returned.data).mapError .other
  else .error .invalidIndex

def getSafeERC721Infos (index : ℕ) : Except Revert ERC721Info := do
  let id ← safeERC721TokenByIndex chain token index
  let owner ← (safeERC721OwnerOf chain token id).mapError .other
  let tokenURI ← (safeERC721TokenURI chain token id).mapError .other
  pure ⟨id, owner, tokenURI⟩

end

def getBatchERC721Infos (chain : ℕ → Chain) (token : Address) (indexes : List ℕ) :
    Except Revert (List ERC721Info) :=
  forIndex (assign (.other .outOfBounds)
    (fun i index => getSafeERC721Infos (chain i) token index) id) 0 indexes
    (List.replicate indexes.length ⟨0, 0, []⟩)

/-! ## One token -/

section
variable {chain : Chain} {token : Address} {index : ℕ}

/-- The collection answers the index with an id. -/
structure Indexed (chain : Chain) (token : Address) (index id : ℕ) : Prop where
  success : (chain.staticcall token ⟨0x4f6ccce7, [index]⟩).success = true
  decodes : decodeUint 256 (chain.staticcall token ⟨0x4f6ccce7, [index]⟩).data = some id

/-- What the token with an id should be reported as. -/
def infoOf (chain : Chain) (token : Address) (id : ℕ) : ERC721Info :=
  ⟨id, field (decodeUint 160) UNKNOWN_ADDRESS (chain.staticcall token ⟨0x6352211e, [id]⟩),
    field decodeString UNKNOWN_STRING (chain.staticcall token ⟨0xc87b56dd, [id]⟩)⟩

/-- The info at an index: that of the id the collection has there. -/
structure InfoAt (chain : Chain) (token : Address) (index : ℕ) (info : ERC721Info) : Prop where
  indexed : Indexed chain token index info.id
  owner : Decodes (decodeUint 160) (chain.staticcall token ⟨0x6352211e, [info.id]⟩)
  tokenURI : Decodes decodeString (chain.staticcall token ⟨0xc87b56dd, [info.id]⟩)
  own : info = infoOf chain token info.id

theorem mapError_eq_ok_iff {ε ε' α : Type} {f : ε → ε'} {x : Except ε α} {a : α} :
    x.mapError f = .ok a ↔ x = .ok a := by
  cases x with
  | error e => simp [Except.mapError]
  | ok b => simp [Except.mapError]

theorem tokenByIndex_eq_ok_iff {id : ℕ} :
    safeERC721TokenByIndex chain token index = .ok id ↔ Indexed chain token index id := by
  unfold safeERC721TokenByIndex
  simp only
  constructor
  · intro h
    split at h
    · rename_i hchecked
      exact ⟨(Bool.and_eq_true_iff.mp hchecked).1,
        abiDecode_eq_ok_iff.mp (mapError_eq_ok_iff.mp h)⟩
    · cases h
  · intro h
    have hbytes : (chain.staticcall token ⟨0x4f6ccce7, [index]⟩).data ≠ [] := by
      intro hempty
      have hdecodes := h.decodes
      rw [hempty] at hdecodes
      cases hdecodes
    have hchecked : ((chain.staticcall token ⟨0x4f6ccce7, [index]⟩).success &&
        !isEmptyBytes (chain.staticcall token ⟨0x4f6ccce7, [index]⟩).data) = true := by
      rw [h.success, Bool.true_and, Bool.not_eq_true', ← Bool.not_eq_true, isEmptyBytes_iff]
      exact hbytes
    rw [if_pos hchecked, mapError_eq_ok_iff, abiDecode_eq_ok_iff]
    exact h.decodes

theorem getSafeERC721Infos_eq_ok_iff {info : ERC721Info} :
    getSafeERC721Infos chain token index = .ok info ↔ InfoAt chain token index info := by
  unfold getSafeERC721Infos
  simp only [Eff.except_bind_eq_ok, tokenByIndex_eq_ok_iff, mapError_eq_ok_iff, safeERC721OwnerOf,
    safeERC721TokenURI, safeDecode_eq_ok_iff]
  constructor
  · intro h
    obtain ⟨id, hindexed, owner, ⟨howner, rfl⟩, uri, ⟨huri, rfl⟩, hinfo⟩ := h
    cases hinfo
    exact ⟨hindexed, howner, huri, rfl⟩
  · intro h
    refine ⟨info.id, h.indexed, _, ⟨h.owner, rfl⟩, _, ⟨h.tokenURI, rfl⟩, ?_⟩
    exact congrArg Except.ok h.own.symm

end

/-! ## A batch -/

section
variable {chain : ℕ → Chain} {token : Address} {indexes : List ℕ}

theorem batch_eq_mapIndex : getBatchERC721Infos chain token indexes =
    mapIndex (fun i index => getSafeERC721Infos (chain i) token index) 0 indexes :=
  fill_eq_mapIndex _ _ _ _

theorem length_of_batch {infos : List ERC721Info}
    (h : getBatchERC721Infos chain token indexes = .ok infos) : infos.length = indexes.length :=
  length_of_mapIndex (batch_eq_mapIndex.symm.trans h)

/-- In a batch that goes through each index has its own info, in its place. -/
theorem infoAt_of_batch {infos : List ERC721Info}
    (h : getBatchERC721Infos chain token indexes = .ok infos) {i index : ℕ}
    (hindex : indexes[i]? = some index) :
    ∃ info, infos[i]? = some info ∧ InfoAt (chain i) token index info := by
  obtain ⟨info, hinfo, hi⟩ := getElem?_of_mapIndex (batch_eq_mapIndex.symm.trans h) hindex
  exact ⟨info, hi, getSafeERC721Infos_eq_ok_iff.mp hinfo⟩

/-- One index without an info reverts all. -/
theorem batch_error_iff : (∃ e, getBatchERC721Infos chain token indexes = .error e) ↔
    ∃ i index, indexes[i]? = some index ∧ ∀ info, ¬ InfoAt (chain i) token index info := by
  rw [batch_eq_mapIndex, mapIndex_error_iff]
  refine exists_congr fun i => exists_congr fun index => and_congr_right fun _ => ?_
  cases hitem : getSafeERC721Infos (chain i) token index with
  | error e =>
    refine ⟨fun _ info hinfo => ?_, fun _ => ⟨e, rfl⟩⟩
    cases hitem.symm.trans (getSafeERC721Infos_eq_ok_iff.mpr hinfo)
  | ok info =>
    constructor
    · rintro ⟨e, he⟩
      cases he
    · intro hnone
      exact absurd (getSafeERC721Infos_eq_ok_iff.mp hitem) (hnone info)

end

end BlockchainTask.Multicalls.ERC721

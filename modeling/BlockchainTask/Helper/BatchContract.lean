import BlockchainTask.Common.Exception
import BlockchainTask.Helper
import BlockchainTask.Helper.Decimals

/-! # Batched contract calls

A batch is one request to the node: it fails as a whole, or gives a result for
each call in order. A call that fails has a result that says so. -/
namespace BlockchainTask.Helper.BatchContract
open BlockchainTask.Common.Exception
open BlockchainTask.Library.Decimal BlockchainTask.Helper BlockchainTask.Helper.Decimals

/-- The encoded data of a call: the ERC20 functions that are read, or a text
that encodes none. -/
inductive CallData where
  | totalSupply
  | balanceOf (holder : String)
  | text (bytes : String)
  deriving DecidableEq

def NULL_BYTE : String := "0x"

structure Call where
  target : String
  data : CallData
  deriving DecidableEq

/-- What a call returned: no bytes, an encoded `uint256`, or bytes that encode
none. -/
inductive ReturnData where
  | null
  | uint256 (n : ℕ)
  | malformed
  deriving DecidableEq

structure Result where
  success : Bool
  returnData : ReturnData
  deriving DecidableEq

/-- The node: its answer to each call, and whether the request for a batch
fails. -/
structure Node where
  answer : Call → Result
  fault : Option Thrown

def getBatchStaticAggregator (node : Node) (calls : List Call) : Except Thrown (List Result) :=
  match node.fault with
  | some e => .error e
  | none => .ok (calls.map node.answer)

def decodeFunctionResultData : ReturnData → Except Thrown Number
  | .uint256 n => .ok (.finite n)
  | _ => .error (rawError "data out-of-bounds")

/-- A result in a token's own units; a failed or empty one counts as zero. -/
def decodedAmount (result : Result) (decimals : ℕ) : Except Thrown Number :=
  if result.success && result.returnData != .null then
    (decodeFunctionResultData result.returnData).map fun value => divideDecimals value decimals
  else .ok ZERO

/-- The raw number of a result; a failed or empty one counts as zero. -/
def rawAmount (result : Result) : ℕ :=
  match result.success, result.returnData with
  | true, .uint256 n => n
  | _, _ => 0

/-- Whatever is decoded is the raw number in the token's own units. -/
theorem decodedAmount_ok {result : Result} {decimals : ℕ} {value : Number}
    (h : decodedAmount result decimals = .ok value) :
    value = .finite (rawAmount result / 10 ^ decimals) := by
  obtain ⟨success, returnData⟩ := result
  unfold decodedAmount at h
  cases success with
  | false =>
    cases h
    simp [rawAmount, ZERO]
  | true =>
    cases returnData with
    | null =>
      cases h
      simp [rawAmount, ZERO]
    | malformed => cases h
    | uint256 n =>
      have hvalue : divideDecimals (.finite n) decimals = value := Except.ok.inj h
      rw [← hvalue, divideDecimals_finite]
      rfl

/-- **Alignment.** The results of calls grouped by item, split by the size of
the groups, are grouped by item again. -/
theorem split_answers {node : Node} {chunkSize : ℕ} (hsize : 0 < chunkSize)
    {groups : List (List Call)} (h : ∀ calls ∈ groups, calls.length = chunkSize)
    {results : List Result} (hbatch : getBatchStaticAggregator node groups.flatten = .ok results) :
    toSplitWithChunkSize results chunkSize = groups.map fun calls => calls.map node.answer := by
  unfold getBatchStaticAggregator at hbatch
  cases hfault : node.fault with
  | some e =>
    rw [hfault] at hbatch
    cases hbatch
  | none =>
    rw [hfault] at hbatch
    cases hbatch
    rw [List.map_flatten]
    refine toSplitWithChunkSize_flatten hsize fun piece hpiece => ?_
    obtain ⟨calls, hcalls, rfl⟩ := List.mem_map.mp hpiece
    rw [List.length_map]
    exact h calls hcalls

end BlockchainTask.Helper.BatchContract

import BlockchainTask.Helper
import BlockchainTask.Multicalls.MultiCall

/-! # Calls for each item, in one batch

`Aggregator.staticAggregate` makes the calls of a list one after another and puts
what each returns in its place. The readers of the services give every item the
same number of calls, flatten them, and split the results by that number again,
so that an item stands beside the results of its own calls. -/
namespace BlockchainTask.Multicalls.Aggregator
open BlockchainTask.Helper BlockchainTask.Library.Abi BlockchainTask.Library.IndexedLoop
open BlockchainTask.Multicalls.MultiCall (Address Returned)

structure Call where
  target : Address
  callData : Bytes
  deriving DecidableEq

/-- Why `staticAggregate` ends without a result. -/
inductive Revert where
  /-- `"multicall aggregate: call failed"`. -/
  | callFailed
  | outOfBounds
  deriving DecidableEq

/-- What the calls return, each by its index: a contract may answer a call
differently from one place of the batch to another. -/
abbrev Chain : Type := ℕ → Call → Returned

/-- The body of the loop. -/
def result (chain : Chain) (requireSuccess : Bool) (i : ℕ) (call : Call) :
    Except Revert Returned :=
  if requireSuccess && !(chain i call).success then .error .callFailed else .ok (chain i call)

def staticAggregate (chain : Chain) (requireSuccess : Bool) (calls : List Call) :
    Except Revert (List Returned) :=
  forIndex (assign .outOfBounds (result chain requireSuccess) id) 0 calls
    (List.replicate calls.length ⟨false, []⟩)

section
variable {chain : Chain} {calls : List Call} {ι : Type}

/-- Without `requireSuccess` each call has its result, whether it failed or not. -/
theorem staticAggregate_false (chain : Chain) (calls : List Call) :
    staticAggregate chain false calls = .ok (calls.mapIdx chain) := by
  rw [staticAggregate, fill_eq_mapIndex]
  exact mapIndex_of_ok _ _ fun _ _ _ => rfl

theorem result_error_iff {i : ℕ} {call : Call} :
    (∃ e, result chain true i call = .error e) ↔ (chain i call).success = false := by
  unfold result
  cases (chain i call).success <;> simp

/-- With it the batch stands or falls with its calls. -/
theorem staticAggregate_true_error_iff :
    (∃ e, staticAggregate chain true calls = .error e) ↔
      ∃ i call, calls[i]? = some call ∧ (chain i call).success = false := by
  rw [staticAggregate, fill_eq_mapIndex, mapIndex_error_iff]
  simp only [result_error_iff]

/-- The shape of the readers: `zip(items, chunk(staticAggregate(flat(calls)), k))`. -/
def readBatched (chain : Chain) (requireSuccess : Bool) (k : ℕ) (asked : List (ι × List Call)) :
    Except Revert (List (Option ι × Option (List Returned))) := do
  let batchCall ← staticAggregate chain requireSuccess (asked.map Prod.snd).flatten
  let batchCallMap := toSplitWithChunkSize batchCall k
  pure (zip (asked.map Prod.fst) batchCallMap)

/-! ## Attribution -/

section
variable {C R : Type} {k : ℕ}

/-- The results of the calls of an item, which is the `i`-th one. -/
def ownResults (answer : ℕ → C → R) (k i : ℕ) (calls : List C) : List R :=
  calls.mapIdx fun j call => answer (i * k + j) call

/-- The pieces of the results are the results of the items. -/
theorem split_mapIdx (hk : 1 ≤ k) {groups : List (List C)}
    (h : ∀ calls ∈ groups, calls.length = k) (answer : ℕ → C → R) :
    toSplitWithChunkSize (groups.flatten.mapIdx answer) k =
      groups.mapIdx (ownResults answer k) := by
  rw [mapIdx_flatten h]
  refine toSplitWithChunkSize_flatten hk fun piece hpiece => ?_
  obtain ⟨i, hi, rfl⟩ := List.mem_mapIdx.mp hpiece
  rw [List.length_mapIdx]
  exact h _ (List.getElem_mem hi)

/-- **Attribution.** Each item stands beside the results of its own calls. -/
theorem zip_ownResults (hk : 1 ≤ k) {asked : List (ι × List C)}
    (h : ∀ a ∈ asked, a.2.length = k) (answer : ℕ → C → R) :
    zip (asked.map Prod.fst)
        (toSplitWithChunkSize ((asked.map Prod.snd).flatten.mapIdx answer) k) =
      asked.mapIdx fun i a => (some a.1, some (ownResults answer k i a.2)) := by
  have hgroups : ∀ calls ∈ asked.map Prod.snd, calls.length = k := by
    intro calls hcalls
    obtain ⟨a, ha, rfl⟩ := List.mem_map.mp hcalls
    exact h a ha
  rw [split_mapIdx hk hgroups, zip_of_length_eq (by simp)]
  refine List.ext_getElem (by simp) fun i hi _ => ?_
  simp

/-- The same, for a reader that makes the calls of an item out of it. -/
theorem zip_ownResults_map (hk : 1 ≤ k) {calls : ι → List C} {items : List ι}
    (h : ∀ item ∈ items, (calls item).length = k) (answer : ℕ → C → R) :
    zip items (toSplitWithChunkSize ((items.map calls).flatten.mapIdx answer) k) =
      items.mapIdx fun i item => (some item, some (ownResults answer k i (calls item))) := by
  have hlength : ∀ a ∈ items.map fun item => (item, calls item), a.2.length = k := by
    simpa using h
  have hasked := zip_ownResults hk hlength answer
  simp only [List.map_map, Function.comp_def, List.map_id'] at hasked
  rw [hasked]
  refine List.ext_getElem (by simp) fun i hi _ => ?_
  simp

end

theorem readBatched_false {k : ℕ} (hk : 1 ≤ k) {asked : List (ι × List Call)}
    (h : ∀ a ∈ asked, a.2.length = k) (chain : Chain) :
    readBatched chain false k asked =
      .ok (asked.mapIdx fun i a => (some a.1, some (ownResults chain k i a.2))) := by
  rw [readBatched, staticAggregate_false, ← zip_ownResults hk h]
  rfl

end
end BlockchainTask.Multicalls.Aggregator

import BlockchainTask.Defi.FarmWalletInfo
import BlockchainTask.Defi.RewarderWalletInfo
import BlockchainTask.Defi.VenusBSCService
import BlockchainTask.SchedulerJob.TokenPrice

/-! # The readers that ask in batches

Every reader that splits the results of a batch by a number makes that many calls
for each of its items, also for an item that it will skip. So each item is read
from the results of its own calls. -/
namespace BlockchainTask.Defi.BatchReaders
open BlockchainTask.Helper
open BlockchainTask.Library.Abi BlockchainTask.Multicalls.Aggregator
open BlockchainTask.Multicalls.MultiCall (Returned)
open BlockchainTask.SchedulerJob.TokenPrice

/-! ## What is asked of a pool and of a pair -/

/-- `getFarmInfos` of the services with rewarders. -/
def farmInfoEncode (farmAddress : String) (pid : ℕ) : List FarmContracts.Call :=
  [⟨some farmAddress, ⟨"poolInfo", [some (.number pid)]⟩⟩,
    ⟨some farmAddress, ⟨"lpToken", [some (.number pid)]⟩⟩,
    ⟨some farmAddress, ⟨"rewarder", [some (.number pid)]⟩⟩]

/-- `getPairsInfo` of the KlaySwap job. -/
def pairsInfoEncode (address : String) : List FarmContracts.Call :=
  [⟨some address, ⟨"tokenA", []⟩⟩, ⟨some address, ⟨"tokenB", []⟩⟩]

/-! ## The readers -/

structure Reader where
  Item : Type
  ItemCall : Type
  /-- What the results are split by. -/
  chunkSize : ℕ
  calls : Item → List ItemCall

inductive IsReader : Reader → Prop where
  | multiAMM : IsReader
      ⟨PairEntity × Option TokenEntity, BatchContract.Call, 2, fun token =>
        MultiAMM.infoEncode token.1 token.2⟩
  | singleAMM : IsReader
      ⟨TokenEntity × Option (PairEntity × TokenEntity), BatchContract.Call, 3, fun token =>
        SingleAMM.infoEncode token.1 token.2⟩
  | venus (walletAddress : String) : IsReader
      ⟨VenusBSCService.Market, VenusBSCService.WalletCall, 3,
        VenusBSCService.walletCalls walletAddress⟩
  | farm (copy : FarmWalletInfo.Copy) (walletAddress : String) : IsReader
      ⟨FarmContracts.FarmEntity, FarmContracts.Call, 2,
        FarmWalletInfo.walletCalls copy walletAddress⟩
  | rewarderFarm (service : RewarderWalletInfo.Service) (walletAddress : String) : IsReader
      ⟨FarmContracts.FarmEntity, FarmContracts.Call, 3,
        RewarderWalletInfo.walletCalls service walletAddress⟩
  | farmInfo (farmAddress : String) : IsReader
      ⟨ℕ, FarmContracts.Call, 3, farmInfoEncode farmAddress⟩
  | pairsInfo : IsReader ⟨String, FarmContracts.Call, 2, pairsInfoEncode⟩

/-- The number of calls is the same for every item. -/
theorem IsReader.length_calls {reader : Reader} (h : IsReader reader) (item : reader.Item) :
    (reader.calls item).length = reader.chunkSize := by
  cases h with
  | multiAMM =>
    obtain ⟨token, keyPair⟩ := item
    cases keyPair <;> rfl
  | singleAMM =>
    obtain ⟨token, other⟩ := item
    cases other <;> rfl
  | venus walletAddress => rfl
  | farm copy walletAddress => rfl
  | rewarderFarm service walletAddress => rfl
  | farmInfo farmAddress => rfl
  | pairsInfo => rfl

theorem IsReader.chunkSize_pos {reader : Reader} (h : IsReader reader) : 1 ≤ reader.chunkSize := by
  cases h <;> exact Nat.succ_pos _

/-- For all items with the same number of calls each, and whatever the calls return:
beside each item stand the results of its own calls in their order, and with
`requireSuccess` the batch fails exactly when a call does. Every reader asks so, and
reads each of its items from the item's own results. -/
theorem readBatched_attribution {ι : Type} (chain : Chain) (k : ℕ) (hk : 1 ≤ k)
    (asked : List (ι × List Call)) (hasked : ∀ a ∈ asked, a.2.length = k) :
    readBatched chain false k asked = .ok (asked.mapIdx fun i a =>
        (some a.1, some (a.2.mapIdx fun j call => chain (i * k + j) call))) ∧
      ((∃ e, readBatched chain true k asked = .error e) ↔
        ∃ i call, (asked.map Prod.snd).flatten[i]? = some call ∧
          (chain i call).success = false) ∧
      ∀ (reader : Reader), IsReader reader → ∀ (R : Type) (answer : ℕ → reader.ItemCall → R)
        (items : List reader.Item),
        zip items (toSplitWithChunkSize ((items.map reader.calls).flatten.mapIdx answer)
            reader.chunkSize) =
          items.mapIdx fun i item => (some item, some ((reader.calls item).mapIdx fun j call =>
            answer (i * reader.chunkSize + j) call)) := by
  refine ⟨readBatched_false hk hasked chain, ?_, ?_⟩
  · rw [← staticAggregate_true_error_iff]
    unfold readBatched
    cases staticAggregate chain true (asked.map Prod.snd).flatten with
    | error e => exact ⟨fun _ => ⟨e, rfl⟩, fun _ => ⟨e, rfl⟩⟩
    | ok results => exact ⟨fun ⟨e, he⟩ => (by cases he), fun ⟨e, he⟩ => (by cases he)⟩
  · intro reader hreader R answer items
    exact zip_ownResults_map hreader.chunkSize_pos (fun item _ => hreader.length_calls item) answer

/-- Two farms with two calls each, of which the second farm's first one fails. -/
def exampleChain : Chain := fun i call => ⟨i != 2, call.callData⟩

theorem readBatched_exampleChain :
    readBatched exampleChain false 2
        [("CAKE", [⟨1, [1]⟩, ⟨1, [2]⟩]), ("BANANA", [⟨1, [3]⟩, ⟨1, [4]⟩])] =
      .ok [(some "CAKE", some [⟨true, [1]⟩, ⟨true, [2]⟩]),
        (some "BANANA", some [⟨false, [3]⟩, ⟨true, [4]⟩])] :=
  (readBatched_attribution exampleChain 2 (by decide)
    [("CAKE", [⟨1, [1]⟩, ⟨1, [2]⟩]), ("BANANA", [⟨1, [3]⟩, ⟨1, [4]⟩])] (by decide)).1

end BlockchainTask.Defi.BatchReaders

import BlockchainTask.Helper.Decimals
import BlockchainTask.Multicalls.Aggregator
import BlockchainTask.Wallet.WalletService

/-! # What the farm services ask

A farm service asks the contracts of its protocol about all farms of a wallet in
one batch. An interface names the outputs of its functions, each of one word. An
answer is decoded by it when the call succeeded and returned bytes. -/
namespace BlockchainTask.Defi.FarmContracts
open BlockchainTask.Common.Exception BlockchainTask.Helper BlockchainTask.Helper.Decimals
open BlockchainTask.Library.Abi BlockchainTask.Library.Decimal BlockchainTask.Library.Effect
open BlockchainTask.Library.IndexedLoop
open BlockchainTask.Multicalls.Aggregator (Chain ownResults staticAggregate staticAggregate_false
  zip_ownResults_map)
open BlockchainTask.Multicalls.MultiCall (Address Returned)

/-- The functions of a contract, with the names of their outputs. -/
abbrev Interface : Type := List (String × List String)

inductive Argument where
  | number (value : ℕ)
  | address (value : String)
  deriving DecidableEq

structure CallData where
  function : String
  arguments : List (Option Argument)
  deriving DecidableEq

structure Call where
  target : Option String
  data : CallData
  deriving DecidableEq

/-- The function has to be one of the interface, and none of its arguments null. -/
def encodeFunction (abi : Interface) (function : String) (arguments : List (Option Argument)) :
    Except Thrown CallData :=
  if (abi.lookup function).isSome && arguments.all Option.isSome then .ok ⟨function, arguments⟩
  else .error (rawError "invalid argument")

/-- The node: what it answers to each call of a batch, and whether the request
fails. -/
structure Node where
  answer : ℕ → Call → Returned
  fault : Option Thrown

/-- `staticAggregate` without `requireSuccess`; a target that is null is not sent. -/
def getBatchStaticAggregator (node : Node) (calls : List Call) : Except Thrown (List Returned) :=
  if calls.all fun call => call.target.isSome then
    node.fault.elim (.ok (calls.mapIdx node.answer)) .error
  else .error (rawError "invalid address")

/-- The node behind which the batch contract runs, for an encoding of the calls. -/
def nodeOf (encode : Call → Multicalls.Aggregator.Call) (chain : Chain) : Node :=
  ⟨fun i call => chain i (encode call), none⟩

/-- What a request gives is what the contract returns. -/
theorem getBatchStaticAggregator_nodeOf {encode : Call → Multicalls.Aggregator.Call} {chain : Chain}
    {calls : List Call} {results : List Returned} (htargets : ∀ call ∈ calls, call.target.isSome) :
    getBatchStaticAggregator (nodeOf encode chain) calls = .ok results ↔
      staticAggregate chain false (calls.map encode) = .ok results := by
  have hresults : calls.mapIdx (nodeOf encode chain).answer = (calls.map encode).mapIdx chain :=
    List.ext_getElem (by simp) fun i _ _ => by simp [nodeOf]
  rw [getBatchStaticAggregator, if_pos (List.all_eq_true.mpr htargets), hresults,
    staticAggregate_false]
  simp [nodeOf]

theorem getBatchStaticAggregator_ok {node : Node} {calls : List Call} (hnode : node.fault = none)
    (htargets : ∀ call ∈ calls, call.target.isSome) :
    getBatchStaticAggregator node calls = .ok (calls.mapIdx node.answer) := by
  rw [getBatchStaticAggregator, if_pos (List.all_eq_true.mpr htargets), hnode]
  rfl

/-! ## What is decoded -/

/-- `value === '0x'`. -/
def isNullBytes (value : Bytes) : Bool := value.isEmpty

def validResult (success : Bool) (data : Bytes) : Bool := success && !isNullBytes data

/-- The outputs by name, in their order. -/
abbrev Fields : Type := List (String × ℕ)

/-- The words of the outputs. -/
def fieldsOf (outputs : List String) (data : Bytes) : Fields :=
  outputs.zipIdx.map fun p => (p.1, wordAt data (32 * p.2))

/-- The bytes have to be whole words, and enough of them. -/
def decodeFunctionResultData (abi : Interface) (function : String) (data : Bytes) :
    Except Thrown Fields :=
  match abi.lookup function with
  | none => .error (rawError "no matching function")
  | some outputs =>
    if data.length % 32 ≠ 0 then .error (rawError "call revert exception")
    else if data.length < 32 * outputs.length then .error (rawError "data out-of-bounds")
    else .ok (fieldsOf outputs data)

@[simp] theorem length_fieldsOf (outputs : List String) (data : Bytes) :
    (fieldsOf outputs data).length = outputs.length := by
  simp [fieldsOf]

theorem lookup_fieldsOf {outputs : List String} {name : String} (h : name ∈ outputs)
    (data : Bytes) : ((fieldsOf outputs data).lookup name).isSome = true := by
  obtain ⟨i, hi, rfl⟩ := List.getElem_of_mem h
  rw [List.lookup_isSome_iff]
  refine ⟨(outputs[i], wordAt data (32 * i)), ?_, beq_self_eq_true _⟩
  exact List.mem_map.mpr ⟨(outputs[i], i), List.mk_mem_zipIdx_iff_getElem?.mpr (by simp), rfl⟩

theorem decodeFunctionResultData_ok {abi : Interface} {function : String} {data : Bytes}
    {fields : Fields} (h : decodeFunctionResultData abi function data = .ok fields) :
    ∃ outputs, abi.lookup function = some outputs ∧ fields = fieldsOf outputs data := by
  unfold decodeFunctionResultData at h
  cases houtputs : abi.lookup function with
  | none =>
    rw [houtputs] at h
    cases h
  | some outputs =>
    rw [houtputs] at h
    simp only at h
    split at h
    · cases h
    · split at h
      · cases h
      · exact ⟨outputs, rfl, (Except.ok.inj h).symm⟩

/-- A value, where there is one: a read of a property of `undefined` throws. -/
def present {α : Type} (value : Option α) : Except Thrown α := value.elim (.error typeError) .ok

/-- `values.toString()` as a number: the elements of an array are joined by
commas. -/
def numberOf (values : List ℕ) : Number :=
  match values with
  | [value] => .finite value
  | _ => .nan

/-! ## Farms -/

structure Token where
  address : String
  decimals : ℕ
  deriving DecidableEq

structure FarmWallet where
  stake_amount : List Number
  reward_amount : List Number
  deriving DecidableEq

/-- The object that the text of a farm's data denotes. -/
structure FarmData where
  lpToken : Option String
  rewarder : Option String
  deriving DecidableEq

/-- A row of the farm table with its tokens, and what a wallet has in it. -/
structure FarmEntity extends Wallet.WalletService.Farm where
  data : Option FarmData
  stake_tokens : List Token
  reward_tokens : List Token
  wallet : Option FarmWallet
  deriving DecidableEq

/-! ## The shape of the readers -/

section
variable {ι β : Type} {k : ℕ} {encode : FarmEntity → Except Thrown (List Call)}
  {farmInfo : Option FarmEntity → Option (List Returned) → Except Thrown (Option β)}

/-- The calls of all farms in one batch, its results beside the farms, and what is
made of each. -/
def readFarms (k : ℕ) (encode : FarmEntity → Except Thrown (List Call))
    (farmInfo : Option FarmEntity → Option (List Returned) → Except Thrown (Option β)) (node : Node)
    (farms : List FarmEntity) : Except Thrown (List β) := do
  let walletInfoEncode ← farms.mapM encode
  let walletInfoBatchCall ← getBatchStaticAggregator node walletInfoEncode.flatten
  let walletInfoBatchCallMap := toSplitWithChunkSize walletInfoBatchCall k
  let farmWalletInfoZip := zip farms walletInfoBatchCallMap
  let output ← farmWalletInfoZip.mapM fun p => farmInfo p.1 p.2
  pure (output.filterMap id)

/-- Where each farm can be asked and answered: what is made of a farm is made of
the answers to its own calls. -/
theorem readFarms_ok (calls : FarmEntity → List Call) {node : Node} (hk : 1 ≤ k)
    (hnode : node.fault = none) (farm : ι → FarmEntity) {items : List ι}
    (hencode : ∀ item ∈ items, encode (farm item) = .ok (calls (farm item)))
    (hlength : ∀ item ∈ items, (calls (farm item)).length = k)
    (htargets : ∀ item ∈ items, ∀ call ∈ calls (farm item), call.target.isSome = true)
    {result : ℕ → ι → Option β} (hresult : ∀ i item, items[i]? = some item →
      farmInfo (some (farm item)) (some (ownResults node.answer k i (calls (farm item)))) =
        .ok (result i item)) :
    readFarms k encode farmInfo node (items.map farm) =
      .ok ((items.mapIdx result).filterMap id) := by
  have hencoded : (items.map farm).mapM encode = .ok ((items.map farm).map calls) := by
    refine Eff.except_mapM_of_ok fun f hf => ?_
    obtain ⟨item, hitem, rfl⟩ := List.mem_map.mp hf
    exact hencode item hitem
  have hsent : ∀ call ∈ ((items.map farm).map calls).flatten, call.target.isSome = true := by
    intro call hcall
    obtain ⟨group, hgroup, hcall⟩ := List.mem_flatten.mp hcall
    obtain ⟨f, hf, rfl⟩ := List.mem_map.mp hgroup
    obtain ⟨item, hitem, rfl⟩ := List.mem_map.mp hf
    exact htargets item hitem call hcall
  -- each farm stands beside the answers to its own calls
  have hzip := zip_ownResults_map hk
    (show ∀ f ∈ items.map farm, (calls f).length = k by simpa using hlength) node.answer
  have hrows : ((items.map farm).mapIdx fun i f =>
      (some f, some (ownResults node.answer k i (calls f)))) =
        items.mapIdx fun i item => (some (farm item),
          some (ownResults node.answer k i (calls (farm item)))) :=
    List.ext_getElem (by simp) fun i _ _ => by simp
  have houtput : (items.mapIdx fun i item => (some (farm item),
      some (ownResults node.answer k i (calls (farm item))))).mapM (fun p => farmInfo p.1 p.2) =
        .ok (items.mapIdx result) := mapM_mapIdx_of_ok hresult
  rw [← hrows, ← hzip] at houtput
  exact Eff.except_bind_eq_ok.mpr ⟨_, hencoded, Eff.except_bind_eq_ok.mpr
    ⟨_, getBatchStaticAggregator_ok hnode hsent, Eff.except_bind_eq_ok.mpr ⟨_, houtput, rfl⟩⟩⟩

end

end BlockchainTask.Defi.FarmContracts

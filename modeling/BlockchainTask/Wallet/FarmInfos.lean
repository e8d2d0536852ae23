import BlockchainTask.Wallet.WalletService

/-! # What a farm request answers

The answers of the services are pushed as they are, one array for each protocol
that has something to report, in the order they come. So the response counts
protocols, and its items are farm items only where there are none. Flattened, it
would be what the services answer, whatever the order. -/
namespace BlockchainTask.Wallet.FarmInfos
open BlockchainTask.Common.Exception BlockchainTask.Helper.AnyArray BlockchainTask.Helper.GroupBy
open BlockchainTask.Library.Effect BlockchainTask.Library.Store
open BlockchainTask.Wallet.WalletService

variable {Query : Type} {tables : Tables Query} {services : Services} {completion : Completion}
variable {walletAddress : String} {params : Query}

/-! ## One array for each answer -/

/-- The arrays that answers are put together to. -/
def reported (answers : List (List FarmInfoItem)) : List (List FarmInfoItem) :=
  answers.filter fun info => decide (info.length > 0)

theorem collect_ok {answer : String → Except Thrown (List FarmInfoItem)} {id : String}
    {info : List FarmInfoItem} (h : answer id = .ok info) (output : List (Element FarmInfoItem)) :
    collect answer output id = .ok (output ++ (reported [info]).map .array) := by
  have hcollect : collect answer output id =
      .ok (if info.length > 0 then output ++ [.array info] else output) := by
    unfold collect
    rw [h]
    rfl
  rw [hcollect, reported]
  by_cases hinfo : info.length > 0
  · rw [if_pos hinfo, List.filter_cons_of_pos (by simpa using hinfo)]
    rfl
  · rw [if_neg hinfo, List.filter_cons_of_neg (by simpa using hinfo), List.filter_nil, List.map_nil,
      List.append_nil]

/-- Where all are answered, one after the other is put at the end. -/
theorem foldlM_collect {answer : String → Except Thrown (List FarmInfoItem)}
    {info : String → List FarmInfoItem} {ids : List String}
    (h : ∀ id ∈ ids, answer id = .ok (info id))
    (output : List (Element FarmInfoItem)) :
    ids.foldlM (collect answer) output = .ok (output ++ (reported (ids.map info)).map .array) := by
  induction ids generalizing output with
  | nil =>
    show Except.ok output = _
    rw [List.map_nil, reported, List.filter_nil, List.map_nil, List.append_nil]
  | cons id ids ih =>
    rw [List.foldlM_cons, collect_ok (h id List.mem_cons_self)]
    show ids.foldlM (collect answer) _ = _
    rw [ih fun other hother => h other (List.mem_cons_of_mem _ hother), List.append_assoc,
      ← List.map_append, reported, reported, ← List.filter_append]
    rfl

/-- Where the calls return, each of them was answered. -/
theorem answered_of_foldlM {answer : String → Except Thrown (List FarmInfoItem)} {ids : List String}
    {output result : List (Element FarmInfoItem)}
    (h : ids.foldlM (collect answer) output = .ok result) :
    ∀ id ∈ ids, ∃ info, answer id = .ok info := by
  induction ids generalizing output with
  | nil =>
    intro id hid
    cases hid
  | cons id ids ih =>
    rw [List.foldlM_cons] at h
    obtain ⟨next, hnext, hrest⟩ := Eff.except_bind_eq_ok.mp h
    obtain ⟨info, hinfo, _⟩ := Eff.except_bind_eq_ok.mp hnext
    intro other hother
    rcases List.mem_cons.mp hother with rfl | hother
    · exact ⟨info, hinfo⟩
    · exact ih hrest other hother

theorem flatten_reported (answers : List (List FarmInfoItem)) :
    (reported answers).flatten = answers.flatten := by
  induction answers with
  | nil => rfl
  | cons info answers ih =>
    unfold reported at ih ⊢
    cases info with
    | nil => simpa using ih
    | cons item items =>
      rw [List.filter_cons_of_pos (by simp), List.flatten_cons, List.flatten_cons, ih]

/-! ## The request -/

/-- What the service of a protocol answers for its farms among those found. -/
def protocolAnswer (services : Services) (farms : List Farm) (walletAddress : String)
    (protocol : Nat) : Except Thrown (List FarmInfoItem) :=
  (services protocol).elim (.error typeError) fun getWalletFarms =>
    getWalletFarms (farms.filter fun farm => farm.protocol = protocol) walletAddress

/-- What it answers, as a list. -/
def answered (services : Services) (farms : List Farm) (walletAddress : String) (protocol : Nat) :
    List FarmInfoItem :=
  (protocolAnswer services farms walletAddress protocol).toOption.getD []

/-- The protocols of the farms that are found. -/
def protocols (farms : List Farm) : List Nat :=
  (objectKeys (groupFarmByProtocolId farms)).map number

/-- The union of what the services answer. -/
def returned (services : Services) (farms : List Farm) (walletAddress : String) :
    List FarmInfoItem :=
  (protocols farms).flatMap (answered services farms walletAddress)

theorem mem_objectKeys {farms : List Farm} {id : String} :
    id ∈ objectKeys (groupFarmByProtocolId farms) ↔ ∃ farm ∈ farms, farm.protocol.repr = id := by
  rw [(objectKeys_perm _).mem_iff]
  exact (grouped_groupBy farms _).names id

theorem mem_protocols {farms : List Farm} {protocol : Nat} :
    protocol ∈ protocols farms ↔ ∃ farm ∈ farms, farm.protocol = protocol := by
  rw [protocols, List.mem_map]
  constructor
  · intro h
    obtain ⟨id, hid, rfl⟩ := h
    obtain ⟨farm, hfarm, rfl⟩ := mem_objectKeys.mp hid
    exact ⟨farm, hfarm, (number_repr _).symm⟩
  · intro h
    obtain ⟨farm, hfarm, rfl⟩ := h
    exact ⟨_, mem_objectKeys.mpr ⟨farm, hfarm, rfl⟩, number_repr _⟩

/-- The service of a protocol is asked for the farms of that protocol. -/
theorem walletFarmInfo_eq {farms : List Farm} {id : String}
    (h : id ∈ objectKeys (groupFarmByProtocolId farms)) :
    walletFarmInfo services (groupFarmByProtocolId farms) walletAddress id =
      protocolAnswer services farms walletAddress (number id) := by
  obtain ⟨farm, _, rfl⟩ := mem_objectKeys.mp h
  have hgroup : (groupFarmByProtocolId farms).property farm.protocol.repr =
      farms.filter fun other => other.protocol = farm.protocol := by
    rw [groupFarmByProtocolId, property_groupBy ((objectKeys_perm _).mem_iff.mp h)]
    refine List.filter_congr fun other _ => ?_
    have hrepr : other.protocol.repr = farm.protocol.repr ↔ other.protocol = farm.protocol := by
      constructor
      · intro he
        rw [← number_repr other.protocol, he, number_repr]
      · intro he
        rw [he]
    simp only [hrepr]
  unfold walletFarmInfo protocolAnswer
  rw [hgroup, number_repr]
  cases services farm.protocol with
  | none => rfl
  | some getWalletFarms => rfl

/-- Every protocol of a farm that is found has a service that answers. -/
def AllAnswer (services : Services) (farms : List Farm) (walletAddress : String) : Prop :=
  ∀ farm ∈ farms, ∃ info, protocolAnswer services farms walletAddress farm.protocol = .ok info

theorem protocolAnswer_eq {farms : List Farm} {protocol : Nat}
    (h : ∃ info, protocolAnswer services farms walletAddress protocol = .ok info) :
    protocolAnswer services farms walletAddress protocol =
      .ok (answered services farms walletAddress protocol) := by
  obtain ⟨info, hinfo⟩ := h
  rw [answered, hinfo]
  rfl

/-- What a request returns: an array for each protocol that reports something, in
the order of the answers. -/
theorem getWalletFarmInfos_ok (completion : Completion)
    (h : AllAnswer services (walletFarms tables walletAddress params) walletAddress) :
    ∃ answers : List (List FarmInfoItem),
      getWalletFarmInfos tables services completion walletAddress params =
        .ok ((reported answers).map .array) ∧
      answers.Perm ((protocols (walletFarms tables walletAddress params)).map
        (answered services (walletFarms tables walletAddress params) walletAddress)) := by
  unfold getWalletFarmInfos
  generalize walletFarms tables walletAddress params = farms at h ⊢
  by_cases hnone : farms.length = 0
  · refine ⟨[], if_pos hnone, ?_⟩
    have hprotocols : protocols farms = [] := by
      refine List.eq_nil_iff_forall_not_mem.mpr fun protocol hprotocol => ?_
      obtain ⟨farm, hfarm, _⟩ := mem_protocols.mp hprotocol
      rw [List.eq_nil_of_length_eq_zero hnone] at hfarm
      cases hfarm
    rw [hprotocols]
    exact .nil
  · have hsettled := completion.settle_perm (objectKeys (groupFarmByProtocolId farms))
    refine ⟨(completion.settle (objectKeys (groupFarmByProtocolId farms))).map fun id =>
      answered services farms walletAddress (number id), ?_, ?_⟩
    · have hanswers : ∀ id ∈ completion.settle (objectKeys (groupFarmByProtocolId farms)),
          walletFarmInfo services (groupFarmByProtocolId farms) walletAddress id =
            .ok (answered services farms walletAddress (number id)) := by
        intro id hid
        have hkey := hsettled.mem_iff.mp hid
        obtain ⟨farm, hfarm, hfarmId⟩ := mem_objectKeys.mp hkey
        rw [walletFarmInfo_eq hkey]
        refine protocolAnswer_eq ?_
        rw [← hfarmId, number_repr]
        exact h farm hfarm
      show (if farms.length = 0 then _ else _) = _
      rw [if_neg hnone, foldlM_collect hanswers]
      rfl
    · rw [protocols, List.map_map]
      exact hsettled.map _

/-- A request that returns was answered for every farm. -/
theorem allAnswer_of_ok {result : List (Element FarmInfoItem)}
    (h : getWalletFarmInfos tables services completion walletAddress params = .ok result) :
    AllAnswer services (walletFarms tables walletAddress params) walletAddress := by
  unfold getWalletFarmInfos at h
  generalize walletFarms tables walletAddress params = farms at h ⊢
  intro farm hfarm
  have hsome : farms.length ≠ 0 := fun hnone => by
    rw [List.eq_nil_of_length_eq_zero hnone] at hfarm
    cases hfarm
  rw [if_neg hsome] at h
  have hkey : farm.protocol.repr ∈ objectKeys (groupFarmByProtocolId farms) :=
    mem_objectKeys.mpr ⟨farm, hfarm, rfl⟩
  obtain ⟨info, hinfo⟩ := answered_of_foldlM h _ ((completion.settle_perm _).mem_iff.mpr hkey)
  rw [walletFarmInfo_eq hkey, number_repr] at hinfo
  exact ⟨info, hinfo⟩

/-- **The union.** Flattened, the result would be what the services answer,
whatever the order of the answers. -/
theorem flat_getWalletFarmInfos (completion : Completion)
    (h : AllAnswer services (walletFarms tables walletAddress params) walletAddress) :
    ∃ (result : List (Element FarmInfoItem)) (items : List FarmInfoItem),
      getWalletFarmInfos tables services completion walletAddress params = .ok result ∧
      flat result = items.map .value ∧
      items.Perm (returned services (walletFarms tables walletAddress params) walletAddress) := by
  obtain ⟨answers, hresult, hperm⟩ := getWalletFarmInfos_ok completion h
  refine ⟨_, answers.flatten, hresult, ?_, ?_⟩
  · rw [flat_arrays, flatten_reported]
  · rw [returned, List.flatMap_def]
    exact hperm.flatten

/-- The response counts the protocols that report something. -/
theorem getWalletFarmInfosResponse_ok (completion : Completion)
    (h : AllAnswer services (walletFarms tables walletAddress params) walletAddress) :
    ∃ response,
      getWalletFarmInfosResponse tables services completion walletAddress params = .ok response ∧
      response.itemCount =
        (reported ((protocols (walletFarms tables walletAddress params)).map
          (answered services (walletFarms tables walletAddress params) walletAddress))).length := by
  obtain ⟨answers, hresult, hperm⟩ := getWalletFarmInfos_ok completion h
  refine ⟨⟨((reported answers).map Element.array).length, (reported answers).map .array⟩, ?_, ?_⟩
  · rw [getWalletFarmInfosResponse, hresult]
    rfl
  · show ((reported answers).map Element.array).length = _
    rw [List.length_map]
    exact (hperm.filter _).length_eq

/-! ## The flat list -/

/-- The request returns the flat list of what the services answer, counts it, and
returns the same in whatever order they answer. -/
structure Meets (tables : Tables Query) (services : Services) (walletAddress : String)
    (params : Query) : Prop where
  flat : ∀ completion, ∃ items : List FarmInfoItem,
    getWalletFarmInfos tables services completion walletAddress params = .ok (items.map .value) ∧
      items.Perm (returned services (walletFarms tables walletAddress params) walletAddress)
  counted : ∀ completion, ∃ response,
    getWalletFarmInfosResponse tables services completion walletAddress params = .ok response ∧
      response.itemCount =
        (returned services (walletFarms tables walletAddress params) walletAddress).length
  independent : ∀ completion completion',
    getWalletFarmInfos tables services completion walletAddress params =
      getWalletFarmInfos tables services completion' walletAddress params

/-- Every protocol of a farm that is found has a service, and that reports
nothing. -/
def NothingReported (services : Services) (farms : List Farm) (walletAddress : String) : Prop :=
  ∀ farm ∈ farms, protocolAnswer services farms walletAddress farm.protocol = .ok []

theorem returned_eq_nil {farms : List Farm} (h : NothingReported services farms walletAddress) :
    returned services farms walletAddress = [] := by
  rw [returned, List.flatMap_eq_nil_iff]
  intro protocol hprotocol
  obtain ⟨farm, hfarm, rfl⟩ := mem_protocols.mp hprotocol
  rw [answered, h farm hfarm]
  rfl

/-- An array is no value. -/
theorem reported_eq_nil {answers : List (List FarmInfoItem)} {items : List FarmInfoItem}
    (h : (reported answers).map Element.array = items.map Element.value) :
    reported answers = [] := by
  cases hreported : reported answers with
  | nil => rfl
  | cons info rest =>
    rw [hreported] at h
    cases items with
    | nil => cases h
    | cons item items => cases h

theorem empty_of_reported {answers : List (List FarmInfoItem)} (h : reported answers = []) :
    ∀ info ∈ answers, info = [] := by
  intro info hinfo
  have hempty := List.filter_eq_nil_iff.mp h info hinfo
  cases info with
  | nil => rfl
  | cons item items => exact absurd (decide_eq_true (Nat.succ_pos _)) hempty

/-- Where nothing is reported nothing is returned. -/
theorem getWalletFarmInfos_nil (completion : Completion)
    (h : NothingReported services (walletFarms tables walletAddress params) walletAddress) :
    getWalletFarmInfos tables services completion walletAddress params = .ok [] := by
  obtain ⟨answers, hresult, hperm⟩ :=
    getWalletFarmInfos_ok completion fun farm hfarm => ⟨[], h farm hfarm⟩
  have hflatten : answers.flatten = [] := by
    have hnil := returned_eq_nil h
    rw [returned, List.flatMap_def] at hnil
    exact List.perm_nil.mp (hnil ▸ hperm.flatten)
  have hreported : reported answers = [] := by
    rw [reported, List.filter_eq_nil_iff]
    intro info hinfo
    rw [List.flatten_eq_nil_iff.mp hflatten info hinfo]
    simp
  rw [hresult, hreported]
  rfl

/-- A request that returns values was told of none. -/
theorem nothingReported_of_ok {items : List FarmInfoItem}
    (h : getWalletFarmInfos tables services completion walletAddress params =
      .ok (items.map .value)) :
    NothingReported services (walletFarms tables walletAddress params) walletAddress := by
  have hall := allAnswer_of_ok h
  obtain ⟨answers, hresult, hperm⟩ := getWalletFarmInfos_ok completion hall
  rw [hresult, Except.ok.injEq] at h
  have hnone := reported_eq_nil h
  intro farm hfarm
  have hmem : answered services (walletFarms tables walletAddress params) walletAddress
      farm.protocol ∈ answers :=
    hperm.mem_iff.mpr (List.mem_map.mpr ⟨_, mem_protocols.mpr ⟨farm, hfarm, rfl⟩, rfl⟩)
  rw [protocolAnswer_eq (hall farm hfarm), empty_of_reported hnone _ hmem]

/-- A farm request of a wallet returns the flat list of what the services answer,
counted and independent of their order, exactly when they report nothing. -/
theorem meets_iff_nothingReported :
    Meets tables services walletAddress params ↔
      NothingReported services (walletFarms tables walletAddress params) walletAddress := by
  constructor
  · intro h
    obtain ⟨items, hitems, _⟩ := h.flat Completion.inOrder
    exact nothingReported_of_ok hitems
  · intro h
    constructor
    · intro completion
      exact ⟨[], getWalletFarmInfos_nil completion h, .of_eq (returned_eq_nil h).symm⟩
    · intro completion
      refine ⟨⟨0, []⟩, ?_, (congrArg List.length (returned_eq_nil h)).symm⟩
      rw [getWalletFarmInfosResponse, getWalletFarmInfos_nil completion h]
      rfl
    · intro completion completion'
      rw [getWalletFarmInfos_nil completion h, getWalletFarmInfos_nil completion' h]

/-! ## Two protocols -/

def wallet : String := "0x0000000000000000000000000000000000000007"
def masterChef : String := "0x0000000000000000000000000000000000000101"
def bakeryMaster : String := "0x0000000000000000000000000000000000000102"

def syrup : Farm := ⟨1, 1, "farm", some masterChef, some 0⟩
def vault : Farm := ⟨2, 1, "farm", some masterChef, some 1⟩
def bakery : Farm := ⟨3, 2, "farm", some bakeryMaster, some 0⟩

/-- A wallet that interacted with the farms of two protocols. -/
def exampleTables : Tables Unit where
  searchDistinct _ := [masterChef, bakeryMaster]
  search _ addresses := [syrup, vault, bakery].filter fun farm => farm.address.any (· ∈ addresses)
  interactions := Table.empty.insertAll
    [⟨1, wallet, some masterChef⟩, ⟨1, wallet, some bakeryMaster⟩]

/-- Every service reports a stake for each of its farms. -/
def exampleServices : Services := fun _ => some fun farms _ =>
  .ok (farms.map fun farm => ⟨farm, ["1"], ["0"]⟩)

/-- Three farms of two protocols are no flat list. -/
theorem nested_not_flat :
    walletFarms exampleTables wallet () = [syrup, vault, bakery] ∧
      ¬ Meets exampleTables exampleServices wallet () := by
  have hfarms : walletFarms exampleTables wallet () = [syrup, vault, bakery] := by decide
  refine ⟨hfarms, fun hmeets => ?_⟩
  obtain ⟨items, hitems, _⟩ := hmeets.flat Completion.inOrder
  have hnothing := nothingReported_of_ok hitems
  rw [hfarms] at hnothing
  have hbakery := congrArg Except.toOption (hnothing bakery (by decide))
  revert hbakery
  decide

end BlockchainTask.Wallet.FarmInfos

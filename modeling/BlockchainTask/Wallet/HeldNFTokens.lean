import BlockchainTask.Defi.NFTDispatch
import BlockchainTask.Helper.GroupBy
import BlockchainTask.Multicalls.Aggregator
import BlockchainTask.Repository.NFTokenSearch
import BlockchainTask.SchedulerJob.ContractNFTokens

/-! # The NF tokens that a wallet holds

The NF-token request of a wallet on the tables and the contracts themselves. The
contract of a collection says how many of its tokens a wallet has and which, and the
request finds their rows. What it shows of a collection is what the wallet holds of the
tokens that the job of the collection has passed. The query of the request chooses the
protocols; the address and the indexes that it asks for are replaced by those of the
wallet. -/
namespace BlockchainTask.Wallet.HeldNFTokens
open BlockchainTask.Common.Exception BlockchainTask.Helper BlockchainTask.Helper.AnyArray
open BlockchainTask.Library.Abi BlockchainTask.Library.Distinct BlockchainTask.Library.Effect
open BlockchainTask.Library.IndexedLoop BlockchainTask.Library.Runs BlockchainTask.Library.Store
open BlockchainTask.Multicalls.Aggregator BlockchainTask.Multicalls.BatchSafety
open BlockchainTask.Multicalls.MultiCall (Address Calldata Returned)
open BlockchainTask.Multicalls.ERC721
open BlockchainTask.Defi.NFTDispatch BlockchainTask.Defi.WalletNFTokens
open BlockchainTask.Interaction.InteractionService
open BlockchainTask.Repository.FarmSearch (PaginationRequest given transform)
open BlockchainTask.Repository.NFToken BlockchainTask.Repository.NFTokenSearch
open BlockchainTask.SchedulerJob.Base BlockchainTask.SchedulerJob.ContractNFTokens
open BlockchainTask.SchedulerJob.InteractionTemplate (Interaction Interactions)
open BlockchainTask.SchedulerJob.NFTChunk (exampleColumns)
open BlockchainTask.SchedulerJob.NFTConsistency BlockchainTask.SchedulerJob.NFTCrawl

/-! ## The request -/

/-- The query of a request, with the keys that no search knows. -/
structure Params where
  query : NFTokenSearchQuery := {}
  pagination : PaginationRequest := ⟨none, none⟩
  others : List String := []

/-- `isEmpty(params)`. -/
def Params.isEmpty (params : Params) : Bool :=
  decide (params.query = {}) && params.pagination.page.isNone && params.pagination.limit.isNone &&
    params.others.isEmpty

/-- What a node answers: to the contract that reads a balance, and to the calls of a
batch. -/
structure Node where
  encodeAddress : String → Except Thrown Address
  chain : Multicalls.MultiCall.Chain
  batch : Chain
  callException : Multicalls.MultiCall.Revert → Thrown
  balanceFault : Option Thrown
  batchFault : Option Thrown

def encodeFunction (data : Calldata) : Bytes :=
  bytesOf 4 data.selector ++ encodeWords data.arguments

/-- `tokenOfOwnerByIndex(holder, index)`. -/
def tokenOfOwnerByIndex (holder : Address) (index : ℕ) : Bytes :=
  encodeFunction ⟨0x2f745c59, [holder, index]⟩

/-- What the code reads of a result. -/
def indexResult (returned : Returned) : IndexResult :=
  if returned.success && !returned.data.isEmpty then
    match decodeUint 256 returned.data with
    | some index => .index index
    | none => .malformed
  else .invalid

/-- The node and the table, as the functions of the services read them. -/
def surroundings (db : Database) (node : Node) : Surroundings Params where
  getSafeERC721BalanceOf nfTokenAddress walletAddress := do
    let token ← node.encodeAddress nfTokenAddress
    let holder ← node.encodeAddress walletAddress
    match node.balanceFault with
    | some e => .error e
    | none => (safeERC721BalanceOf node.chain token holder).mapError node.callException
  getBatchStaticAggregator nfTokenAddress walletAddress indexes := do
    let token ← node.encodeAddress nfTokenAddress
    let holder ← node.encodeAddress walletAddress
    let calls := indexes.map fun index => ⟨token, tokenOfOwnerByIndex holder index⟩
    match node.batchFault, staticAggregate node.batch false calls with
    | some e, _ => .error e
    | none, .error _ => .error (rawError "missing revert data in call exception")
    | none, .ok results => .ok (results.map indexResult)
  search params protocol nfTokenAddress indexes :=
    search db { params.query with
      protocolId := some protocol, address := some nfTokenAddress, indexes := some indexes }
      (transform params.pagination)

/-- A service that `DeFiService` has found, with its protocol, its network and the
node behind its provider. -/
structure Registered where
  protocol : ℕ
  network : ℕ
  service : NFTService
  node : Node

/-- What `WalletService` works on. -/
structure Sources where
  db : Database
  interactions : Interactions
  registered : List Registered

variable (sources : Sources) (walletAddress : String) (params : Params)

def getService (id : ℕ) : Option Registered :=
  sources.registered.find? fun registered => registered.protocol == id

def protocolIds : Except Thrown (List ℕ) :=
  if !params.isEmpty then searchDistinct sources.db params.query
  else .ok (searchProtocols sources.db)

def serviceTokens (id : ℕ) : Except Thrown (List (Element NFTokenRow)) :=
  match getService sources id with
  | none => .error typeError
  | some registered =>
    getWalletNFTokens (surroundings sources.db registered.node) registered.protocol
      registered.service sources.interactions registered.network walletAddress params

def getWalletNFTokenInfos : Except Thrown (List (Element NFTokenRow)) := do
  let ids ← protocolIds sources params
  let result ← ids.mapM (serviceTokens sources walletAddress params)
  pure result.flatten

/-! ## The tokens of a result -/

/-- The NF tokens of a result, without what is undefined. -/
def shown (items : List (Element NFTokenRow)) : List NFTokenRow :=
  items.filterMap fun
    | .value row => some row
    | _ => none

theorem shown_append (items items' : List (Element NFTokenRow)) :
    shown (items ++ items') = shown items ++ shown items' := List.filterMap_append

theorem shown_flatten (arrays : List (List (Element NFTokenRow))) :
    shown arrays.flatten = arrays.flatMap shown := by
  rw [shown, List.filterMap_flatten, List.flatMap_def]
  rfl

theorem shown_map_value (rows : List NFTokenRow) : shown (rows.map .value) = rows := by
  rw [shown, List.filterMap_map]
  exact List.filterMap_some

variable {sources walletAddress params} {db : Database} {node : Node}

/-- The rows that the function of a contract returns. -/
def contractRows (registered : Registered) (db : Database) (walletAddress : String)
    (params : Params) (contract : String) : List NFTokenRow :=
  (getNFTokenWalletInfo (surroundings db registered.node) registered.protocol contract
    walletAddress params).toOption.getD []

/-- A service shows the rows of the contracts whose functions run. -/
theorem shown_getWalletNFTokens {registered : Registered} {items : List (Element NFTokenRow)}
    (h : getWalletNFTokens (surroundings sources.db registered.node) registered.protocol
      registered.service sources.interactions registered.network walletAddress params = .ok items) :
    shown items = (runs registered.service sources.interactions registered.network
      walletAddress).flatMap (contractRows registered sources.db walletAddress params) := by
  unfold getWalletNFTokens at h
  unfold runs
  generalize contractAddresses registered.service sources.interactions registered.network
    walletAddress = addresses at h ⊢
  by_cases hnone : addresses.length = 0
  · simp only [if_pos hnone] at h
    cases h
    rw [List.eq_nil_of_length_eq_zero hnone]
    rfl
  simp only [if_neg hnone] at h
  obtain ⟨result, hresult, hitems⟩ := Eff.except_bind_eq_ok.mp h
  cases hitems
  have hrows := Eff.forall₂_of_mapM hresult
  clear hresult h hnone
  induction hrows with
  | nil => rfl
  | @cons address element addresses result hcase _ ih =>
    have hflat : flat (element :: result) = element.spread ++ flat result := rfl
    rw [hflat, shown_append, ih]
    cases hswitch : registered.service.switchAddress address with
    | none =>
      rw [List.filterMap_cons_none hswitch]
      rw [hswitch] at hcase
      cases hcase
      rfl
    | some contract =>
      rw [List.filterMap_cons_some hswitch, List.flatMap_cons]
      rw [hswitch] at hcase
      obtain ⟨rows, hrows, helement⟩ := Eff.except_map_eq_ok.mp hcase
      rw [← helement, contractRows, hrows]
      congr 1
      exact shown_map_value rows

/-! ## The contracts of a service -/

/-- The switch of a service runs the function of a contract for no address of another one. -/
structure TellsApart (service : NFTService) : Prop where
  same : ∀ address contract, service.switchAddress address = some contract →
    contract ∈ service.contracts ∧ sameText address contract
  nonempty : ∀ contract ∈ service.contracts, contract ≠ ""
  apart : Apart service.contracts

theorem TellsApart.apart_inj {service : NFTService} (h : TellsApart service)
    {contract other : String} (hcontract : contract ∈ service.contracts)
    (hother : other ∈ service.contracts) (hsame : sameText contract other) : contract = other :=
  List.inj_on_of_nodup_map h.apart hcontract hother hsame

theorem tellsApart_exact {contract : String} (hne : contract ≠ "") :
    TellsApart (exactService contract) := by
  refine ⟨fun address other hswitch => ?_, fun other hother => ?_, List.nodup_singleton _⟩
  · change (if address = contract then some contract else none) = some other at hswitch
    by_cases heq : address = contract
    · rw [if_pos heq] at hswitch
      cases hswitch
      exact ⟨List.mem_singleton_self _, heq ▸ rfl⟩
    · rw [if_neg heq] at hswitch
      cases hswitch
  · rw [List.mem_singleton.mp hother]
    exact hne

theorem pancakeSwap_apart : Apart PancakeSwapBSCService.service.contracts := by
  have hapart : (PancakeSwapBSCService.service.contracts.map toLowerCase).Nodup := by
    decide +kernel
  exact hapart

theorem tellsApart_pancakeSwap : TellsApart PancakeSwapBSCService.service := by
  refine ⟨fun address contract hswitch => ?_, by decide +kernel, pancakeSwap_apart⟩
  change PancakeSwapBSCService.switchAddress address = some contract at hswitch
  rw [pancakeSwap_switchAddress] at hswitch
  have hsame : toLowerCase address = toLowerCase contract := by
    simpa using List.find?_some hswitch
  exact ⟨List.mem_of_find?_eq_some hswitch, hsame⟩

/-- The services that have NF tokens. -/
def nftServices : List NFTService :=
  [AirNftBSCService.service, ApeSwapBSCService.service, PancakeSwapBSCService.service]

theorem tellsApart_of_mem {service : NFTService} (h : service ∈ nftServices) :
    TellsApart service := by
  simp only [nftServices, List.mem_cons, List.not_mem_nil, or_false] at h
  rcases h with rfl | rfl | rfl
  · exact tellsApart_exact (by decide)
  · exact tellsApart_exact (by decide)
  · exact tellsApart_pancakeSwap

/-- The wallet has a stored interaction with an address that the switch of the service
takes for the contract. -/
def Called (service : NFTService) (interactions : Interactions) (network : ℕ)
    (walletAddress contract : String) : Prop :=
  ∃ row ∈ interactions.contents, row.network = network ∧
    sameText row.from_address walletAddress ∧
      row.to_address.bind service.switchAddress = some contract

/-- For PancakeSwap that is the contract's address in any letter case. The other two
compare the texts themselves. -/
theorem called_pancakeSwap {interactions : Interactions} {network : ℕ} {contract : String}
    (hcontract : contract ∈ PancakeSwapBSCService.service.contracts) {row : Interaction}
    (hrow : row ∈ interactions.contents) (hnetwork : row.network = network)
    (hfrom : sameText row.from_address walletAddress) {address : String}
    (hto : row.to_address = some address) (hsame : sameText address contract) :
    Called PancakeSwapBSCService.service interactions network walletAddress contract := by
  refine ⟨row, hrow, hnetwork, hfrom, ?_⟩
  rw [hto, Option.bind_some]
  exact (pancakeSwap_switchAddress address).trans
    ((matching_eq_some_iff pancakeSwap_apart hcontract address).mpr hsame)

/-- The table has one interaction of a wallet with a contract, so its function runs once. -/
theorem count_runs_of_called {service : NFTService} {interactions : Interactions} {network : ℕ}
    {contract : String} (htells : TellsApart service) (hcontract : contract ∈ service.contracts)
    (hcalled : Called service interactions network walletAddress contract) :
    (runs service interactions network walletAddress).count contract = 1 := by
  obtain ⟨called, hmem, hnetwork, hfrom, hto⟩ := hcalled
  obtain ⟨stored, hstored, rfl⟩ := List.mem_map.mp hmem
  obtain ⟨text, htext, htaken⟩ := Option.bind_eq_some_iff.mp hto
  have hwritten : sameText text contract := (htells.same text contract htaken).2
  have hnodup : interactions.rows.Nodup :=
    List.Nodup.of_map Stored.id (interactions.idsIncrease.imp Nat.ne_of_lt)
  rw [runs, contractAddresses, findInteractionAddresses, List.filterMap_filterMap,
    List.count_filterMap, List.countP_filter, Table.contents, List.countP_map,
    ← List.count_eq_one_of_mem hnodup hstored, List.count]
  refine List.countP_congr fun s hs => ?_
  simp only [Function.comp, Bool.and_eq_true, beq_iff_eq]
  constructor
  · rintro ⟨hrun, hfound⟩
    obtain ⟨address, haddress, hswitch⟩ := Option.bind_eq_some_iff.mp hrun
    obtain ⟨other, _, hother⟩ := List.any_eq_true.mp hfound
    simp only [found, Option.all_some, Bool.and_eq_true, beq_iff_eq, decide_eq_true_eq] at hother
    obtain ⟨⟨hnet, hwallet⟩, _⟩ := hother
    have hsame : sameText address contract := (htells.same address contract hswitch).2
    -- the unique index has the network and both addresses in it
    refine Table.key_inj hs hstored (k := (network, toLowerCase walletAddress,
      toLowerCase contract)) ?_ ?_
    · rw [Interaction.key, haddress, Option.map_some, ← hnet, show toLowerCase s.row.from_address =
        toLowerCase walletAddress from hwallet, show toLowerCase address = toLowerCase contract
        from hsame]
    · rw [Interaction.key, htext, Option.map_some, hnetwork, show toLowerCase
        stored.row.from_address = toLowerCase walletAddress from hfrom, show toLowerCase text =
        toLowerCase contract from hwritten]
  · rintro rfl
    refine ⟨hto, List.any_eq_true.mpr ⟨contract, hcontract, ?_⟩⟩
    simp only [found, Option.all_some, htext, Option.any_some, Bool.and_eq_true, beq_iff_eq,
      decide_eq_true_eq]
    exact ⟨⟨hnetwork.symm, hfrom⟩, hwritten⟩

/-! ## The rows of a contract -/

/-- What the contract of a collection returns for a place of an enumeration: the id of
the token there, or nothing where the call is lost. -/
def Tells (returned : Returned) : Option ℕ → Prop
  | some tokenId => returned = ⟨true, encodeWord tokenId⟩ ∧ tokenId < 2 ^ 256
  | none => Silent returned

/-- The contract enumerates the tokens of a holder, in as many places as it has tokens. -/
structure Enumerates (node : Node) (token holder : Address) (places : List (Option ℕ)) :
    Prop where
  balanceOf : node.chain.staticcall token ⟨0x70a08231, [holder]⟩ =
    ⟨true, encodeWord places.length⟩
  length_lt : places.length < 2 ^ 256
  tells : ∀ i place, places[i]? = some place →
    Tells (node.batch i ⟨token, tokenOfOwnerByIndex holder i⟩) place

/-- The node lets the service know them. -/
structure Told (node : Node) (contract walletAddress : String) (places : List (Option ℕ)) :
    Prop where
  balanceFault : node.balanceFault = none
  batchFault : node.batchFault = none
  enumerates : ∃ token holder, node.encodeAddress contract = .ok token ∧
    node.encodeAddress walletAddress = .ok holder ∧ Enumerates node token holder places

/-- The tokens that the contract tells of. -/
def held (places : List (Option ℕ)) : List ℕ := places.filterMap id

theorem decodeIndex_of_tells {returned : Returned} {place : Option ℕ} (h : Tells returned place) :
    decodeIndex (indexResult returned) = .ok place := by
  cases place with
  | some tokenId =>
    obtain ⟨hreturned, hlt⟩ := h
    have hword := decodeUint_encodeWord hlt hlt []
    rw [List.append_nil] at hword
    have hbytes : (encodeWord tokenId).isEmpty = false :=
      List.isEmpty_eq_false_iff.mpr (encodeWord_ne_nil tokenId)
    rw [hreturned]
    simp only [indexResult, hbytes, Bool.not_false, Bool.and_self, if_true, hword]
    rfl
  | none =>
    have hnone : (returned.success && !returned.data.isEmpty) = false := by
      rcases h with hfailed | hempty
      · rw [hfailed]
        rfl
      · rw [hempty, List.isEmpty_nil, Bool.not_true, Bool.and_false]
    rw [indexResult, hnone]
    rfl

/-- What a service searches the rows of a contract by. -/
def contractQuery (params : Params) (protocol : ℕ) (contract : String) (tokenIds : List ℕ) :
    NFTokenSearchQuery :=
  { params.query with
    protocolId := some protocol, address := some contract
    indexes := some (tokenIds.map Nat.repr) }

variable {registered : Registered} {contract : String}

/-- Whatever the node answers, the rows are some that the search of the contract finds. -/
theorem mem_contractRows {row : NFTokenRow}
    (h : row ∈ contractRows registered db walletAddress params contract) :
    ∃ tokenIds, ∃ s ∈ db.nfTokens.rows, s.row = row ∧
      nfTokenWhere db (contractQuery params registered.protocol contract tokenIds) s = true := by
  unfold contractRows at h
  cases hinfo : getNFTokenWalletInfo (surroundings db registered.node) registered.protocol contract
      walletAddress params with
  | error e =>
    rw [hinfo] at h
    cases h
  | ok rows =>
    rw [hinfo] at h
    change row ∈ rows at h
    unfold getNFTokenWalletInfo at hinfo
    obtain ⟨balance, _, hinfo⟩ := Eff.except_bind_eq_ok.mp hinfo
    by_cases hzero : balance = 0
    · rw [if_pos hzero] at hinfo
      cases hinfo
      cases h
    rw [if_neg hzero] at hinfo
    obtain ⟨results, _, hinfo⟩ := Eff.except_bind_eq_ok.mp hinfo
    obtain ⟨decoded, _, hinfo⟩ := Eff.except_bind_eq_ok.mp hinfo
    have hmem := (search_sublist hinfo).subset h
    obtain ⟨s, hs, rfl⟩ := List.mem_map.mp hmem
    obtain ⟨hstored, hwhere⟩ := List.mem_filter.mp ((db.arrange_perm _ _).subset hs)
    exact ⟨_, s, hstored, rfl, hwhere⟩

/-- A row of a contract is one of the protocol of its service. -/
theorem protocol_of_contractRows {row : NFTokenRow}
    (h : row ∈ contractRows registered db walletAddress params contract) :
    ∃ protocol, protocolOf db row = some protocol ∧ protocol.id = registered.protocol := by
  obtain ⟨tokenIds, s, _, rfl, hwhere⟩ := mem_contractRows h
  simp only [nfTokenWhere, contractQuery, Bool.and_eq_true, Option.all_some] at hwhere
  obtain ⟨protocol, hjoined, hprotocol⟩ := (Option.any_eq_true _ _).mp hwhere.1.1.1.1.1
  have hid : registered.protocol = protocol.id := by
    simpa using (Bool.and_eq_true_iff.mp hprotocol).2
  exact ⟨protocol, hjoined, hid.symm⟩

/-- And it is at the address of the contract. -/
theorem address_of_contractRows (hne : contract ≠ "") {row : NFTokenRow}
    (h : row ∈ contractRows registered db walletAddress params contract) :
    sameText row.address contract := by
  obtain ⟨tokenIds, s, _, rfl, hwhere⟩ := mem_contractRows h
  have hgiven : given (some contract) = some contract :=
    Option.filter_some_pos (by simpa using hne)
  simp only [nfTokenWhere, contractQuery, hgiven, Bool.and_eq_true, Option.all_some,
    decide_eq_true_eq] at hwhere
  exact hwhere.1.1.2

section
variable {token holder : Address} {places : List (Option ℕ)}

theorem balanceOf_of_enumerates (h : Enumerates node token holder places) :
    safeERC721BalanceOf node.chain token holder = .ok places.length := by
  have hword := decodeUint_encodeWord h.length_lt h.length_lt []
  rw [List.append_nil] at hword
  have hfield := field_of_encoded Multicalls.MultiCall.UNKNOWN_UINT h.balanceOf
    (encodeWord_ne_nil _) hword
  exact safeDecode_eq_ok_iff.mpr ⟨hfield.1, hfield.2.symm⟩

/-- The results of the calls, by the places that they are about. -/
theorem results_eq (node : Node) (token holder : Address) (places : List (Option ℕ)) :
    ((((fillSequenceNumber places.length 0).map fun index =>
        (⟨token, tokenOfOwnerByIndex holder index⟩ : Call)).mapIdx node.batch).map indexResult) =
      places.mapIdx fun i _ =>
        indexResult (node.batch i ⟨token, tokenOfOwnerByIndex holder i⟩) := by
  refine List.ext_getElem (by simp [fillSequenceNumber]) fun i _ _ => ?_
  simp [fillSequenceNumber]

theorem decoded_of_enumerates (h : Enumerates node token holder places) :
    ((((fillSequenceNumber places.length 0).map fun index =>
        (⟨token, tokenOfOwnerByIndex holder index⟩ : Call)).mapIdx node.batch).map
          indexResult).mapM decodeIndex = .ok places := by
  have hown : (places.mapIdx fun i _ =>
      indexResult (node.batch i ⟨token, tokenOfOwnerByIndex holder i⟩)).mapM decodeIndex =
      .ok (places.mapIdx fun _ place => place) :=
    mapM_mapIdx_of_ok fun i _ hplace => decodeIndex_of_tells (h.tells i _ hplace)
  have hplaces : places.mapIdx (fun _ place => place) = places :=
    List.ext_getElem (by simp) fun i _ _ => by simp
  rw [results_eq, hown, hplaces]

/-- Where the contract enumerates the tokens of the wallet, the search is for the tokens
it tells of. -/
theorem getNFTokenWalletInfo_of_told (h : Told node contract walletAddress places)
    (protocol : ℕ) :
    getNFTokenWalletInfo (surroundings db node) protocol contract walletAddress params =
      if places.length = 0 then .ok [] else
        search db (contractQuery params protocol contract (held places))
          (transform params.pagination) := by
  obtain ⟨token, holder, htoken, hholder, hplaces⟩ := h.enumerates
  have hbalance : (surroundings db node).getSafeERC721BalanceOf contract walletAddress =
      .ok places.length := by
    simp only [surroundings, htoken, hholder, h.balanceFault, bind, Except.bind]
    rw [balanceOf_of_enumerates hplaces]
    rfl
  have hbatch : (surroundings db node).getBatchStaticAggregator contract walletAddress
      (fillSequenceNumber places.length 0) =
      .ok ((((fillSequenceNumber places.length 0).map fun index =>
        (⟨token, tokenOfOwnerByIndex holder index⟩ : Call)).mapIdx node.batch).map
          indexResult) := by
    simp only [surroundings, htoken, hholder, h.batchFault, staticAggregate_false, bind,
      Except.bind]
  unfold getNFTokenWalletInfo
  rw [hbalance]
  simp only [bind, Except.bind]
  by_cases hzero : places.length = 0
  · rw [if_pos hzero, if_pos hzero]
    rfl
  · rw [if_neg hzero, if_neg hzero, hbatch]
    simp only [decoded_of_enumerates hplaces]
    rfl

/-- Without a page they are the rows of these tokens. -/
theorem contractRows_perm (h : Told registered.node contract walletAddress places)
    (hunpaged : params.pagination = ⟨none, none⟩) :
    (contractRows registered db walletAddress params contract).Perm
      ((db.nfTokens.rows.filter (nfTokenWhere db
        (contractQuery params registered.protocol contract (held places)))).map Stored.row) := by
  rw [contractRows, getNFTokenWalletInfo_of_told h, hunpaged]
  by_cases hnone : held places = []
  · -- no token is told of, and no row has an index of none
    have hrows : db.nfTokens.rows.filter (nfTokenWhere db
        (contractQuery params registered.protocol contract (held places))) = [] := by
      refine List.filter_eq_nil_iff.mpr fun s _ => ?_
      simp [nfTokenWhere, contractQuery, hnone]
    rw [hrows]
    by_cases hzero : places.length = 0
    · rw [if_pos hzero]
      exact List.Perm.refl _
    · have hsyntax : search db (contractQuery params registered.protocol contract (held places))
          (transform ⟨none, none⟩) =
          .error (rawError "ER_PARSE_ERROR: You have an error in your SQL syntax") := by
        rw [search, checkSyntax, hnone]
        rfl
      rw [if_neg hzero, hsyntax]
      exact List.Perm.refl _
  · have hzero : places.length ≠ 0 := by
      intro hzero
      rw [List.eq_nil_of_length_eq_zero hzero] at hnone
      exact hnone rfl
    have hindexes : (contractQuery params registered.protocol contract (held places)).indexes ≠
        some [] := by
      simpa [contractQuery] using hnone
    rw [if_neg hzero, show transform ⟨none, none⟩ = ⟨none, none, none⟩ from rfl,
      search_unpaged hindexes]
    exact (db.arrange_perm _ _).map _

end

/-! ## A result -/

/-- Whether a row is one of a collection. -/
def atContract (contract : String) (row : NFTokenRow) : Bool :=
  decide (sameText row.address contract)

/-- Whether a row is one of a collection, under a protocol. -/
def ofCollection (protocol contract : String) (row : NFTokenRow) : Bool :=
  row.protocol == protocol && atContract contract row

/-- A request about a collection: its service is asked, about a wallet that has called
the contract, and the query has no condition on the rows that stays, and no page. -/
structure Asks (sources : Sources) (walletAddress : String) (params : Params)
    (registered : Registered) (protocol : Protocol) (contract : String) : Prop where
  service : getService sources registered.protocol = some registered
  known : registered.service ∈ nftServices
  contract_mem : contract ∈ registered.service.contracts
  protocol_mem : protocol ∈ sources.db.protocols
  protocol_id : protocol.id = registered.protocol
  protocol_status : protocol.status = true
  network_status : protocol.network_status = true
  called : Called registered.service sources.interactions registered.network walletAddress
    contract
  asked : ∀ ids, protocolIds sources params = .ok ids → registered.protocol ∈ ids
  id_free : params.query.id = none
  index_free : params.query.index = none
  unpaged : params.pagination = ⟨none, none⟩

theorem protocolIds_nodup {ids : List ℕ} (h : protocolIds sources params = .ok ids) :
    ids.Nodup := by
  unfold protocolIds at h
  split at h
  · exact nodup_searchDistinct h
  · cases h
    exact nodup_searchProtocols _

variable {protocol : Protocol}

theorem protocolOf_of_name (h : Asks sources walletAddress params registered protocol contract)
    {row : NFTokenRow} (hname : row.protocol = protocol.name) :
    protocolOf sources.db row = some protocol :=
  protocolOf_eq_some_iff.mpr ⟨h.protocol_mem, hname.symm⟩

/-- Only the service of the protocol shows its rows. -/
theorem shown_of_other (h : Asks sources walletAddress params registered protocol contract)
    {id : ℕ} (hid : id ≠ registered.protocol) :
    (shown ((serviceTokens sources walletAddress params id).toOption.getD [])).filter
      (ofCollection protocol.name contract) = [] := by
  refine List.filter_eq_nil_iff.mpr fun row hrow hof => ?_
  have hname : row.protocol = protocol.name := by
    simpa using (Bool.and_eq_true_iff.mp hof).1
  unfold serviceTokens at hrow
  cases hservice : getService sources id with
  | none =>
    rw [hservice] at hrow
    cases hrow
  | some other =>
    rw [hservice] at hrow
    have hother : other.protocol = id := by simpa using List.find?_some hservice
    cases hitems : getWalletNFTokens (surroundings sources.db other.node) other.protocol
        other.service sources.interactions other.network walletAddress params with
    | error e =>
      simp only [hitems] at hrow
      cases hrow
    | ok items =>
      simp only [hitems] at hrow
      change row ∈ shown items at hrow
      rw [shown_getWalletNFTokens hitems] at hrow
      obtain ⟨run, _, hrun⟩ := List.mem_flatMap.mp hrow
      obtain ⟨joined, hjoined, hjoinedId⟩ := protocol_of_contractRows hrun
      rw [protocolOf_of_name h hname] at hjoined
      cases hjoined
      exact hid (hother.symm.trans (hjoinedId.symm.trans h.protocol_id))

/-- What a result shows of a collection is what the function of its contract found. -/
theorem shown_of_asks (h : Asks sources walletAddress params registered protocol contract)
    {items : List (Element NFTokenRow)}
    (hitems : getWalletNFTokenInfos sources walletAddress params = .ok items) :
    (shown items).filter (ofCollection protocol.name contract) =
      (contractRows registered sources.db walletAddress params contract).filter
        (ofCollection protocol.name contract) := by
  obtain ⟨ids, hids, hitems⟩ := Eff.except_bind_eq_ok.mp hitems
  obtain ⟨result, hresult, hitems⟩ := Eff.except_bind_eq_ok.mp hitems
  cases hitems
  have hasked := h.asked ids hids
  have htells := tellsApart_of_mem h.known
  have hcount : ids.count registered.protocol = 1 :=
    List.count_eq_one_of_mem (protocolIds_nodup hids) hasked
  obtain ⟨own, hown⟩ := Eff.except_mapM_ok_iff.mp ⟨result, hresult⟩ _ hasked
  have hservice := hown
  rw [serviceTokens, h.service] at hservice
  rw [shown_flatten, Eff.except_mapM_eq_map hresult [], List.flatMap_map,
    filter_flatMap_of_others (c := registered.protocol) fun id _ hid => shown_of_other h hid,
    hcount, hown, List.replicate_one, List.flatten_singleton]
  change (shown own).filter _ = _
  rw [shown_getWalletNFTokens hservice, filter_flatMap_of_others (c := contract),
    count_runs_of_called htells h.contract_mem h.called, List.replicate_one,
    List.flatten_singleton]
  intro other hother hne
  refine List.filter_eq_nil_iff.mpr fun row hrow hof => ?_
  obtain ⟨address, _, hswitch⟩ := List.mem_filterMap.mp hother
  have hmem := (htells.same address other hswitch).1
  have hsame := address_of_contractRows (htells.nonempty other hmem) hrow
  have hat : sameText row.address contract := of_decide_eq_true (Bool.and_eq_true_iff.mp hof).2
  exact hne (htells.apart_inj hmem h.contract_mem (hsame.symm.trans hat))

/-! ## The table -/

/-- The indexes of a query are those of the tokens. -/
theorem any_repr_iff (tokenIds : List ℕ) (index : ℕ) :
    (tokenIds.map Nat.repr).any (· == index.repr) = decide (index ∈ tokenIds) := by
  rw [Bool.eq_iff_iff, List.any_eq_true, decide_eq_true_iff]
  constructor
  · rintro ⟨text, htext, hsame⟩
    obtain ⟨tokenId, hmem, rfl⟩ := List.mem_map.mp htext
    have hnumber := congrArg GroupBy.number (eq_of_beq hsame)
    rw [GroupBy.number_repr, GroupBy.number_repr] at hnumber
    exact hnumber ▸ hmem
  · exact fun hmem => ⟨index.repr, List.mem_map_of_mem hmem, beq_self_eq_true _⟩

/-- The rows of the collection are under the protocol and switched on. -/
structure Active (db : Database) (protocol contract : String) : Prop where
  protocol : ∀ s ∈ db.nfTokens.rows, atContract contract s.row = true → s.row.protocol = protocol
  status : ∀ s ∈ db.nfTokens.rows, atContract contract s.row = true → db.status s = true

/-- The search finds the rows of the collection that are told of. -/
theorem nfTokenWhere_iff (h : Asks sources walletAddress params registered protocol contract)
    (hactive : Active sources.db protocol.name contract) (tokenIds : List ℕ)
    {s : Stored NFTokenRow} (hs : s ∈ sources.db.nfTokens.rows) :
    (ofCollection protocol.name contract s.row && nfTokenWhere sources.db
        (contractQuery params registered.protocol contract tokenIds) s) =
      (decide (s.row.index ∈ tokenIds) && atContract contract s.row) := by
  by_cases hat : atContract contract s.row = true
  · have hname := hactive.protocol s hs hat
    have hgiven : given (some contract) = some contract :=
      Option.filter_some_pos (by
        simpa using (tellsApart_of_mem h.known).nonempty contract h.contract_mem)
    have hsame : decide (sameText s.row.address contract) = true := hat
    rw [ofCollection, hat, hname, beq_self_eq_true, nfTokenWhere, protocolOf_of_name h hname]
    simp only [contractQuery, h.id_free, h.index_free, hgiven, any_repr_iff, Option.any_some,
      Option.all_some, Option.all_none, h.protocol_status, h.network_status, h.protocol_id,
      hactive.status s hs hat, hsame, beq_self_eq_true, Bool.and_true, Bool.true_and]
  · rw [Bool.not_eq_true] at hat
    rw [ofCollection, hat, Bool.and_false, Bool.and_false, Bool.false_and]

/-- A result shows the rows of a collection whose tokens the wallet is told to hold. -/
theorem shown_perm {places : List (Option ℕ)}
    (h : Asks sources walletAddress params registered protocol contract)
    (htold : Told registered.node contract walletAddress places)
    (hactive : Active sources.db protocol.name contract) {items : List (Element NFTokenRow)}
    (hitems : getWalletNFTokenInfos sources walletAddress params = .ok items) :
    ((shown items).filter (ofCollection protocol.name contract)).Perm
      ((sources.db.nfTokens.part (atContract contract)).filter
        fun row => decide (row.index ∈ held places)) := by
  have hfound : (contractRows registered sources.db walletAddress params contract).Perm _ :=
    contractRows_perm htold h.unpaged
  have hrows := hfound.filter (ofCollection protocol.name contract)
  rw [shown_of_asks h hitems]
  refine hrows.trans (List.Perm.of_eq ?_)
  rw [Table.part, Table.contents, List.filter_map, List.filter_map, List.filter_map,
    List.filter_filter, List.filter_filter]
  refine congrArg (List.map Stored.row) (List.filter_congr fun s hs => ?_)
  exact nfTokenWhere_iff h hactive (held places) hs

/-! ## From the collection to the wallet -/

theorem filter_map_congr {α β γ : Type} {f : α → γ} {g : β → γ} {xs : List α} {ys : List β}
    (h : xs.map f = ys.map g) (p : γ → Bool) :
    (xs.filter fun x => p (f x)).map f = (ys.filter fun y => p (g y)).map g := by
  have hfiltered := congrArg (List.filter p) h
  rwa [List.filter_map, List.filter_map] at hfiltered

variable {job : NFTJob} {site : Site} {c : Collection} {envs : List Env} {d : Db NFTokens}

/-- The rows of a collection after the runs of its job on a table that had none. -/
theorem collection_rows (hcursor : cursor d = 0)
    (hnone : d.tables.part (atContract job.nfTokenAddress) = [])
    (hlisted : Listed job site c d (runAll step envs d)) :
    ∃ rows, (runAll step envs d).tables.part (atContract job.nfTokenAddress) = rows ∧
      rows.map listing =
        (List.range (cursor (runAll step envs d))).map (listingAt job site c) := by
  obtain ⟨rows, hstored, hrows⟩ := hlisted.added
  rw [hcursor, Nat.sub_zero, ← List.range_eq_range'] at hrows
  refine ⟨rows, ?_, hrows⟩
  have hown : ∀ row ∈ rows, atContract job.nfTokenAddress row = true := by
    intro row hrow
    have hmem : listing row ∈ rows.map listing := List.mem_map_of_mem hrow
    rw [hrows] at hmem
    obtain ⟨index, _, hindex⟩ := List.mem_map.mp hmem
    have haddress : row.address = job.nfTokenAddress :=
      (congrArg (fun l => l.2.1) hindex).symm
    rw [atContract, haddress]
    exact decide_eq_true rfl
  have hcontents : (runAll step envs d).tables.contents = d.tables.contents ++ rows := hstored
  rw [Table.part, hcontents, List.filter_append, List.filter_eq_self.mpr hown]
  rw [Table.part] at hnone
  rw [hnone, List.nil_append]

/-- **A wallet is shown what it holds.** A job lists a collection that answers, in any
runs, and a wallet that has called the contract, at an address that the switch of its
service takes for it, asks for its NF tokens. Of the collection it is shown exactly the
tokens that the job has passed and that the contract tells of as the wallet's, each once,
with its own id and URI. -/
theorem held_tokens_listed (job : NFTJob) (site : Site) (c : Collection) (envs : List Env)
    (d : Db NFTokens) (sources : Sources) (walletAddress : String) (params : Params)
    (registered : Registered) (protocol : Protocol) (places : List (Option ℕ))
    (items : List (Element NFTokenRow)) (hcursor : cursor d = 0)
    (hnone : d.tables.part (atContract job.nfTokenAddress) = [])
    (hreads : ∀ env ∈ envs, ∃ source columns, Reads job site source columns env ∧
      Exact columns ∧ AnsweredBelow site source c env)
    (hcommits : ∀ p ∈ starts step envs d, ¬ CommitFailsFirst p.1 p.2)
    (hname : protocol.name = site.protocol)
    (htable : sources.db.nfTokens.part (atContract job.nfTokenAddress) =
      (runAll step envs d).tables.part (atContract job.nfTokenAddress))
    (hstatus : ∀ s ∈ sources.db.nfTokens.rows, atContract job.nfTokenAddress s.row = true →
      sources.db.status s = true)
    (hasks : Asks sources walletAddress params registered protocol job.nfTokenAddress)
    (htold : Told registered.node job.nfTokenAddress walletAddress places)
    (hitems : getWalletNFTokenInfos sources walletAddress params = .ok items) :
    (((shown items).filter (ofCollection protocol.name job.nfTokenAddress)).map listing).Perm
      (((List.range (cursor (runAll step envs d))).filter
        fun index => decide (c.ids index ∈ held places)).map (listingAt job site c)) := by
  have hlisted : Listed job site c d (runAll step envs d) := by
    refine runAll_rel Listed.refl (fun _ _ _ => Listed.trans) fun env t ht => ?_
    obtain ⟨source, columns, hread, hexact, hanswered⟩ := hreads env (env_mem_of_starts ht)
    exact listed_step hread hexact hanswered (hcommits (env, t) ht)
  obtain ⟨rows, hpart, hrows⟩ := collection_rows hcursor hnone hlisted
  have hactive : Active sources.db protocol.name job.nfTokenAddress := by
    refine ⟨fun s hs hat => ?_, hstatus⟩
    have hmem : s.row ∈ rows := by
      rw [← hpart, ← htable]
      exact List.mem_filter.mpr ⟨List.mem_map_of_mem hs, hat⟩
    have hlisting : listing s.row ∈ rows.map listing := List.mem_map_of_mem hmem
    rw [hrows] at hlisting
    obtain ⟨index, _, hindex⟩ := List.mem_map.mp hlisting
    exact (congrArg Prod.fst hindex).symm.trans hname.symm
  have hshown := (shown_perm hasks htold hactive hitems).map listing
  rw [htable, hpart] at hshown
  have hfiltered := filter_map_congr hrows fun l => decide (l.2.2.1 ∈ held places)
  exact hshown.trans (List.Perm.of_eq hfiltered)

/-! ## A wallet that holds the second token -/

def wallet : String := "0x0000000000000000000000000000000000000007"

/-- The wallet has two tokens, and an interaction stored in lower case. One call is lost,
the other tells of the token `101`. -/
def exampleNode : Node where
  encodeAddress text :=
    .ok (if text = wallet then 7 else 0xdf7952b35f24acf7fc0487d01c8d5690a60dba07)
  chain := ⟨fun _ _ => ⟨true, encodeWord 2⟩, fun _ => 0⟩
  batch i _ := if i = 0 then ⟨true, encodeWord 101⟩ else ⟨false, []⟩
  callException _ := rawError "missing revert data in call exception"
  balanceFault := none
  batchFault := none

def exampleProtocol : Protocol := ⟨1, "PancakeSwap", true, true, true⟩

def exampleSources : Sources where
  db :=
    { nfTokens := (runAll step [exampleRun 2, exampleRun 2] exampleDb).tables
      status := fun _ => true
      protocols := [exampleProtocol]
      ids_distinct := List.nodup_singleton _
      names_distinct := List.nodup_singleton _
      arrange := fun _ rows => rows
      arrange_perm := fun _ _ => List.Perm.refl _
      arrangeIds := id
      arrangeIds_perm := List.Perm.refl }
  interactions := Table.empty.insertAll
    [⟨56, wallet, some "0xdf7952b35f24acf7fc0487d01c8d5690a60dba07"⟩]
  registered := [⟨1, 56, PancakeSwapBSCService.service, exampleNode⟩]

theorem example_told :
    Told exampleNode NFTJob.pancakeSwap.nfTokenAddress wallet [some 101, none] := by
  refine ⟨rfl, rfl, _, 7, rfl, rfl, rfl, by decide, fun i place hplace => ?_⟩
  obtain _ | _ | i := i
  · cases hplace
    exact ⟨rfl, by decide⟩
  · cases hplace
    exact Or.inl rfl
  · cases hplace

theorem example_asks : Asks exampleSources wallet {} ⟨1, 56, PancakeSwapBSCService.service,
    exampleNode⟩ exampleProtocol NFTJob.pancakeSwap.nfTokenAddress where
  service := rfl
  known := List.mem_cons_of_mem _ (List.mem_cons_of_mem _ List.mem_cons_self)
  contract_mem := List.mem_cons_self
  protocol_mem := List.mem_singleton_self _
  protocol_id := rfl
  protocol_status := rfl
  network_status := rfl
  called := called_pancakeSwap List.mem_cons_self (List.mem_singleton_self _) rfl rfl rfl
    (by decide +kernel)
  asked := fun ids hids => by
    cases hids
    exact List.mem_singleton_self _
  id_free := rfl
  index_free := rfl
  unpaged := rfl

/-- The wallet is shown the token that it holds, and not the other one. -/
theorem second_token_shown : ∃ items,
    getWalletNFTokenInfos exampleSources wallet {} = .ok items ∧
      (((shown items).filter (ofCollection "PancakeSwap" NFTJob.pancakeSwap.nfTokenAddress)).map
        listing).Perm [("PancakeSwap", NFTJob.pancakeSwap.nfTokenAddress, 101,
          some "https://ipfs.io/ipfs/Q")] := by
  have hok : (getWalletNFTokenInfos exampleSources wallet {}).toOption.isSome = true := by
    decide +kernel
  cases hitems : getWalletNFTokenInfos exampleSources wallet {} with
  | error e =>
    rw [hitems] at hok
    cases hok
  | ok items =>
    have hshown := held_tokens_listed .pancakeSwap exampleSite exampleCollection
      [exampleRun 2, exampleRun 2] exampleDb exampleSources wallet {} _ exampleProtocol
      [some 101, none] items rfl rfl
      (fun env henv => by
        obtain rfl : env = exampleRun 2 := by simpa using henv
        refine ⟨exampleSource, exampleColumns, rfl, exampleColumns_exact, ?_⟩
        intro networkPid hnetwork i index hindex
        cases hnetwork
        exact example_answered hindex)
      (fun p hp hfails => by
        have hrun : p.1 = exampleRun 2 := by simpa using env_mem_of_starts hp
        have hfault := hfails.1
        rw [hrun] at hfault
        cases hfault)
      rfl (by simp only [exampleSources]) (fun _ _ _ => rfl) example_asks example_told hitems
    refine ⟨items, rfl, hshown.trans (List.Perm.of_eq ?_)⟩
    decide +kernel

end BlockchainTask.Wallet.HeldNFTokens

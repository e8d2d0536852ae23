import BlockchainTask.Interaction.Requests
import BlockchainTask.Repository.FarmPages
import BlockchainTask.Wallet.FarmInfos

/-! # From a transaction to the farms of a wallet

The farm request of a wallet on the tables themselves: the farms as the repository
searches them, and the interactions as the jobs and the requests leave them. A wallet
that has sent a transaction to the contract of a farm is asked for in that farm, as soon
as its block was passed and for as long as no request deletes the row. -/
namespace BlockchainTask.Wallet.InteractedFarms
open BlockchainTask.Common.Exception BlockchainTask.Helper BlockchainTask.Helper.AnyArray
open BlockchainTask.Interaction.InteractionService BlockchainTask.Interaction.Requests
open BlockchainTask.Library.Distinct BlockchainTask.Library.Runs BlockchainTask.Library.Store
open BlockchainTask.Repository.FarmPages BlockchainTask.Repository.FarmSearch
open BlockchainTask.SchedulerJob.InteractionCoverage (cursor)
open BlockchainTask.SchedulerJob.InteractionTemplate
open BlockchainTask.Wallet.FarmInfos
open BlockchainTask.Wallet.WalletService (FarmInfoItem Services Tables walletFarms
  getWalletFarmInfos)

/-! ## The queries -/

/-- `_searchDistinct(params, 'farm.address')`. An address that is null is that of no
interaction. -/
def searchDistinct (db : Database) (query : FarmSearchQuery) : Except Thrown (List String) := do
  checkSyntax query
  pure (distinctOn toLowerCase
    ((searchQueryBuilder db query).filterMap fun row => row.farm.address))

/-- The addresses of the first query of a request. A statement that is refused makes the
request reject: no farm is asked for then either. -/
def distinctAddresses (db : Database) (query : FarmSearchQuery) : List String :=
  (searchDistinct db query).toOption.getD []

/-- `{ ...params, addresses }`. -/
def withAddresses (query : FarmSearchQuery) (addresses : List String) : FarmSearchQuery :=
  { query with addresses := some addresses }

structure Params where
  query : FarmSearchQuery
  pagination : PaginationRequest

/-- What a service reads of a farm that the search finds. -/
def walletFarm (item : FarmItem) : WalletService.Farm :=
  ⟨item.id, item.protocol.id, item.name, item.address, item.pid⟩

def farmRow (farm : Farm) : WalletService.Farm :=
  ⟨farm.id, farm.protocol.id, farm.name, farm.address, farm.pid⟩

def farmTables (db : Database) (interactions : Interactions) : Tables Params where
  searchDistinct params := distinctAddresses db params.query
  search params addresses :=
    ((search db (withAddresses params.query addresses)
      (transform params.pagination)).toOption.getD []).map walletFarm
  interactions := interactions

variable {db : Database} {query : FarmSearchQuery} {interactions : Interactions}
  {walletAddress : String}

/-! ## What they find -/

/-- The farms of the rows that are found are those that match. -/
theorem found_iff {row : Farm} :
    (∃ found ∈ searchQueryBuilder db query, found.farm = row) ↔
      row ∈ db.farms ∧ Matches db query row := by
  constructor
  · rintro ⟨found, hfound, rfl⟩
    obtain ⟨hfarm, hwhere, ⟨stake, hstake, _, hstakeWhere⟩, reward, hreward, _, hrewardWhere⟩ :=
      mem_searchQueryBuilder.mp hfound
    exact ⟨hfarm, hwhere, ⟨stake, hstake, hstakeWhere⟩, reward, hreward, hrewardWhere⟩
  · rintro ⟨hfarm, hwhere, ⟨stake, hstake, hstakeWhere⟩, reward, hreward, hrewardWhere⟩
    refine ⟨⟨row, some stake, some reward⟩, mem_searchQueryBuilder.mpr ?_, rfl⟩
    exact ⟨hfarm, hwhere, ⟨stake, hstake, rfl, hstakeWhere⟩, reward, hreward, rfl, hrewardWhere⟩

/-- A part of the rows lists farms that match. -/
theorem matches_of_mem_getMany {rows : List Row} {farm : WalletService.Farm}
    (hrows : rows ⊆ searchQueryBuilder db query) (h : farm ∈ (getMany rows).map walletFarm) :
    ∃ row ∈ db.farms, Matches db query row ∧ farm = farmRow row := by
  obtain ⟨item, hitem, rfl⟩ := List.mem_map.mp h
  obtain ⟨first, hfirst, rfl⟩ := List.mem_map.mp hitem
  have hfound := hrows (mem_of_mem_distinctOn hfirst)
  obtain ⟨hfarm, hmatches⟩ := found_iff.mp ⟨first, hfound, rfl⟩
  exact ⟨first.farm, hfarm, hmatches, rfl⟩

/-- All rows list them all. -/
theorem mem_getMany_iff {farm : WalletService.Farm} :
    farm ∈ (getMany (searchQueryBuilder db query)).map walletFarm ↔
      ∃ row ∈ db.farms, Matches db query row ∧ farm = farmRow row := by
  refine ⟨matches_of_mem_getMany (List.Subset.refl _), ?_⟩
  rintro ⟨row, hrow, hmatches, rfl⟩
  obtain ⟨found, hfound, rfl⟩ := found_iff.mpr ⟨hrow, hmatches⟩
  obtain ⟨first, hfirst, hid⟩ := List.mem_map.mp
    (mem_map_distinctOn.mpr (List.mem_map_of_mem (f := farmId) hfound))
  have hfarm := (found_iff.mp ⟨first, mem_of_mem_distinctOn hfirst, rfl⟩).1
  have hsame : first.farm = found.farm := farm_eq_of_id hfarm hrow hid
  refine List.mem_map.mpr ⟨_, List.mem_map_of_mem hfirst, ?_⟩
  rw [← hsame]
  rfl

/-- With any pages a search lists a part of the rows. -/
theorem search_transform (db : Database) {query : FarmSearchQuery}
    (hwritten : query.addresses ≠ some []) (pagination : PaginationRequest) :
    ∃ rows, rows ⊆ searchQueryBuilder db query ∧
      search db query (transform pagination) = .ok (getMany rows) := by
  obtain ⟨page, limit⟩ := pagination
  cases limit with
  | none =>
    refine ⟨_, List.Subset.refl _, ?_⟩
    unfold search checkSyntax
    rw [if_neg hwritten]
    cases page <;> rfl
  | some limit =>
    have hlimit : truthy (some (betweenLimits limit)) = some (pageSize limit) := by
      have hpos := one_le_betweenLimits limit
      exact truthy_of_ne (by omega)
    generalize hskip : truthy (transform ⟨page, some limit⟩).skipItems = offset
    refine ⟨((searchQueryBuilder db query).drop (offset.getD 0)).take (pageSize limit),
      fun _ hrow => List.mem_of_mem_drop (List.mem_of_mem_take hrow), ?_⟩
    unfold search checkSyntax
    rw [if_neg hwritten, hskip,
      show (transform ⟨page, some limit⟩).limit = some (betweenLimits limit) from rfl, hlimit]
    cases offset <;> rfl

/-- The farm is at the address, as the collation compares them. -/
def At (farm : Farm) (address : String) : Prop :=
  ∃ own, farm.address = some own ∧ sameText own address

theorem At.same {farm other : Farm} {address text : String} (h : At farm address)
    (hother : At other address) (htext : At other text) : At farm text := by
  obtain ⟨own, hown, hsame⟩ := h
  obtain ⟨theirs, htheirs, hshared⟩ := hother
  obtain ⟨_, htheirs', hothertext⟩ := htext
  cases htheirs.symm.trans htheirs'
  exact ⟨own, hown, hsame.trans (hshared.symm.trans hothertext)⟩

/-- No farm is at one of no addresses. -/
theorem not_matches_of_empty (h : query.addresses = some []) (row : Farm) :
    ¬ Matches db query row := by
  intro hmatches
  have hwhere := hmatches.1
  rw [farmWhere, h] at hwhere
  simp at hwhere

theorem distinctAddresses_of_written (h : query.addresses ≠ some []) :
    distinctAddresses db query = distinctOn toLowerCase
      ((searchQueryBuilder db query).filterMap fun row => row.farm.address) := by
  unfold distinctAddresses searchDistinct checkSyntax
  rw [if_neg h]
  rfl

theorem distinctAddresses_of_empty (h : query.addresses = some []) :
    distinctAddresses db query = [] := by
  unfold distinctAddresses searchDistinct checkSyntax
  rw [if_pos h]
  rfl

theorem mem_distinctAddresses_iff {address : String} :
    (∃ shown ∈ distinctAddresses db query, sameText address shown) ↔
      ∃ row ∈ db.farms, Matches db query row ∧ At row address := by
  by_cases hempty : query.addresses = some []
  · rw [distinctAddresses_of_empty hempty]
    constructor
    · rintro ⟨_, hshown, _⟩
      cases hshown
    · rintro ⟨row, _, hmatches, _⟩
      exact absurd hmatches (not_matches_of_empty hempty row)
  rw [distinctAddresses_of_written hempty]
  constructor
  · rintro ⟨shown, hshown, hsame⟩
    obtain ⟨found, hfound, haddress⟩ := List.mem_filterMap.mp (mem_of_mem_distinctOn hshown)
    obtain ⟨hfarm, hmatches⟩ := found_iff.mp ⟨found, hfound, rfl⟩
    exact ⟨found.farm, hfarm, hmatches, shown, haddress, hsame.symm⟩
  · rintro ⟨row, hrow, hmatches, own, hown, hsame⟩
    obtain ⟨found, hfound, rfl⟩ := found_iff.mpr ⟨hrow, hmatches⟩
    have hmem : own ∈ (searchQueryBuilder db query).filterMap fun row => row.farm.address :=
      List.mem_filterMap.mpr ⟨found, hfound, hown⟩
    obtain ⟨shown, hshown, htext⟩ := List.mem_map.mp
      (mem_map_distinctOn.mpr (List.mem_map_of_mem (f := toLowerCase) hmem))
    exact ⟨shown, hshown, hsame.symm.trans htext.symm⟩

theorem mem_findInteractionAddresses_iff {addresses : List String} {address : String} :
    address ∈ findInteractionAddresses interactions none walletAddress addresses ↔
      ∃ row ∈ interactions.contents, row.to_address = some address ∧
        sameText row.from_address walletAddress ∧ ∃ shown ∈ addresses, sameText address shown := by
  rw [findInteractionAddresses, List.mem_filterMap]
  refine exists_congr fun row => ?_
  rw [List.mem_filter, and_assoc]
  refine and_congr_right fun _ => ?_
  constructor
  · rintro ⟨hfound, haddress⟩
    obtain ⟨shown, hshown, hfound⟩ := List.any_eq_true.mp hfound
    simp only [found, Option.all_none, Bool.true_and, haddress, Option.any_some,
      Bool.and_eq_true, decide_eq_true_eq] at hfound
    exact ⟨haddress, hfound.1, shown, hshown, hfound.2⟩
  · rintro ⟨haddress, hfrom, shown, hshown, hsame⟩
    refine ⟨List.any_eq_true.mpr ⟨shown, hshown, ?_⟩, haddress⟩
    simp only [found, Option.all_none, Bool.true_and, haddress, Option.any_some,
      Bool.and_eq_true, decide_eq_true_eq]
    exact ⟨hfrom, hsame⟩

/-! ## The farms of a request -/

/-- The conditions of a query but for the one on several addresses. -/
def anyAddress (query : FarmSearchQuery) : FarmSearchQuery := { query with addresses := none }

theorem matches_iff {row : Farm} : Matches db query row ↔
    Matches db (anyAddress query) row ∧
      ∀ texts, query.addresses = some texts → ∃ text ∈ texts, At row text := by
  have hwhere : farmWhere query row = true ↔ farmWhere (anyAddress query) row = true ∧
      ∀ texts, query.addresses = some texts → ∃ text ∈ texts, At row text := by
    simp only [farmWhere, anyAddress, Bool.and_eq_true, Option.all_none, and_true]
    refine and_congr_right fun _ => ?_
    simp only [Option.all_eq_true, Option.any_eq_true, List.any_eq_true, decide_eq_true_eq, At]
    refine forall₂_congr fun texts _ => ?_
    constructor
    · rintro ⟨own, hown, text, htext, hsame⟩
      exact ⟨text, htext, own, hown, hsame⟩
    · rintro ⟨text, htext, own, hown, hsame⟩
      exact ⟨own, hown, text, htext, hsame⟩
  unfold Matches
  rw [hwhere]
  exact ⟨fun h => ⟨⟨h.1.1, h.2⟩, h.1.2⟩, fun h => ⟨⟨h.1.1, h.2⟩, h.1.2⟩⟩

theorem matches_withAddresses_iff {row : Farm} {addresses : List String} :
    Matches db (withAddresses query addresses) row ↔
      Matches db (anyAddress query) row ∧ ∃ address ∈ addresses, At row address := by
  rw [matches_iff]
  refine and_congr_right fun _ => ?_
  constructor
  · intro h
    exact h addresses rfl
  · rintro h texts htexts
    cases htexts
    exact h

/-- The wallet has an interaction with the address of the farm, on whatever network. -/
def Called (interactions : Interactions) (walletAddress : String) (row : Farm) : Prop :=
  ∃ interaction ∈ interactions.contents, sameText interaction.from_address walletAddress ∧
    ∃ address, interaction.to_address = some address ∧ At row address

/-- What is left of a query when its addresses are replaced by those of the interactions
that it leads to. -/
theorem matches_interacted_iff {row : Farm} (hrow : row ∈ db.farms) :
    (Matches db (anyAddress query) row ∧
        ∃ address ∈ findInteractionAddresses interactions none walletAddress
          (distinctAddresses db query), At row address) ↔
      Matches db query row ∧ Called interactions walletAddress row := by
  constructor
  · rintro ⟨hmatches, address, haddress, hat⟩
    obtain ⟨interaction, hmem, hto, hfrom, hshown⟩ :=
      mem_findInteractionAddresses_iff.mp haddress
    refine ⟨matches_iff.mpr ⟨hmatches, fun texts htexts => ?_⟩, interaction, hmem, hfrom,
      address, hto, hat⟩
    -- the farm that the query found at the address satisfies the condition
    obtain ⟨other, _, hother, hotherAt⟩ := mem_distinctAddresses_iff.mp hshown
    obtain ⟨text, htext, hotherText⟩ := (matches_iff.mp hother).2 texts htexts
    exact ⟨text, htext, hat.same hotherAt hotherText⟩
  · rintro ⟨hmatches, interaction, hmem, hfrom, address, hto, hat⟩
    refine ⟨(matches_iff.mp hmatches).1, address, ?_, hat⟩
    exact mem_findInteractionAddresses_iff.mpr
      ⟨interaction, hmem, hto, hfrom, mem_distinctAddresses_iff.mpr ⟨row, hrow, hmatches, hat⟩⟩

/-- The farm is one of the table that matches and that the wallet has called. -/
def Wanted (db : Database) (interactions : Interactions) (walletAddress : String)
    (query : FarmSearchQuery) (farm : WalletService.Farm) : Prop :=
  ∃ row ∈ db.farms, Matches db query row ∧ Called interactions walletAddress row ∧
    farm = farmRow row

theorem wanted_iff {addresses : List String} (haddresses : addresses =
      findInteractionAddresses interactions none walletAddress (distinctAddresses db query))
    {farm : WalletService.Farm} :
    (∃ row ∈ db.farms, Matches db (withAddresses query addresses) row ∧ farm = farmRow row) ↔
      Wanted db interactions walletAddress query farm := by
  refine exists_congr fun row => and_congr_right fun hrow => ?_
  rw [matches_withAddresses_iff, haddresses, matches_interacted_iff hrow, and_assoc]

/-- Without an address there is no farm to ask for. -/
theorem not_wanted_of_nil (h : findInteractionAddresses interactions none walletAddress
    (distinctAddresses db query) = []) {farm : WalletService.Farm} :
    ¬ Wanted db interactions walletAddress query farm := by
  rintro ⟨row, hrow, hmatches, hcalled, _⟩
  obtain ⟨_, address, haddress, _⟩ := (matches_interacted_iff hrow).mpr ⟨hmatches, hcalled⟩
  rw [h] at haddress
  cases haddress

/-- The three queries of a request, as one. -/
theorem walletFarms_cases (db : Database) (interactions : Interactions) (walletAddress : String)
    (params : Params) :
    (walletFarms (farmTables db interactions) walletAddress params = [] ∧
        ∀ farm, ¬ Wanted db interactions walletAddress params.query farm) ∨
      ∃ addresses rows, (withAddresses params.query addresses).addresses ≠ some [] ∧
        addresses = findInteractionAddresses interactions none walletAddress
          (distinctAddresses db params.query) ∧
        rows ⊆ searchQueryBuilder db (withAddresses params.query addresses) ∧
        search db (withAddresses params.query addresses) (transform params.pagination) =
          .ok (getMany rows) ∧
        walletFarms (farmTables db interactions) walletAddress params =
          (getMany rows).map walletFarm := by
  unfold walletFarms farmTables
  simp only
  generalize haddresses : findInteractionAddresses interactions none walletAddress
    (distinctAddresses db params.query) = addresses
  by_cases hnone : addresses.length = 0
  · have hnil := List.eq_nil_of_length_eq_zero hnone
    exact Or.inl ⟨if_pos hnone, fun _ => not_wanted_of_nil (haddresses.trans hnil)⟩
  · have hwritten : (withAddresses params.query addresses).addresses ≠ some [] :=
      fun hnil => hnone (by rw [Option.some.inj hnil]; rfl)
    obtain ⟨rows, hrows, hsearch⟩ := search_transform db hwritten params.pagination
    refine Or.inr ⟨addresses, rows, hwritten, rfl, hrows, hsearch, ?_⟩
    rw [hsearch]
    exact if_neg hnone

/-- Without pages the farms of a request are all that are wanted. -/
theorem mem_walletFarms_iff {farm : WalletService.Farm} :
    farm ∈ walletFarms (farmTables db interactions) walletAddress ⟨query, ⟨none, none⟩⟩ ↔
      Wanted db interactions walletAddress query farm := by
  rcases walletFarms_cases db interactions walletAddress ⟨query, ⟨none, none⟩⟩ with
    ⟨hnone, hwanted⟩ | ⟨addresses, rows, hwritten, haddresses, _, hsearch, hfarms⟩
  · rw [hnone]
    exact ⟨fun hfarm => absurd hfarm List.not_mem_nil, fun h => absurd h (hwanted farm)⟩
  · rw [hfarms, ← Except.ok.inj ((search_unpaged hwritten).symm.trans hsearch)]
    exact mem_getMany_iff.trans (wanted_iff haddresses)

/-- **The farms of a request.** Whatever its query and its pages are, the farms that the
services are asked for are farms of the table, each once, that match the query, and that
the wallet has an interaction with; and without pages they are all of those. -/
theorem walletFarms_wanted (db : Database) (interactions : Interactions) (walletAddress : String)
    (query : FarmSearchQuery) :
    (∀ pagination,
      ((walletFarms (farmTables db interactions) walletAddress ⟨query, pagination⟩).map
        WalletService.Farm.id).Nodup ∧
      ∀ farm ∈ walletFarms (farmTables db interactions) walletAddress ⟨query, pagination⟩,
        Wanted db interactions walletAddress query farm) ∧
    ∀ farm, farm ∈ walletFarms (farmTables db interactions) walletAddress
        ⟨query, ⟨none, none⟩⟩ ↔ Wanted db interactions walletAddress query farm := by
  refine ⟨fun pagination => ?_, fun farm => mem_walletFarms_iff⟩
  rcases walletFarms_cases db interactions walletAddress ⟨query, pagination⟩ with
    ⟨hnone, _⟩ | ⟨addresses, rows, _, haddresses, hrows, _, hfarms⟩
  · rw [hnone]
    exact ⟨List.nodup_nil, fun farm hfarm => absurd hfarm List.not_mem_nil⟩
  · rw [hfarms]
    refine ⟨?_, fun farm hfarm => ?_⟩
    · rw [List.map_map]
      show ((getMany rows).map FarmItem.id).Nodup
      rw [getMany_ids]
      exact nodup_map_distinctOn _
    · exact (wanted_iff haddresses).mp (matches_of_mem_getMany hrows hfarm)

/-! ## From a block to the response -/

/-- The transaction was sent to the contract of the farm. -/
def SentTo (tx : Transaction) (row : Farm) : Prop :=
  ∃ address, tx.to_ = some address ∧ At row address

theorem called_of_recorded {network : ℕ} {tx : Transaction} {row : Farm}
    (h : Recorded network interactions tx) (hfrom : sameText tx.from_ walletAddress)
    (hto : SentTo tx row) : Called interactions walletAddress row := by
  obtain ⟨address, haddress, own, hown, hat⟩ := hto
  obtain ⟨interaction, hmem, hsender, shown, hshown, hreceiver⟩ :=
    interacted_of_recorded h hfrom haddress
  exact ⟨interaction, hmem, hsender, shown, hshown, own, hown, hat.trans hreceiver⟩

/-- The service of the farm's protocol was asked for the farm, and what it reported, if
anything, is in the response. -/
def Reports (services : Services) (walletAddress : String) (farm : WalletService.Farm)
    (result : List (Element FarmInfoItem)) : Prop :=
  ∃ getWalletFarms farms info, services farm.protocol = some getWalletFarms ∧ farm ∈ farms ∧
    getWalletFarms farms walletAddress = .ok info ∧ (info ≠ [] → .array info ∈ result)

theorem reports_of_mem {Query : Type} {tables : Tables Query} {services : Services}
    {completion : WalletService.Completion} {params : Query}
    {result : List (Element FarmInfoItem)} {farm : WalletService.Farm}
    (h : getWalletFarmInfos tables services completion walletAddress params = .ok result)
    (hfarm : farm ∈ walletFarms tables walletAddress params) :
    Reports services walletAddress farm result := by
  have hall := allAnswer_of_ok h
  obtain ⟨answers, hresult, hperm⟩ := getWalletFarmInfos_ok completion hall
  obtain ⟨info, hinfo⟩ := hall farm hfarm
  have hanswered : answered services (walletFarms tables walletAddress params) walletAddress
      farm.protocol = info := by
    rw [answered, hinfo]
    rfl
  have hmem : info ∈ answers := by
    refine hperm.mem_iff.mpr (List.mem_map.mpr ⟨farm.protocol, ?_, hanswered⟩)
    exact mem_protocols.mpr ⟨farm, hfarm, rfl⟩
  unfold protocolAnswer at hinfo
  cases hservice : services farm.protocol with
  | none =>
    rw [hservice] at hinfo
    cases hinfo
  | some getWalletFarms =>
    rw [hservice] at hinfo
    refine ⟨getWalletFarms, _, info, hservice, ?_, hinfo, fun hsome => ?_⟩
    · exact List.mem_filter.mpr ⟨hfarm, by simp⟩
    · obtain rfl := Except.ok.inj (h.symm.trans hresult)
      refine List.mem_map_of_mem (List.mem_filter.mpr ⟨hmem, ?_⟩)
      exact decide_eq_true (List.length_pos_iff.mpr hsome)

variable {chain : ℕ → ℕ → List Transaction}

/-- A request of the sender for the farms that the transaction was sent to, in whatever
case the sender is written, reports them when it returns. -/
def SenderSees (db : Database) (interactions : Interactions) (tx : Transaction) : Prop :=
  ∀ query, ∀ row ∈ db.farms, Matches db query row → SentTo tx row →
    ∀ walletAddress, sameText tx.from_ walletAddress → ∀ services completion result,
      getWalletFarmInfos (farmTables db interactions) services completion walletAddress
        ⟨query, ⟨none, none⟩⟩ = .ok result →
      Reports services walletAddress (farmRow row) result

theorem senderSees_of_recorded {network : ℕ} {tx : Transaction}
    (h : Recorded network interactions tx) : SenderSees db interactions tx := by
  intro query row hrow hmatches hto walletAddress hfrom services completion result hresult
  have hcalled : Called interactions walletAddress row := called_of_recorded h hfrom hto
  exact reports_of_mem hresult (mem_walletFarms_iff.mpr ⟨row, hrow, hmatches, hcalled, rfl⟩)

/-- **From a transaction to the wallet.** However the requests and the runs of all jobs
interleave, when the node's error entries only concern blocks without a transaction to a
contract: each block that the cursor of a network has passed was passed in one run, and
of each transaction that this run found to be sent to a contract the sender sees the
farms that it was sent to, unless a request to delete the transaction's row came to its
delete since. -/
theorem sender_sees_farm {s t : Server} (h : Reaches (step chain) (IdleErrors chain) s t)
    (db : Database) {network b : ℕ} (hstart : cursor (s.db network) ≤ b)
    (hstop : b < cursor (t.db network)) :
    ∃ u env v, Passed chain s t network b u env v ∧
      ∀ tx ∈ chain network b, SentToContract env tx →
        DeletedBetween chain v t network tx ∨ SenderSees db t.interactions tx := by
  obtain ⟨u, env, v, hpassed, htransactions⟩ := passedKept_of_idleErrors h network b hstart hstop
  refine ⟨u, env, v, hpassed, fun tx htx hsent => ?_⟩
  rcases htransactions tx htx hsent with hrecorded | hdeleted
  · exact Or.inr (senderSees_of_recorded hrecorded)
  · exact Or.inl hdeleted

/-! ## A wallet that calls a farm -/

def calledFarm : Farm where
  id := 1
  protocol := exampleProtocol
  name := "farm"
  address := some "0xC1"
  pid := some 0
  assets := "CAKE"
  status := true
  stake_tokens := [cake]
  reward_tokens := [cake]
  stake_distinct := List.nodup_singleton _
  reward_distinct := List.nodup_singleton _

def calledDatabase : Database where
  farms := [calledFarm, oneReward]
  distinct := by decide
  like symbol pattern := "%" ++ symbol ++ "%" == pattern
  arrange _ rows := rows
  arrange_perm _ _ := .rfl

/-- The sender of block `0` asks with its address in another case. -/
theorem caller_sees_farm :
    ∃ t, Reaches (step exampleChains) (IdleErrors exampleChains) exampleServer t ∧
      (∃ u env v, Passed exampleChains exampleServer t 1 0 u env v ∧
        ∀ tx ∈ exampleChains 1 0, SentToContract env tx →
          DeletedBetween exampleChains v t 1 tx ∨
            SenderSees calledDatabase t.interactions tx) ∧
      walletFarms (farmTables calledDatabase t.interactions) "0xA1" ⟨{}, ⟨none, none⟩⟩ =
        [farmRow calledFarm] := by
  have hidle : IdleErrors exampleChains exampleServer (.job 1 exampleEnv) :=
    fun _ _ _ _ _ herror => nomatch herror
  have hrun : Reaches (step exampleChains) (IdleErrors exampleChains) exampleServer _ :=
    .next .start hidle rfl
  exact ⟨_, hrun, sender_sees_farm hrun calledDatabase (by decide) (by decide), by decide⟩

end BlockchainTask.Wallet.InteractedFarms

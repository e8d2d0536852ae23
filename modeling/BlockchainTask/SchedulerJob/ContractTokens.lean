import BlockchainTask.Multicalls.BatchSafety
import BlockchainTask.SchedulerJob.TokenInfos

/-! # Token infos from the batch contract

The calls that the pair jobs read token infos by, as the batch contract answers them.
A batch reverts for a single address that returns bytes which do not decode, and then
every address is asked on its own. So the two ways agree address by address, and what
stands in the way of a batch costs the other addresses nothing. A text that is no UTF-8
does decode, and throws when the job reads it, which no fallback is for. -/
namespace BlockchainTask.SchedulerJob.ContractTokens
open BlockchainTask.Common.Exception BlockchainTask.Helper
open BlockchainTask.Library.Abi BlockchainTask.Library.Effect BlockchainTask.Library.Store
open BlockchainTask.Library.Transaction
open BlockchainTask.Multicalls.MultiCall (Address Chain ERC20Info Returned Revert getBatchERC20Infos
  getERC20TokenInfos isEmptyBytes)
open BlockchainTask.Multicalls.BatchSafety
open BlockchainTask.Repository.Token BlockchainTask.SchedulerJob.Base
open BlockchainTask.SchedulerJob.PairTemplate BlockchainTask.SchedulerJob.TokenInfos

/-! ## The calls -/

/-- A node with the contract on it. A batch and the calls after it are executed on
different blocks, and each request may fail before it is executed. -/
structure Node where
  batch : ℕ → Chain
  own : Chain
  batchFault : Option Thrown
  ownFault : String → Option Thrown
  /-- What the client library throws for an execution that reverted. -/
  callException : Revert → Thrown

/-- How the client library reads an address, and what it throws for the bytes of a text
that are no UTF-8. -/
structure Coder where
  address : String → Address
  invalidText : Bytes → Thrown

def Coder.text (coder : Coder) (bytes : Bytes) : Except Thrown String :=
  match textOf bytes with
  | some text => .ok text
  | none => .error (coder.invalidText bytes)

/-- The entry of an info, as it is read. -/
def Coder.info (coder : Coder) (info : ERC20Info) : InfoEntry := do
  let name ← coder.text info.name
  let symbol ← coder.text info.symbol
  pure ⟨name, symbol, info.decimals⟩

/-- A request that may fail before it is executed, or revert. -/
def Node.request {α β : Type} (node : Node) (fault : Option Thrown) (result : Except Revert α)
    (decode : α → β) : Except Thrown β :=
  match fault with
  | some e => .error e
  | none => (result.map decode).mapError node.callException

/-- The context of a job whose infos the contract gives. -/
def contractContext (node : Node) (coder : Coder) (context : Context) : Context :=
  { context with
    getBatchERC20TokenInfos := fun addresses =>
      node.request node.batchFault (getBatchERC20Infos node.batch (addresses.map coder.address))
        fun infos => infos.map coder.info
    getSafeERC20TokenInfo := fun address =>
      node.request (node.ownFault address) (getERC20TokenInfos node.own (coder.address address))
        coder.info }

variable {node : Node} {coder : Coder} {context : Context}

theorem request_ok_iff {α β : Type} {fault : Option Thrown} {result : Except Revert α}
    {decode : α → β} {b : β} :
    node.request fault result decode = .ok b ↔
      fault = none ∧ ∃ a, result = .ok a ∧ decode a = b := by
  unfold Node.request
  cases fault with
  | some e => simp
  | none =>
    cases result with
    | error e => simp [Except.map, Except.mapError]
    | ok a => simp [Except.map, Except.mapError]

/-! ## What an address answers -/

/-- The texts of an info are UTF-8. -/
structure Reads (info : ERC20Info) (name symbol : String) : Prop where
  name : textOf info.name = some name
  symbol : textOf info.symbol = some symbol

theorem info_of_reads {info : ERC20Info} {name symbol : String} (h : Reads info name symbol) :
    coder.info info = .ok ⟨name, symbol, info.decimals⟩ := by
  simp only [Coder.info, Coder.text, h.name, h.symbol]
  rfl

/-- What the address answers can be read, if it decodes. -/
def Legible (chain : Chain) (token : Address) : Prop :=
  InfoDecodes chain token → ∃ name symbol, Reads (tokenInfo chain token) name symbol

/-- The functions of a token, answered with encoded values. -/
structure IsToken (chain : Chain) (token : Address) (info : ERC20Info) : Prop where
  name : chain.staticcall token ⟨0x06fdde03, []⟩ = ⟨true, encodeString info.name⟩
  symbol : chain.staticcall token ⟨0x95d89b41, []⟩ = ⟨true, encodeString info.symbol⟩
  decimals : chain.staticcall token ⟨0x313ce567, []⟩ = ⟨true, encodeWord info.decimals⟩
  name_le : info.name.length ≤ MAX_OFFSET
  symbol_le : info.symbol.length ≤ MAX_OFFSET
  decimals_lt : info.decimals < 2 ^ 256

structure NoToken (chain : Chain) (token : Address) : Prop where
  name : Silent (chain.staticcall token ⟨0x06fdde03, []⟩)
  symbol : Silent (chain.staticcall token ⟨0x95d89b41, []⟩)
  decimals : Silent (chain.staticcall token ⟨0x313ce567, []⟩)

theorem tokenInfo_of_isToken {chain : Chain} {token : Address} {info : ERC20Info}
    (h : IsToken chain token info) : InfoDecodes chain token ∧ tokenInfo chain token = info := by
  have hword : decodeUint 256 (encodeWord info.decimals) = some info.decimals := by
    simpa using decodeUint_encodeWord h.decimals_lt h.decimals_lt []
  obtain ⟨hname, hnameField⟩ := field_of_encoded Multicalls.MultiCall.UNKNOWN_STRING
    h.name (encodeString_ne_nil _) (decodeString_encodeString h.name_le)
  obtain ⟨hsymbol, hsymbolField⟩ := field_of_encoded
    Multicalls.MultiCall.UNKNOWN_STRING h.symbol (encodeString_ne_nil _)
    (decodeString_encodeString h.symbol_le)
  obtain ⟨hdecimals, hdecimalsField⟩ := field_of_encoded
    Multicalls.MultiCall.UNKNOWN_UINT h.decimals (encodeWord_ne_nil _) hword
  refine ⟨⟨hname, hsymbol, hdecimals⟩, ?_⟩
  rw [tokenInfo, hnameField, hsymbolField, hdecimalsField]

/-- The info of an address that is no token. -/
def unknownERC20 : ERC20Info :=
  ⟨Multicalls.MultiCall.UNKNOWN_STRING, Multicalls.MultiCall.UNKNOWN_STRING,
    Multicalls.MultiCall.UNKNOWN_UINT⟩

theorem tokenInfo_of_noToken {chain : Chain} {token : Address} (h : NoToken chain token) :
    InfoDecodes chain token ∧ tokenInfo chain token = unknownERC20 := by
  refine ⟨⟨(field_of_silent Multicalls.MultiCall.UNKNOWN_STRING h.name).1,
    (field_of_silent Multicalls.MultiCall.UNKNOWN_STRING h.symbol).1,
    (field_of_silent Multicalls.MultiCall.UNKNOWN_UINT h.decimals).1⟩, ?_⟩
  rw [tokenInfo, (field_of_silent _ h.name).2, (field_of_silent _ h.symbol).2,
    (field_of_silent _ h.decimals).2]
  rfl

/-- What the contract takes for unknown reads as what the job does. -/
theorem unknown_reads : Reads unknownERC20 UNKNOWN_STRING UNKNOWN_STRING :=
  ⟨by decide, by decide⟩

/-- The call of an address gives its info, or does not decode and reverts. -/
theorem getERC20TokenInfos_ok {chain : Chain} {token : Address} {info : ERC20Info}
    (h : getERC20TokenInfos chain token = .ok info) :
    InfoDecodes chain token ∧ info = tokenInfo chain token := by
  have hdecodes : InfoDecodes chain token := by
    simp only [getERC20TokenInfos, Eff.except_bind_eq_ok, Multicalls.MultiCall.safeERC20Name,
      Multicalls.MultiCall.safeERC20Symbol, Multicalls.MultiCall.safeERC20Decimals,
      safeDecode_eq_ok_iff] at h
    obtain ⟨_, ⟨hname, _⟩, _, ⟨hsymbol, _⟩, _, ⟨hdecimals, _⟩, _⟩ := h
    exact ⟨hname, hsymbol, hdecimals⟩
  have hown := tokenInfos_eq_ok_iff.mpr hdecodes
  exact ⟨hdecodes, Except.ok.inj (h.symm.trans hown)⟩

/-! ## The two ways -/

/-- What is reported of an address on these two blocks. -/
inductive Reported (node : Node) (coder : Coder) (i : ℕ) (address : String) :
    TokenInfo → Prop where
  | batch {name symbol : String} (decodes : InfoDecodes (node.batch i) (coder.address address))
      (reads : Reads (tokenInfo (node.batch i) (coder.address address)) name symbol) :
      Reported node coder i address
        ⟨name, symbol, (tokenInfo (node.batch i) (coder.address address)).decimals⟩
  | own {name symbol : String} (decodes : InfoDecodes node.own (coder.address address))
      (sent : node.ownFault address = none)
      (reads : Reads (tokenInfo node.own (coder.address address)) name symbol) :
      Reported node coder i address
        ⟨name, symbol, (tokenInfo node.own (coder.address address)).decimals⟩
  | unknown (fails : (node.ownFault address).isSome = true ∨
        ¬ InfoDecodes node.own (coder.address address)) :
      Reported node coder i address unknownInfo

/-- The texts of the addresses can be read, in a batch and on their own. -/
structure AllLegible (node : Node) (coder : Coder) (addresses : List String) : Prop where
  batch : ∀ (i : ℕ) (address : String), addresses[i]? = some address →
    Legible (node.batch i) (coder.address address)
  own : ∀ address ∈ addresses, Legible node.own (coder.address address)

/-- What an own call answers is the info of the address. -/
theorem ownCall_cases {address : String} {entry : InfoEntry}
    (hown : Legible node.own (coder.address address))
    (h : (contractContext node coder context).getSafeERC20TokenInfo address = .ok entry) :
    ∃ info, entry = .ok info ∧ ∀ i, Reported node coder i address info := by
  obtain ⟨hsent, row, hrow, rfl⟩ := request_ok_iff.mp h
  obtain ⟨hdecodes, rfl⟩ := getERC20TokenInfos_ok hrow
  obtain ⟨name, symbol, hreads⟩ := hown hdecodes
  exact ⟨_, info_of_reads hreads, fun _ => .own hdecodes hsent hreads⟩

theorem reported_fallback (i : ℕ) {address : String}
    (hlegible : Legible node.own (coder.address address)) :
    Reported node coder i address
      (fallbackInfo (contractContext node coder context) address) := by
  unfold fallbackInfo
  cases hown : (contractContext node coder context).getSafeERC20TokenInfo address with
  | ok entry =>
    obtain ⟨info, rfl, hreported⟩ := ownCall_cases hlegible hown
    exact hreported i
  | error e =>
    refine .unknown ?_
    by_cases hsent : node.ownFault address = none
    · refine Or.inr fun hdecodes => ?_
      have hok : (contractContext node coder context).getSafeERC20TokenInfo address = .ok _ :=
        request_ok_iff.mpr ⟨hsent, _, tokenInfos_eq_ok_iff.mpr hdecodes, rfl⟩
      cases hown.symm.trans hok
    · exact Or.inl (Option.isSome_iff_ne_none.mpr hsent)

/-- A batch that goes through answers in the order of its addresses. -/
theorem batch_cases {addresses : List String} {entries : List InfoEntry}
    (hlegible : AllLegible node coder addresses)
    (h : (contractContext node coder context).getBatchERC20TokenInfos addresses = .ok entries) :
    entries.length = addresses.length ∧ ∀ (i : ℕ) (address : String),
      addresses[i]? = some address → ∃ info, entries[i]? = some (.ok info) ∧
        Reported node coder i address info := by
  obtain ⟨_, rows, hrows, rfl⟩ := request_ok_iff.mp h
  rw [getBatchERC20Infos, Multicalls.MultiCall.batchOf, Library.IndexedLoop.fill_eq_mapIndex]
    at hrows
  refine ⟨?_, fun i address haddress => ?_⟩
  · rw [List.length_map, Library.IndexedLoop.length_of_mapIndex hrows, List.length_map]
  · have hx : (addresses.map coder.address)[i]? = some (coder.address address) := by
      rw [List.getElem?_map, haddress]
      rfl
    obtain ⟨row, hrow, hi⟩ := Library.IndexedLoop.getElem?_of_mapIndex hrows hx
    obtain ⟨hdecodes, rfl⟩ := getERC20TokenInfos_ok hrow
    obtain ⟨name, symbol, hreads⟩ := hlegible.batch i address haddress hdecodes
    refine ⟨_, ?_, .batch hdecodes hreads⟩
    rw [List.getElem?_map, hi, Option.map_some, info_of_reads hreads]

theorem readable_of_allLegible {addresses : List String}
    (hlegible : AllLegible node coder addresses) :
    Readable (contractContext node coder context) addresses := by
  refine ⟨fun entries hbatch => ?_, fun address haddress entry hown => ?_⟩
  · obtain ⟨hlength, hentries⟩ := batch_cases hlegible hbatch
    refine exists_map_ok fun entry hentry => ?_
    obtain ⟨i, hi, rfl⟩ := List.getElem_of_mem hentry
    obtain ⟨info, hinfo, _⟩ :=
      hentries i _ (List.getElem?_eq_getElem (hlength ▸ hi : i < addresses.length))
    rw [List.getElem?_eq_getElem hi] at hinfo
    exact ⟨info, Option.some.inj hinfo⟩
  · obtain ⟨info, hentry, _⟩ := ownCall_cases (hlegible.own address haddress) hown
    exact ⟨info, hentry⟩

/-- **The two ways agree.** Whichever requests fail and whatever the addresses answer
that can be read, the infos are read, and each is that of the address in its place: what
a batch gave it, or its own call, which is unknown where this failed. -/
theorem getTokenInfos_reported (node : Node) (coder : Coder) (context : Context)
    {addresses : List String} (hlegible : AllLegible node coder addresses)
    (s : Session (Db Tokens) LoggerData) :
    ∃ infos : List TokenInfo,
      getTokenInfos (contractContext node coder context) addresses s =
          (.ok (infos.map .ok), s) ∧
        infos.length = addresses.length ∧ ∀ (i : ℕ) (address : String),
          addresses[i]? = some address → ∃ info, infos[i]? = some info ∧
            Reported node coder i address info := by
  have hreadable : Readable (contractContext node coder context) addresses :=
    readable_of_allLegible hlegible
  cases hbatch : (contractContext node coder context).getBatchERC20TokenInfos addresses with
  | error e =>
    refine ⟨_, getTokenInfos_fallback hreadable hbatch s, List.length_map _,
      fun i address haddress => ?_⟩
    refine ⟨fallbackInfo (contractContext node coder context) address, ?_, reported_fallback i
      (hlegible.own address (List.mem_of_getElem? haddress))⟩
    rw [List.getElem?_map, haddress]
    rfl
  | ok entries =>
    obtain ⟨infos, rfl⟩ := hreadable.batch entries hbatch
    obtain ⟨hlength, hentries⟩ := batch_cases hlegible hbatch
    refine ⟨infos, getTokenInfos_batch hbatch s, ?_, fun i address haddress => ?_⟩
    · rwa [List.length_map] at hlength
    · obtain ⟨info, hentry, hreported⟩ := hentries i address haddress
      rw [List.getElem?_map] at hentry
      obtain ⟨_, hinfo, hok⟩ := Option.map_eq_some_iff.mp hentry
      cases hok
      exact ⟨info, hinfo, hreported⟩

/-! ## The rows -/

/-- Whatever of the address decodes is what the contract takes for unknown. -/
def Unknown (chain : Chain) (token : Address) : Prop :=
  InfoDecodes chain token → tokenInfo chain token = unknownERC20

theorem unknown_of_noToken {chain : Chain} {token : Address} (h : NoToken chain token) :
    Unknown chain token := fun _ => (tokenInfo_of_noToken h).2

theorem unknown_of_not_decodes {chain : Chain} {token : Address} (h : ¬ InfoDecodes chain token) :
    Unknown chain token := fun hdecodes => absurd hdecodes h

theorem legible_of_isToken {chain : Chain} {token : Address} {info : ERC20Info}
    {name symbol : String} (h : IsToken chain token info) (hreads : Reads info name symbol) :
    Legible chain token := fun _ => ⟨name, symbol, (tokenInfo_of_isToken h).2.symm ▸ hreads⟩

/-- What is taken for unknown can be read. -/
theorem legible_of_unknown {chain : Chain} {token : Address} (h : Unknown chain token) :
    Legible chain token := fun hdecodes => ⟨_, _, (h hdecodes).symm ▸ unknown_reads⟩

theorem reported_token {i : ℕ} {address : String} {info : ERC20Info} {reported : TokenInfo}
    (hbatch : IsToken (node.batch i) (coder.address address) info)
    (hown : IsToken node.own (coder.address address) info) (hsent : node.ownFault address = none)
    (h : Reported node coder i address reported) :
    Reads info reported.name reported.symbol ∧ reported.decimals = info.decimals := by
  cases h with
  | batch _ reads =>
    rw [(tokenInfo_of_isToken hbatch).2] at reads ⊢
    exact ⟨reads, rfl⟩
  | own _ _ reads =>
    rw [(tokenInfo_of_isToken hown).2] at reads ⊢
    exact ⟨reads, rfl⟩
  | unknown fails =>
    rcases fails with hfails | hfails
    · rw [hsent] at hfails
      cases hfails
    · exact absurd (tokenInfo_of_isToken hown).1 hfails

theorem unknown_of_reads {name symbol : String} (h : Reads unknownERC20 name symbol) :
    TokenInfo.mk name symbol unknownERC20.decimals = unknownInfo := by
  obtain rfl := Option.some.inj (unknown_reads.name.symm.trans h.name)
  obtain rfl := Option.some.inj (unknown_reads.symbol.symm.trans h.symbol)
  rfl

theorem reported_unknown {i : ℕ} {address : String} {reported : TokenInfo}
    (hbatch : Unknown (node.batch i) (coder.address address))
    (hown : Unknown node.own (coder.address address))
    (h : Reported node coder i address reported) : reported = unknownInfo := by
  cases h with
  | batch decodes reads =>
    rw [hbatch decodes] at reads ⊢
    exact unknown_of_reads reads
  | own decodes _ reads =>
    rw [hown decodes] at reads ⊢
    exact unknown_of_reads reads
  | unknown _ => rfl

/-- The address has no row yet, and stands first of those that share its key. -/
def IsNew (network : ℕ) (addresses : List String) (s : Session (Db Tokens) LoggerData) (i : ℕ)
    (address : String) : Prop :=
  addresses[i]? = some address ∧
    s.view.tables.lookup (network, toLowerCase address) = none ∧
      ∀ j < i, ∀ other, addresses[j]? = some other → ¬ sameText other address

/-- The row of a new address tells what the address is, as far as its columns do. -/
structure RowOf (node : Node) (coder : Coder) (i : ℕ) (address : String) (row : TokenRow) :
    Prop where
  token : ∀ info, IsToken (node.batch i) (coder.address address) info →
    IsToken node.own (coder.address address) info → node.ownFault address = none →
      ∃ name symbol, Reads info name symbol ∧ row.name = varchar name ∧
        row.symbol = varchar symbol ∧ row.decimals = min info.decimals MAX_INT ∧
          (row.status = true ↔ name ≠ UNKNOWN_STRING ∧ symbol ≠ UNKNOWN_STRING)
  unknown : Unknown (node.batch i) (coder.address address) →
    Unknown node.own (coder.address address) →
      row.name = UNKNOWN_STRING ∧ row.symbol = UNKNOWN_STRING ∧ row.decimals = 0 ∧
        row.status = false

theorem rowOf_reported {i : ℕ} {address : String} {info : TokenInfo} {row : TokenRow}
    (h : Reported node coder i address info) (hname : row.name = varchar info.name)
    (hsymbol : row.symbol = varchar info.symbol)
    (hdecimals : row.decimals = min info.decimals MAX_INT)
    (hstatus : row.status = false ↔ info.name = UNKNOWN_STRING ∨ info.symbol = UNKNOWN_STRING) :
    RowOf node coder i address row := by
  refine ⟨fun token hbatch hown hsent => ?_, fun hbatch hown => ?_⟩
  · obtain ⟨hreads, hown⟩ := reported_token hbatch hown hsent h
    refine ⟨info.name, info.symbol, hreads, hname, hsymbol, hown ▸ hdecimals, ?_⟩
    rw [← Bool.not_eq_false, hstatus, not_or]
  · cases reported_unknown hbatch hown h
    exact ⟨hname, hsymbol, hdecimals, hstatus.mpr (Or.inl rfl)⟩

/-- **What the contract says of an address is stored for it**, whatever the other
addresses of the list return, as long as the texts are UTF-8, with a batch that goes
through and with one that does not: the infos of all addresses are read and their rows
are inserted. A new address that is a token is stored with its own name, symbol and
decimals, as far as the columns have room for them, and active as long as its name and
its symbol are known. One that is none, or whose answers do not decode, is stored as
unknown and inactive. -/
theorem tokens_listed (node : Node) (coder : Coder) (context : Context) (faults : Faults)
    (addresses : List String) (s : Session (Db Tokens) LoggerData)
    (hlegible : AllLegible node coder addresses) (hactive : s.isTransactionActive = true)
    (hfault : faults.createTokensIfNotExist 0 = none)
    (hwritten : ∀ address ∈ addresses, address ≠ "") :
    ∃ infos s', getTokenInfos (contractContext node coder context) addresses s = (.ok infos, s) ∧
      createSingleTokens (contractContext node coder context) faults addresses infos s =
          (.ok (), s') ∧
        ∀ i address, IsNew context.network addresses s i address →
          ∃ row, s'.view.tables.content (context.network, toLowerCase address) = some row ∧
            RowOf node coder i address row := by
  obtain ⟨infos, hrun, hlength, hinfos⟩ := getTokenInfos_reported node coder context hlegible s
  have hstores : StoresOwn (contractContext node coder context) faults addresses infos s :=
    stores_own hlength hactive hfault hwritten
  obtain ⟨s', hcreate, hrows⟩ := hstores
  refine ⟨infos.map .ok, s', hrun, hcreate, fun i address hnew => ?_⟩
  obtain ⟨haddress, hfree, hfirst⟩ := hnew
  obtain ⟨info, hinfo, hreported⟩ := hinfos i address haddress
  obtain ⟨row, hrow, _, _, hname, hsymbol, hdecimals, hstatus⟩ :=
    hrows i address info haddress hinfo hfree hfirst
  exact ⟨row, hrow, rowOf_reported hreported hname hsymbol hdecimals hstatus⟩

/-! ## A list with a token that reverts the batch -/

/-- Address `1` is a token, address `2` has its name in a single word, and address `3`
has no code. -/
def exampleChain : Chain where
  staticcall token data :=
    if token = 1 then
      if data.selector = 0x313ce567 then ⟨true, encodeWord 18⟩ else ⟨true, encodeString [67, 97]⟩
    else if token = 2 ∧ data.selector = 0x06fdde03 then ⟨true, makerName⟩
    else ⟨true, []⟩
  balance _ := 0

def exampleNode : Node where
  batch _ := exampleChain
  own := exampleChain
  batchFault := none
  ownFault _ := none
  callException _ := rawError "missing revert data in call exception"

def exampleCoder : Coder where
  address s := if s = "0x01" then 1 else if s = "0x02" then 2 else 3
  invalidText _ := rawError "invalid codepoint"

theorem example_isToken : IsToken exampleChain 1 ⟨[67, 97], [67, 97], 18⟩ :=
  ⟨rfl, rfl, rfl, by decide, by decide, by decide⟩

theorem example_reads : Reads ⟨[67, 97], [67, 97], 18⟩ "Ca" "Ca" := ⟨by decide, by decide⟩

theorem example_unknown : Unknown exampleChain 2 :=
  unknown_of_not_decodes (not_infoDecodes_of_word rfl (by decide) (by decide))

theorem example_noToken : Unknown exampleChain 3 :=
  unknown_of_noToken ⟨Or.inr rfl, Or.inr rfl, Or.inr rfl⟩

theorem example_legible : AllLegible exampleNode exampleCoder ["0x01", "0x02", "0x03"] := by
  have hown : ∀ address ∈ ["0x01", "0x02", "0x03"],
      Legible exampleChain (exampleCoder.address address) := by
    intro address haddress
    simp only [List.mem_cons, List.not_mem_nil, or_false] at haddress
    rcases haddress with rfl | rfl | rfl
    · exact legible_of_isToken example_isToken example_reads
    · exact legible_of_unknown example_unknown
    · exact legible_of_unknown example_noToken
  exact ⟨fun _ address haddress => hown address (List.mem_of_getElem? haddress), hown⟩

/-- The first address is listed as the token it is, though the second one stops the batch,
and the third one, which has no code, as unknown. -/
theorem reverted_batch_listed :
    (∃ e, (contractContext exampleNode exampleCoder (.steady [])).getBatchERC20TokenInfos
        ["0x01", "0x02", "0x03"] = .error e) ∧
      ∃ infos s', getTokenInfos (contractContext exampleNode exampleCoder (.steady []))
            ["0x01", "0x02", "0x03"] openSession = (.ok infos, openSession) ∧
        createSingleTokens (contractContext exampleNode exampleCoder (.steady [])) .none
            ["0x01", "0x02", "0x03"] infos openSession = (.ok (), s') ∧
          (∃ row, s'.view.tables.content ((Context.steady []).network, "0x01") = some row ∧
            row.name = "Ca" ∧ row.decimals = 18 ∧ row.status = true) ∧
          ∀ address, address = "0x02" ∨ address = "0x03" →
            ∃ row, s'.view.tables.content ((Context.steady []).network, address) = some row ∧
              row.name = UNKNOWN_STRING ∧ row.status = false := by
  obtain ⟨infos, s', hrun, hcreate, hrows⟩ := tokens_listed exampleNode exampleCoder (.steady [])
    .none ["0x01", "0x02", "0x03"] openSession example_legible rfl rfl (by decide)
  refine ⟨⟨_, rfl⟩, infos, s', hrun, hcreate, ?_, ?_⟩
  · obtain ⟨row, hrow, hrowOf⟩ :=
      hrows 0 "0x01" ⟨rfl, rfl, fun j hj => absurd hj (Nat.not_lt_zero j)⟩
    obtain ⟨name, symbol, hreads, hname, _, hdecimals, hstatus⟩ :=
      hrowOf.token _ example_isToken example_isToken rfl
    obtain rfl := Option.some.inj (example_reads.name.symm.trans hreads.name)
    obtain rfl := Option.some.inj (example_reads.symbol.symm.trans hreads.symbol)
    exact ⟨row, hrow, hname.trans (by decide), hdecimals, hstatus.mpr (by decide)⟩
  · rintro address (rfl | rfl)
    · obtain ⟨row, hrow, hrowOf⟩ := hrows 1 "0x02" ⟨rfl, rfl, by decide⟩
      obtain ⟨hname, _, _, hstatus⟩ := hrowOf.unknown example_unknown example_unknown
      exact ⟨row, hrow, hname, hstatus⟩
    · obtain ⟨row, hrow, hrowOf⟩ := hrows 2 "0x03" ⟨rfl, rfl, by decide⟩
      obtain ⟨hname, _, _, hstatus⟩ := hrowOf.unknown example_noToken example_noToken
      exact ⟨row, hrow, hname, hstatus⟩

end BlockchainTask.SchedulerJob.ContractTokens

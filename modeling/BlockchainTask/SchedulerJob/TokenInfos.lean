import BlockchainTask.SchedulerJob.MultiTokens

/-! # The infos of new tokens

The infos of the new pairs and of the new single tokens are read in a batch each and,
where a batch fails, address by address, with an unknown info for an address whose
own call rejects. Either way they are in the order of the addresses, which is all
that the writing of the rows relies on. The contract gives an unknown info itself,
for an address without the functions of a token, so that it does not tell whether
the call rejected. What is stored of an info is what its columns have room for. -/
namespace BlockchainTask.SchedulerJob.TokenInfos
open BlockchainTask.Helper BlockchainTask.Common.Exception
open BlockchainTask.Library.Effect BlockchainTask.Library.Transaction BlockchainTask.Library.Store
open BlockchainTask.Repository.Token BlockchainTask.SchedulerJob.Base
open BlockchainTask.SchedulerJob.PairTemplate BlockchainTask.SchedulerJob.MultiTokens

variable {context : Context} {faults : Faults} {addresses : List String}
  {entries : List InfoEntry} {infos : List TokenInfo} {s : Session (Db Tokens) LoggerData}

/-- The infos of both kinds, as a task reads them. -/
def tokenInfos (context : Context) (multi single : List String) :
    JobEff Tokens (List InfoEntry × List InfoEntry) := do
  let multiTokenInfos ← getTokenInfos context multi
  let singleTokenInfos ← getTokenInfos context single
  pure (multiTokenInfos, singleTokenInfos)

def unknownInfo : TokenInfo := ⟨UNKNOWN_STRING, UNKNOWN_STRING, UNKNOWN_UINT256⟩

/-- A batch that succeeds answers like the calls of the addresses that do. -/
def Agrees (context : Context) (addresses : List String) : Prop :=
  ∀ entries, context.getBatchERC20TokenInfos addresses = .ok entries →
    List.Forall₂ (fun address entry => ∀ value,
      context.getSafeERC20TokenInfo address = .ok value → entry = value) addresses entries

/-- The names and symbols that are answered for the addresses are UTF-8. -/
structure Readable (context : Context) (addresses : List String) : Prop where
  batch : ∀ entries, context.getBatchERC20TokenInfos addresses = .ok entries →
    ∃ infos : List TokenInfo, entries = infos.map .ok
  own : ∀ address ∈ addresses, ∀ entry, context.getSafeERC20TokenInfo address = .ok entry →
    ∃ info, entry = .ok info

theorem exists_map_ok {entries : List InfoEntry} (h : ∀ entry ∈ entries, ∃ info, entry = .ok info) :
    ∃ infos : List TokenInfo, entries = infos.map .ok := by
  induction entries with
  | nil => exact ⟨[], rfl⟩
  | cons entry entries ih =>
    obtain ⟨info, rfl⟩ := h entry List.mem_cons_self
    obtain ⟨infos, rfl⟩ := ih fun other hother => h other (List.mem_cons_of_mem _ hother)
    exact ⟨info :: infos, rfl⟩

/-- The call of an address rejects, or gives an unknown info. -/
def GivesUnknown (context : Context) (address : String) : Prop :=
  (∃ e, context.getSafeERC20TokenInfo address = .error e) ∨
    context.getSafeERC20TokenInfo address = .ok (.ok unknownInfo)

/-- The infos belong to the addresses by their positions: each is that of its own
call, and in the fallback an unknown one exactly where this gives none. -/
structure Aligned (context : Context) (addresses : List String) (infos : List TokenInfo) :
    Prop where
  length : infos.length = addresses.length
  own : ∀ (i : ℕ) (address : String) (value : TokenInfo), addresses[i]? = some address →
    context.getSafeERC20TokenInfo address = .ok (.ok value) → infos[i]? = some value
  unknown : (∃ e, context.getBatchERC20TokenInfos addresses = .error e) →
    ∀ (i : ℕ) (address : String), addresses[i]? = some address →
      (infos[i]? = some unknownInfo ↔ GivesUnknown context address)

/-! ## The two ways -/

/-- What the fallback gives for an address. -/
def fallbackInfo (context : Context) (address : String) : TokenInfo :=
  match context.getSafeERC20TokenInfo address with
  | .ok (.ok value) => value
  | _ => unknownInfo

theorem fallbackInfo_eq_unknown_iff {address : String}
    (hown : ∀ entry, context.getSafeERC20TokenInfo address = .ok entry → ∃ info, entry = .ok info) :
    fallbackInfo context address = unknownInfo ↔ GivesUnknown context address := by
  unfold fallbackInfo GivesUnknown
  cases hcall : context.getSafeERC20TokenInfo address with
  | error e => simp
  | ok entry =>
    obtain ⟨info, rfl⟩ := hown entry hcall
    simp

theorem settledInfo_run {address : String}
    (hown : ∀ entry, context.getSafeERC20TokenInfo address = .ok entry → ∃ info, entry = .ok info)
    (s : Session (Db Tokens) LoggerData) :
    settledInfo context address s = (.ok (.ok (fallbackInfo context address)), s) := by
  unfold settledInfo fallbackInfo
  cases hcall : context.getSafeERC20TokenInfo address with
  | error e => rfl
  | ok entry =>
    obtain ⟨info, rfl⟩ := hown entry hcall
    rfl

theorem aligned_batch (h : Agrees context addresses)
    (hbatch : context.getBatchERC20TokenInfos addresses = .ok (infos.map .ok)) :
    Aligned context addresses infos := by
  have hrows := h _ hbatch
  have hlength : infos.length = addresses.length := by
    rw [hrows.length_eq, List.length_map]
  refine ⟨hlength, ?_, ?_⟩
  · intro i address value haddress hvalue
    obtain ⟨hi, rfl⟩ := List.getElem?_eq_some_iff.mp haddress
    have hbound : i < infos.length := hlength ▸ hi
    have hentry := hrows.get hi (by rwa [List.length_map]) (.ok value) hvalue
    rw [List.get_eq_getElem, List.getElem_map, Except.ok.injEq] at hentry
    rw [List.getElem?_eq_getElem hbound, ← hentry]
  · rintro ⟨e, herror⟩
    rw [hbatch] at herror
    cases herror

theorem aligned_fallback (h : Readable context addresses) :
    Aligned context addresses (addresses.map (fallbackInfo context)) := by
  refine ⟨List.length_map _, ?_, ?_⟩
  · intro i address value haddress hvalue
    rw [List.getElem?_map, haddress, Option.map_some, fallbackInfo, hvalue]
  · intro _ i address haddress
    rw [List.getElem?_map, haddress, Option.map_some, Option.some.injEq,
      fallbackInfo_eq_unknown_iff (h.own address (List.mem_of_getElem? haddress))]

theorem getTokenInfos_batch (hbatch : context.getBatchERC20TokenInfos addresses = .ok entries)
    (s : Session (Db Tokens) LoggerData) :
    getTokenInfos context addresses s = (.ok entries, s) := by
  rw [getTokenInfos, hbatch]
  rfl

theorem getTokenInfos_fallback (hread : Readable context addresses) {e : Thrown}
    (hbatch : context.getBatchERC20TokenInfos addresses = .error e)
    (s : Session (Db Tokens) LoggerData) :
    getTokenInfos context addresses s =
      (.ok ((addresses.map (fallbackInfo context)).map .ok), s) := by
  have hsettled : Eff.mapEach addresses (settledInfo context) s =
      (.ok (addresses.map fun address => .ok (fallbackInfo context address)), s) :=
    Eff.mapEach_of_ok fun address haddress => settledInfo_run (hread.own address haddress) s
  rw [getTokenInfos, hbatch, List.map_map]
  exact hsettled

/-- The infos are read, whatever the calls do, and nothing else happens. -/
theorem getTokenInfos_run (h : Agrees context addresses) (hread : Readable context addresses)
    (s : Session (Db Tokens) LoggerData) :
    ∃ infos : List TokenInfo, getTokenInfos context addresses s = (.ok (infos.map .ok), s) ∧
      Aligned context addresses infos := by
  cases hbatch : context.getBatchERC20TokenInfos addresses with
  | ok entries =>
    obtain ⟨infos, rfl⟩ := hread.batch entries hbatch
    exact ⟨infos, getTokenInfos_batch hbatch s, aligned_batch h hbatch⟩
  | error e => exact ⟨_, getTokenInfos_fallback hread hbatch s, aligned_fallback hread⟩

/-! ## The rows of single tokens -/

def singleRow (context : Context) (address : String) (info : TokenInfo) : TokenRow :=
  { network := context.network, type := .SINGLE, address, name := info.name,
    symbol := info.symbol, decimals := info.decimals, pair0 := none, pair1 := none,
    status := knownStatus info }

/-- The rows that are handed to the insert. -/
def singleRows (context : Context) (addresses : List String) (infos : List TokenInfo) :
    List TokenRow :=
  (addresses.zip infos).map fun p => singleRow context p.1 p.2

theorem status_eq_false_iff {info : TokenInfo} :
    knownStatus info = false ↔ info.name = UNKNOWN_STRING ∨ info.symbol = UNKNOWN_STRING := by
  simp only [knownStatus, Bool.and_eq_false_iff, bne_eq_false_iff_eq]

theorem singleRows_getElem? (context : Context) {i : ℕ} {address : String} {info : TokenInfo}
    (haddress : addresses[i]? = some address) (hinfo : infos[i]? = some info) :
    (singleRows context addresses infos)[i]? = some (singleRow context address info) := by
  have hpair : (addresses.zip infos)[i]? = some (address, info) :=
    List.getElem?_zip_eq_some.mpr ⟨haddress, hinfo⟩
  rw [singleRows, List.getElem?_map, hpair]
  rfl

/-- Infos of the same length are all there to be read. -/
theorem createSingleTokens_eq (hlength : infos.length = addresses.length) :
    createSingleTokens context faults addresses (infos.map .ok) s =
      createTokensIfNotExist (faults.createTokensIfNotExist 0)
        (singleRows context addresses infos) s := by
  have hrows : (addresses.zipIdx.map fun p => singleRow context p.1 (infos.getD p.2 unknownInfo)) =
      singleRows context addresses infos := by
    refine List.ext_getElem (by simp [singleRows, hlength]) fun i hi _ => ?_
    have hbound : i < infos.length := by simpa [hlength] using hi
    simp [singleRows, hbound]
  refine (Eff.bind_of_ok (Eff.mapEach_of_ok
    (g := fun p => singleRow context p.1 (infos.getD p.2 unknownInfo)) fun p hp => ?_)).trans
      (by rw [hrows])
  have hindex : p.2 < infos.length := by
    rw [hlength]
    exact (List.getElem?_eq_some_iff.mp (List.mk_mem_zipIdx_iff_getElem?.mp hp)).1
  simp only [infoAt, List.getElem?_map, List.getElem?_eq_getElem hindex,
    List.getD_eq_getElem?_getD, Option.getD_some]
  rfl

/-- The single tokens are stored: an address without a row, and not met before in the
list, gets a row with what the columns keep of its own info, inactive exactly where
that is unknown. -/
def StoresOwn (context : Context) (faults : Faults) (addresses : List String)
    (infos : List TokenInfo) (s : Session (Db Tokens) LoggerData) : Prop :=
  ∃ s', createSingleTokens context faults addresses (infos.map .ok) s = (.ok (), s') ∧
    ∀ (i : ℕ) (address : String) (info : TokenInfo),
      addresses[i]? = some address → infos[i]? = some info →
      s.view.tables.lookup (context.network, toLowerCase address) = none →
      (∀ j < i, ∀ other, addresses[j]? = some other → ¬ sameText other address) →
      ∃ row, s'.view.tables.content (context.network, toLowerCase address) = some row ∧
        row.type = .SINGLE ∧ row.address = address ∧ row.name = varchar info.name ∧
          row.symbol = varchar info.symbol ∧ row.decimals = min info.decimals MAX_INT ∧
            (row.status = false ↔ info.name = UNKNOWN_STRING ∨ info.symbol = UNKNOWN_STRING)

/-- The first row of a key is that of the first address with it. -/
theorem find?_singleRows (hlength : infos.length = addresses.length) {i : ℕ} {address : String}
    {info : TokenInfo} (haddress : addresses[i]? = some address) (hinfo : infos[i]? = some info)
    (hfirst : ∀ j < i, ∀ other, addresses[j]? = some other → ¬ sameText other address) :
    ((singleRows context addresses infos).map TokenRow.kept).find? (fun row =>
        decide (row.key = some (context.network, toLowerCase address))) =
      some (singleRow context address info).kept := by
  obtain ⟨hi, hrow⟩ := List.getElem?_eq_some_iff.mp
    (singleRows_getElem? context haddress hinfo)
  rw [List.find?_map]
  refine Option.map_eq_some_iff.mpr ⟨singleRow context address info, ?_, rfl⟩
  change (singleRows context addresses infos).find? (fun row =>
    decide (row.key = some (context.network, toLowerCase address))) = _
  refine List.find?_eq_some_iff_getElem.mpr ⟨by simp [TokenRow.key, singleRow], i, hi, hrow, ?_⟩
  intro j hj
  have hbound : j < addresses.length :=
    Nat.lt_trans hj (List.getElem?_eq_some_iff.mp haddress).1
  have hother := singleRows_getElem? context (List.getElem?_eq_getElem hbound)
    (List.getElem?_eq_getElem (hlength ▸ hbound : j < infos.length))
  obtain ⟨_, hother⟩ := List.getElem?_eq_some_iff.mp hother
  have hdiffers := hfirst j hj _ (List.getElem?_eq_getElem hbound)
  rw [hother]
  simpa [TokenRow.key, singleRow, sameText] using hdiffers

theorem stores_own (hlength : infos.length = addresses.length)
    (hactive : s.isTransactionActive = true) (hfault : faults.createTokensIfNotExist 0 = none)
    (hwritten : ∀ address ∈ addresses, address ≠ "") :
    StoresOwn context faults addresses infos s := by
  have hrows : ∀ row ∈ singleRows context addresses infos, row.address ≠ "" := by
    intro row hrow
    obtain ⟨p, hp, rfl⟩ := List.mem_map.mp hrow
    exact hwritten p.1 (List.of_mem_zip hp).1
  obtain ⟨s', hrun, _, htables⟩ := createTokensIfNotExist_run 0 hactive hrows
  refine ⟨s', ?_, ?_⟩
  · rw [createSingleTokens_eq hlength, hfault]
    exact hrun
  · intro i address info haddress hinfo hnew hfirst
    refine ⟨(singleRow context address info).kept, ?_, rfl, rfl, rfl, rfl, rfl,
      status_eq_false_iff⟩
    rw [htables, Table.content_insertAll_of_none hnew]
    exact find?_singleRows hlength haddress hinfo hfirst

/-- For all addresses and all that the calls do, as long as the texts they answer can be
read: the infos of both kinds are read and belong to the addresses by their positions,
in the fallback with an unknown info exactly where the own call rejects or gives one
itself. So each single token is stored with its own info, as far as the columns have
room for it, and inactive exactly where its name or symbol is unknown. -/
theorem infos_aligned_and_stored (context : Context) (faults : Faults) (multi single : List String)
    (s : Session (Db Tokens) LoggerData) (hmulti : Agrees context multi)
    (hsingle : Agrees context single) (hmultiRead : Readable context multi)
    (hsingleRead : Readable context single) :
    ∃ multiInfos singleInfos : List TokenInfo,
      tokenInfos context multi single s =
          (.ok (multiInfos.map .ok, singleInfos.map .ok), s) ∧
        Aligned context multi multiInfos ∧ Aligned context single singleInfos ∧
          (s.isTransactionActive = true → faults.createTokensIfNotExist 0 = none →
            (∀ address ∈ single, address ≠ "") →
              StoresOwn context faults single singleInfos s) := by
  obtain ⟨multiInfos, hmultiRun, hmultiInfos⟩ := getTokenInfos_run hmulti hmultiRead s
  obtain ⟨singleInfos, hsingleRun, hsingleInfos⟩ := getTokenInfos_run hsingle hsingleRead s
  refine ⟨multiInfos, singleInfos, ?_, hmultiInfos, hsingleInfos, ?_⟩
  · rw [tokenInfos, Eff.bind_of_ok hmultiRun, Eff.bind_of_ok hsingleRun]
    rfl
  · exact fun hactive hfault hwritten => stores_own hsingleInfos.length hactive hfault hwritten

/-! ## An address without the functions of a token -/

def nameless : String := "0x0000000000000000000000000000000000001004"

/-- Its name is in a single word, which does not decode. -/
def early : String := "0x0000000000000000000000000000000000001005"

/-- The second address fails a batch and its own call; the first one is answered
with what the contract takes for unknown. -/
def earlyContext : Context :=
  { Context.steady [] with
    getBatchERC20TokenInfos := fun addresses =>
      if early ∈ addresses then .error (rawError "missing revert data in call exception")
      else .ok (addresses.map fun _ => .ok unknownInfo)
    getSafeERC20TokenInfo := fun address =>
      if address = early then .error (rawError "missing revert data in call exception")
      else .ok (.ok unknownInfo) }

/-- A session in a transaction, on no tokens. -/
def openSession : Session (Db Tokens) LoggerData :=
  ⟨⟨none, Table.empty⟩, some ⟨true, false, some id⟩, 1, .empty⟩

theorem earlyContext_agrees (addresses : List String) : Agrees earlyContext addresses := by
  intro infos hbatch
  change (if early ∈ addresses then _ else _) = _ at hbatch
  split at hbatch
  · cases hbatch
  · rename_i hearly
    rw [← Except.ok.inj hbatch, List.forall₂_map_right_iff, List.forall₂_same]
    intro address haddress value hvalue
    change (if address = early then _ else _) = _ at hvalue
    rw [if_neg fun he : address = early => hearly (he ▸ haddress)] at hvalue
    exact Except.ok.inj hvalue

theorem earlyContext_readable (addresses : List String) : Readable earlyContext addresses := by
  constructor
  · intro entries hbatch
    change (if early ∈ addresses then _ else _) = _ at hbatch
    split at hbatch
    · cases hbatch
    · exact ⟨addresses.map fun _ => unknownInfo,
        (Except.ok.inj hbatch).symm.trans (List.map_map).symm⟩
  · intro address _ entry hcall
    change (if address = early then _ else _) = _ at hcall
    split at hcall
    · cases hcall
    · exact ⟨unknownInfo, (Except.ok.inj hcall).symm⟩

theorem early_aligned :
    ∃ multiInfos singleInfos : List TokenInfo,
      tokenInfos earlyContext [] [nameless, early] openSession =
          (.ok (multiInfos.map .ok, singleInfos.map .ok), openSession) ∧
        Aligned earlyContext [] multiInfos ∧ Aligned earlyContext [nameless, early] singleInfos ∧
          StoresOwn earlyContext .none [nameless, early] singleInfos openSession := by
  obtain ⟨multiInfos, singleInfos, hrun, hmulti, hsingle, hstores⟩ :=
    infos_aligned_and_stored earlyContext .none [] [nameless, early] openSession
      (earlyContext_agrees _) (earlyContext_agrees _) (earlyContext_readable _)
      (earlyContext_readable _)
  exact ⟨multiInfos, singleInfos, hrun, hmulti, hsingle, hstores rfl rfl (by decide)⟩

/-- In the fallback the first address has an unknown info, and its call does not
reject. -/
theorem nameless_unknown :
    Agrees earlyContext [nameless, early] ∧ Readable earlyContext [nameless, early] ∧
      (∃ e, earlyContext.getBatchERC20TokenInfos [nameless, early] = .error e) ∧
      ∃ infos : List TokenInfo, getTokenInfos earlyContext [nameless, early] openSession =
          (.ok (infos.map .ok), openSession) ∧
        ¬ ∀ (i : ℕ) (address : String), [nameless, early][i]? = some address →
          (infos[i]? = some unknownInfo ↔
            ∃ e, earlyContext.getSafeERC20TokenInfo address = .error e) := by
  refine ⟨earlyContext_agrees _, earlyContext_readable _, ⟨_, rfl⟩, [unknownInfo, unknownInfo],
    rfl, fun h => ?_⟩
  obtain ⟨e, hrejects⟩ := (h 0 nameless rfl).mp rfl
  have hanswers : earlyContext.getSafeERC20TokenInfo nameless = .ok (.ok unknownInfo) := rfl
  rw [hanswers] at hrejects
  cases hrejects

end BlockchainTask.SchedulerJob.TokenInfos

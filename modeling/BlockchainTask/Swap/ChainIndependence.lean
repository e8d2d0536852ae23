import Mathlib.Data.List.Find
import BlockchainTask.Library.Effect
import BlockchainTask.Swap.RoutedPairs

/-! # A search and the other chains

A search on a chain reads the chain's network row, the services of the chain's
protocols, and the base tokens. The first two depend on the chain's own rows
only. The base tokens do not: `getCommonPathTokenInstances` takes the active base
tokens of every chain and makes tokens of the searched chain of them, at their
addresses elsewhere. -/
namespace BlockchainTask.Swap.ChainIndependence
open BlockchainTask.Common.Exception BlockchainTask.Helper BlockchainTask.Library.Effect
open BlockchainTask.Helper.NumericText BlockchainTask.Library.Distinct
open BlockchainTask.Swap.SwapService BlockchainTask.Swap.RoutedPairs

/-- The two databases hold the same rows of a chain. -/
structure Agree (chainId : Nat) (db db' : Db) : Prop where
  networks : (db.networks.filter fun network => network.chain_id == chainId) =
    db'.networks.filter fun network => network.chain_id == chainId
  tokens : (db.tokens.filter fun token => token.network.chain_id == chainId) =
    db'.tokens.filter fun token => token.network.chain_id == chainId
  protocols : (db.protocols.filter fun protocol => protocol.network.chain_id == chainId) =
    db'.protocols.filter fun protocol => protocol.network.chain_id == chainId

theorem Agree.symm {chainId : Nat} {db db' : Db} (h : Agree chainId db db') :
    Agree chainId db' db := ⟨h.networks.symm, h.tokens.symm, h.protocols.symm⟩

variable {env : Environment} {db db' : Db} {chainId : Nat}

/-! ## The services of a chain -/

/-- A network row is known by its id. -/
theorem network_of_id {network network' : Network} (h : network ∈ db.networks)
    (h' : network' ∈ db.networks) (hid : network.id = network'.id) : network = network' :=
  List.inj_on_of_nodup_map db.network_id h h' hid

theorem protocol_of_id {protocol protocol' : Protocol} (h : protocol ∈ db.protocols)
    (h' : protocol' ∈ db.protocols) (hid : protocol.id = protocol'.id) : protocol = protocol' :=
  List.inj_on_of_nodup_map db.protocol_id h h' hid

/-- A service is set for a protocol of its own chain. -/
theorem onModuleInit_ok {service : Service} {entry : Nat × Service}
    (h : onModuleInit db service = .ok entry) :
    entry.2 = service ∧ ∃ protocol ∈ db.protocols, protocol.id = entry.1 ∧
      protocol.network.chain_id = service.chainId := by
  unfold onModuleInit at h
  cases hnetwork : db.networks.find? fun network => network.chain_id == service.chainId with
  | none => simp only [hnetwork, reduceCtorEq] at h
  | some network =>
    simp only [hnetwork] at h
    split at h
    · cases h
    · rename_i protocol hprotocol
      cases h
      have hmem := List.mem_of_find?_eq_some hprotocol
      have hfound := List.find?_some hprotocol
      rw [Bool.and_eq_true, beq_iff_eq, beq_iff_eq] at hfound
      refine ⟨rfl, protocol, hmem, rfl, ?_⟩
      rw [network_of_id (db.protocol_network protocol hmem) (List.mem_of_find?_eq_some hnetwork)
        hfound.2]
      exact beq_iff_eq.mp (List.find?_some hnetwork :)

theorem find_network_congr (h : Agree chainId db db') :
    (db.networks.find? fun network => network.chain_id == chainId) =
      db'.networks.find? fun network => network.chain_id == chainId := by
  rw [← List.head?_filter, ← List.head?_filter, h.networks]

/-- A service of the chain is set for the same protocol. -/
theorem onModuleInit_congr (h : Agree chainId db db') {service : Service}
    (hchain : service.chainId = chainId) : onModuleInit db service = onModuleInit db' service := by
  unfold onModuleInit
  rw [hchain, find_network_congr h]
  cases hnetwork : db'.networks.find? fun network => network.chain_id == chainId with
  | none => rfl
  | some network =>
    have hnetwork' := (find_network_congr h).trans hnetwork
    have hchain' : network.chain_id = chainId := beq_iff_eq.mp (List.find?_some hnetwork :)
    -- a protocol of that network is a protocol of the chain
    have hwithin : ∀ d : Db, network ∈ d.networks → ∀ name : String,
        (d.protocols.find? fun protocol => toLowerCase protocol.name == name &&
          protocol.network.id == network.id) =
        (d.protocols.filter fun protocol => protocol.network.chain_id == chainId).find? fun
          protocol => toLowerCase protocol.name == name && protocol.network.id == network.id := by
      intro d hmem name
      rw [List.find?_filter]
      refine List.find?_congr fun protocol hprotocol => ?_
      by_cases hid : protocol.network.id = network.id
      · rw [network_of_id (d.protocol_network protocol hprotocol) hmem hid]
        simp [hchain', beq_eq_decide]
      · simp [hid]
    simp only
    rw [hwithin db (List.mem_of_find?_eq_some hnetwork'),
      hwithin db' (List.mem_of_find?_eq_some hnetwork), h.protocols]

/-- Whether a service is set for a protocol of the chain is the same in both. -/
theorem onModuleInit_mark (h : Agree chainId db db') {protocol : Protocol}
    (hmem : protocol ∈ db.protocols) (hmem' : protocol ∈ db'.protocols)
    (hchain : protocol.network.chain_id = chainId) {service : Service}
    {entry entry' : Nat × Service} (hfirst : onModuleInit db service = .ok entry)
    (hfirst' : onModuleInit db' service = .ok entry') :
    (entry.1 == protocol.id, entry.2) = (entry'.1 == protocol.id, entry'.2) := by
  by_cases hservice : service.chainId = chainId
  · rw [onModuleInit_congr h hservice, hfirst', Except.ok.injEq] at hfirst
    rw [hfirst]
  · -- the service is set for a protocol of another chain
    obtain ⟨hsame, found, hfound, hid, hother⟩ := onModuleInit_ok hfirst
    obtain ⟨hsame', found', hfound', hid', hother'⟩ := onModuleInit_ok hfirst'
    have hne : entry.1 ≠ protocol.id := by
      intro heq
      rw [protocol_of_id hfound hmem (hid.trans heq), hchain] at hother
      exact hservice hother.symm
    have hne' : entry'.1 ≠ protocol.id := by
      intro heq
      rw [protocol_of_id hfound' hmem' (hid'.trans heq), hchain] at hother'
      exact hservice hother'.symm
    rw [hsame, hsame', beq_eq_false_iff_ne.mpr hne, beq_eq_false_iff_ne.mpr hne']

/-- For a protocol of the chain the same service is set. -/
theorem getService_congr (h : Agree chainId db db') {services services' : List (Nat × Service)}
    (hs : env.services.mapM (onModuleInit db) = .ok services)
    (hs' : env.services.mapM (onModuleInit db') = .ok services') {protocol : Protocol}
    (hmem : protocol ∈ db.protocols) (hmem' : protocol ∈ db'.protocols)
    (hchain : protocol.network.chain_id = chainId) :
    getService services protocol.id = getService services' protocol.id := by
  have hrows : ∀ {ss : List Service} {es es' : List (Nat × Service)},
      List.Forall₂ (fun s e => onModuleInit db s = .ok e) ss es →
        List.Forall₂ (fun s e => onModuleInit db' s = .ok e) ss es' →
          es.map (fun entry => (entry.1 == protocol.id, entry.2)) =
            es'.map fun entry => (entry.1 == protocol.id, entry.2) := by
    intro ss es es' hes hes'
    induction hes generalizing es' with
    | nil =>
      cases hes'
      rfl
    | cons hfirst _ ih =>
      cases hes' with
      | cons hfirst' hrest' =>
        rw [List.map_cons, List.map_cons, ih hrest']
        congr 1
        exact onModuleInit_mark h hmem hmem' hchain hfirst hfirst'
  have hfind : ∀ es : List (Nat × Service), getService es protocol.id =
      ((es.map fun entry => (entry.1 == protocol.id, entry.2)).reverse.find? Prod.fst).map
        Prod.snd := by
    intro es
    rw [← List.map_reverse, List.find?_map, Option.map_map]
    rfl
  rw [hfind, hfind, hrows (Eff.forall₂_of_mapM hs) (Eff.forall₂_of_mapM hs')]

/-- A protocol is set with the chain it is on. -/
theorem withFactory_chain {services : List (Nat × Service)}
    (hs : env.services.mapM (onModuleInit db) = .ok services) {protocol : Protocol}
    (hmem : protocol ∈ db.protocols) {entry : ProtocolService}
    (h : withFactory env services protocol = .ok (some entry)) :
    entry.chainId = protocol.network.chain_id := by
  unfold withFactory at h
  cases hservice : getService services protocol.id with
  | none => simp only [hservice, reduceCtorEq] at h
  | some service =>
    obtain ⟨set, hset, rfl⟩ := Option.map_eq_some_iff.mp hservice
    have hstored : set ∈ services := List.mem_reverse.mp (List.mem_of_find?_eq_some hset)
    have hid : set.1 = protocol.id := beq_iff_eq.mp (List.find?_some hset :)
    obtain ⟨i, hi, hget⟩ := List.getElem_of_mem hstored
    have hrows := Eff.forall₂_of_mapM hs
    have hinit := hrows.get (hrows.length_eq ▸ hi) hi
    rw [show services.get ⟨i, hi⟩ = set from hget] at hinit
    obtain ⟨hsame, found, hfound, hfoundId, hchain⟩ := onModuleInit_ok hinit
    rw [protocol_of_id hfound hmem (hfoundId.trans hid), ← hsame] at hchain
    rw [hchain]
    simp only [hservice] at h
    split at h
    · rw [Except.ok.injEq] at h
      split at h
      · cases h
        rfl
      · cases h
    · cases h

/-- What the start of the program sets for a chain, protocol by protocol. -/
theorem entries_of_chain {services : List (Nat × Service)}
    (hs : env.services.mapM (onModuleInit db) = .ok services) {protocols : List Protocol}
    {entries : List (Option ProtocolService)}
    (hmem : ∀ protocol ∈ protocols, protocol ∈ db.protocols)
    (h : List.Forall₂ (fun p e => withFactory env services p = .ok e) protocols entries) :
    ((entries.filterMap id).filter fun entry => entry.chainId == chainId) =
      (protocols.filter fun p => p.network.chain_id == chainId).filterMap fun p =>
        (withFactory env services p).toOption.join := by
  induction h with
  | nil => rfl
  | @cons p e ps es hfirst _ ih =>
    have hrest := ih fun q hq => hmem q (List.mem_cons_of_mem _ hq)
    have hjoin : (withFactory env services p).toOption.join = e := by
      rw [hfirst]
      rfl
    cases e with
    | none =>
      show ((es.filterMap id).filter _) = _
      by_cases hp : p.network.chain_id = chainId
      · simp only [hrest, List.filterMap_cons, List.filter_cons, hp, beq_self_eq_true, if_true,
          hjoin]
      · simp only [hrest, List.filter_cons, beq_eq_false_iff_ne.mpr hp, Bool.false_eq_true,
          if_false]
    | some entry =>
      have hchain := withFactory_chain hs (hmem p List.mem_cons_self) hfirst
      show ((entry :: es.filterMap id).filter _) = _
      by_cases hp : p.network.chain_id = chainId
      · simp only [List.filterMap_cons, List.filter_cons, hchain, hp, beq_self_eq_true, if_true,
          hjoin, hrest]
      · simp only [List.filter_cons, hchain, beq_eq_false_iff_ne.mpr hp, Bool.false_eq_true,
          if_false, hrest]

theorem mem_protocols_of_mem {protocol : Protocol} (h : protocol ∈ ammProtocols db) :
    protocol ∈ db.protocols := (List.mem_filter.mp h).1

/-- The entries that the start of the program sets for a chain. -/
theorem getProtocolWithService_congr (h : Agree chainId db db')
    {entries entries' : List ProtocolService} (hs : onApplicationBootstrap env db = .ok entries)
    (hs' : onApplicationBootstrap env db' = .ok entries') :
    getProtocolWithService entries chainId = getProtocolWithService entries' chainId := by
  obtain ⟨services, hservices, hrest⟩ := Eff.except_bind_eq_ok.mp hs
  obtain ⟨set, hset, hentries⟩ := Eff.except_bind_eq_ok.mp hrest
  obtain ⟨services', hservices', hrest'⟩ := Eff.except_bind_eq_ok.mp hs'
  obtain ⟨set', hset', hentries'⟩ := Eff.except_bind_eq_ok.mp hrest'
  cases hentries
  cases hentries'
  have hamm : ((ammProtocols db).filter fun p => p.network.chain_id == chainId) =
      (ammProtocols db').filter fun p => p.network.chain_id == chainId := by
    have hswap : ∀ d : Db, ((ammProtocols d).filter fun p => p.network.chain_id == chainId) =
        (d.protocols.filter fun p => p.network.chain_id == chainId).filter fun protocol =>
          protocol.status && protocol.network.status && protocol.use_amm := by
      intro d
      rw [ammProtocols, List.filter_filter, List.filter_filter]
      refine List.filter_congr fun p _ => ?_
      rw [Bool.and_comm]
    rw [hswap, hswap, h.protocols]
  have hsame : ∀ p ∈ (ammProtocols db').filter fun p => p.network.chain_id == chainId,
      (withFactory env services p).toOption.join = (withFactory env services' p).toOption.join := by
    intro p hp
    have hp' : p ∈ (ammProtocols db).filter fun p => p.network.chain_id == chainId := by
      rw [hamm]
      exact hp
    obtain ⟨hmem, hchain⟩ := List.mem_filter.mp hp
    unfold withFactory
    rw [getService_congr h hservices hservices' (mem_protocols_of_mem (List.mem_filter.mp hp').1)
      (mem_protocols_of_mem hmem) (beq_iff_eq.mp hchain)]
  unfold getProtocolWithService
  rw [entries_of_chain hservices (fun _ => mem_protocols_of_mem) (Eff.forall₂_of_mapM hset),
    entries_of_chain hservices' (fun _ => mem_protocols_of_mem) (Eff.forall₂_of_mapM hset'), hamm,
    List.filterMap_congr hsame]

theorem networkByChainId_congr (h : Agree chainId db db') :
    networkByChainId db chainId = networkByChainId db' chainId := by
  rw [networkByChainId, networkByChainId, h.networks]

theorem getProtocolPairs_congr (h : Agree chainId db db') {entries entries' : List ProtocolService}
    (hs : onApplicationBootstrap env db = .ok entries)
    (hs' : onApplicationBootstrap env db' = .ok entries') (node : Network → Node)
    (tokens : List (TokenInstance × TokenInstance)) :
    getProtocolPairs env node db entries chainId tokens =
      getProtocolPairs env node db' entries' chainId tokens := by
  unfold getProtocolPairs
  rw [getProtocolWithService_congr h hs hs', networkByChainId_congr h]

/-! ## Independence and its condition -/

/-- A token of the chain, with its wrapped token. -/
structure OnChain (db : Db) (chainId : Nat) (token : Token) : Prop where
  stored : ∃ row ∈ db.tokens, row.toTokenColumns = token.toTokenColumns
  chain : token.network.chain_id = chainId
  wrapped : ∀ w, token.wrapped = some w → w.network.chain_id = chainId ∧
    ∃ row ∈ db.tokens, row.toTokenColumns = w

/-- A token of the SDK at the address of a token of the chain. -/
def Registered (env : Environment) (db : Db) (chainId : Nat) (t : TokenInstance) : Prop :=
  t.chainId = chainId ∧ ∃ row ∈ db.tokens, row.network.chain_id = chainId ∧
    env.getAddress row.address = some t.address

/-- The pairs whose reserves a search reads and that it routes through. -/
def routedPairs (env : Environment) (db : Db) (chainId : Nat) (inputToken outputToken : Token) :
    Except Thrown (List (TokenInstance × TokenInstance)) := do
  let tokens ← getInOutPutTokenInstances env chainId inputToken outputToken
  let commonPath ← getCommonPathTokenInstances env db chainId
  pure (getAllCurrencyCombinations tokens.1 tokens.2 commonPath)

/-- A search on the chain is the same on both databases, for every node, router
and amount, and routes through tokens of the chain only. -/
structure Independent (env : Environment) (db db' : Db) (entries entries' : List ProtocolService)
    (chainId : Nat) (inputToken outputToken : Token) : Prop where
  same : ∀ router node amount,
    search env router node db entries chainId inputToken outputToken amount =
      search env router node db' entries' chainId inputToken outputToken amount
  registered : ∀ pairs, routedPairs env db chainId inputToken outputToken = .ok pairs →
    ∀ p ∈ pairs, Registered env db chainId p.1 ∧ Registered env db chainId p.2

/-- The active base tokens of a database, of any chain, that count for a search:
each address once, without the two traded tokens. -/
def countedBases (env : Environment) (db : Db) (chainId : Nat) (a b : TokenInstance) :
    Except Thrown (List TokenInstance) :=
  ((baseSwapTokens db).mapM fun token => tokenInstance env chainId token.toTokenColumns).map
    (otherBases a b)

theorem countedBases_eq (a b : TokenInstance) : countedBases env db chainId a b =
    (getCommonPathTokenInstances env db chainId).map (otherBases a b) := rfl

/-- For the two tokens the same base tokens count in both databases, and each is
a token of the chain. -/
structure SameBases (env : Environment) (db db' : Db) (chainId : Nat) (a b : TokenInstance) :
    Prop where
  same : countedBases env db chainId a b = countedBases env db' chainId a b
  registered : ∀ bases, countedBases env db chainId a b = .ok bases →
    ∀ t ∈ bases, Registered env db chainId t

/-! ## Enough -/

section
variable {inputToken outputToken : Token} {a b : TokenInstance}

/-- What a search does once it has its pairs. -/
def searchAmong (env : Environment) (router : Router) (node : Network → Node) (db : Db)
    (entries : List ProtocolService) (chainId : Nat) (inputToken outputToken : Token)
    (inputAmount : NumberString) (a b : TokenInstance)
    (pairs : List (TokenInstance × TokenInstance)) : Except Thrown (List Item) := do
  let allowed ← getProtocolPairs env node db entries chainId pairs
  let items ← allowed.mapM (protocolItem router a b inputToken outputToken inputAmount)
  pure (items.filterMap id)

theorem search_eq (router : Router) (node : Network → Node) (entries : List ProtocolService)
    (amount : NumberString)
    (h : getInOutPutTokenInstances env chainId inputToken outputToken = .ok (a, b)) :
    search env router node db entries chainId inputToken outputToken amount =
      getCommonPathTokenInstances env db chainId >>= fun bases =>
        searchAmong env router node db entries chainId inputToken outputToken amount a b
          (getAllCurrencyCombinations a b bases) := by
  unfold search
  rw [h]
  rfl

/-- Among the same pairs, a search reads only the rows of the chain. -/
theorem searchAmong_congr (hagree : Agree chainId db db') {entries entries' : List ProtocolService}
    (hs : onApplicationBootstrap env db = .ok entries)
    (hs' : onApplicationBootstrap env db' = .ok entries') {router : Router} {node : Network → Node}
    {amount : NumberString} {pairs : List (TokenInstance × TokenInstance)} :
    searchAmong env router node db' entries' chainId inputToken outputToken amount a b pairs =
      searchAmong env router node db entries chainId inputToken outputToken amount a b pairs := by
  unfold searchAmong
  rw [getProtocolPairs_congr hagree hs hs']

theorem routedPairs_eq
    (h : getInOutPutTokenInstances env chainId inputToken outputToken = .ok (a, b)) :
    routedPairs env db chainId inputToken outputToken =
      (getCommonPathTokenInstances env db chainId).map (getAllCurrencyCombinations a b) := by
  unfold routedPairs
  rw [h]
  cases getCommonPathTokenInstances env db chainId <;> rfl

/-- The same bases give the same search. -/
theorem search_congr (hagree : Agree chainId db db') {entries entries' : List ProtocolService}
    (hs : onApplicationBootstrap env db = .ok entries)
    (hs' : onApplicationBootstrap env db' = .ok entries')
    (h : getInOutPutTokenInstances env chainId inputToken outputToken = .ok (a, b))
    (hsame : countedBases env db chainId a b = countedBases env db' chainId a b)
    (router : Router) (node : Network → Node) (amount : NumberString) :
    search env router node db entries chainId inputToken outputToken amount =
      search env router node db' entries' chainId inputToken outputToken amount := by
  rw [search_eq router node entries amount h, search_eq router node entries' amount h]
  rw [countedBases_eq, countedBases_eq] at hsame
  cases hbases : getCommonPathTokenInstances env db chainId with
  | error e =>
    rw [hbases] at hsame
    cases hbases' : getCommonPathTokenInstances env db' chainId with
    | error e' =>
      rw [hbases'] at hsame
      rw [Except.error.inj hsame]
      rfl
    | ok bases' =>
      rw [hbases'] at hsame
      cases hsame
  | ok bases =>
    rw [hbases] at hsame
    cases hbases' : getCommonPathTokenInstances env db' chainId with
    | error e' =>
      rw [hbases'] at hsame
      cases hsame
    | ok bases' =>
      rw [hbases'] at hsame
      have hcounted : otherBases a b bases = otherBases a b bases' := Except.ok.inj hsame
      show searchAmong env router node db entries chainId inputToken outputToken amount a b _ =
        searchAmong env router node db' entries' chainId inputToken outputToken amount a b _
      rw [getAllCurrencyCombinations_inj.mpr hcounted, searchAmong_congr hagree hs hs']

theorem tokenInstance_ok {token : TokenColumns} {t : TokenInstance}
    (h : tokenInstance env chainId token = .ok t) :
    t.chainId = chainId ∧ env.getAddress token.address = some t.address := by
  unfold tokenInstance at h
  split at h
  · split at h
    · rename_i address haddress
      cases h
      exact ⟨rfl, haddress⟩
    · cases h
  · cases h

theorem registered_of_row {row : Token} (hrow : row ∈ db.tokens)
    (hchain : row.network.chain_id = chainId) {t : TokenInstance}
    (h : tokenInstance env chainId row.toTokenColumns = .ok t) : Registered env db chainId t :=
  ⟨(tokenInstance_ok h).1, row, hrow, hchain, (tokenInstance_ok h).2⟩

/-- The token that is traded is a token of the chain. -/
theorem OnChain.traded_registered {token : Token} (h : OnChain db chainId token)
    {columns : TokenColumns} (htraded : traded token = .ok columns) {t : TokenInstance}
    (hinstance : tokenInstance env chainId columns = .ok t) : Registered env db chainId t := by
  unfold traded at htraded
  split at htraded
  · split at htraded
    · rename_i hwrapped
      obtain ⟨hchain, row, hrow, hcolumns⟩ := h.wrapped _ hwrapped
      rw [← Except.ok.inj htraded, ← hcolumns] at hinstance
      exact registered_of_row hrow (hcolumns ▸ hchain) hinstance
    · cases htraded
  · cases htraded
    obtain ⟨row, hrow, hcolumns⟩ := h.stored
    rw [← hcolumns] at hinstance
    exact registered_of_row hrow (hcolumns ▸ h.chain) hinstance

theorem instances_registered (hA : OnChain db chainId inputToken)
    (hB : OnChain db chainId outputToken)
    (h : getInOutPutTokenInstances env chainId inputToken outputToken = .ok (a, b)) :
    Registered env db chainId a ∧ Registered env db chainId b := by
  obtain ⟨input, hinput, hrest⟩ := Eff.except_bind_eq_ok.mp h
  obtain ⟨first, hfirst, hrest⟩ := Eff.except_bind_eq_ok.mp hrest
  obtain ⟨output, houtput, hrest⟩ := Eff.except_bind_eq_ok.mp hrest
  obtain ⟨second, hsecond, hpair⟩ := Eff.except_bind_eq_ok.mp hrest
  cases hpair
  exact ⟨hA.traded_registered hinput hfirst, hB.traded_registered houtput hsecond⟩

/-- Every routed token is one of the chain exactly when every base that counts is. -/
theorem routed_registered_iff (hA : OnChain db chainId inputToken)
    (hB : OnChain db chainId outputToken)
    (h : getInOutPutTokenInstances env chainId inputToken outputToken = .ok (a, b)) :
    (∀ pairs, routedPairs env db chainId inputToken outputToken = .ok pairs →
      ∀ p ∈ pairs, Registered env db chainId p.1 ∧ Registered env db chainId p.2) ↔
      ∀ bases, countedBases env db chainId a b = .ok bases →
        ∀ t ∈ bases, Registered env db chainId t := by
  rw [routedPairs_eq h, countedBases_eq]
  cases getCommonPathTokenInstances env db chainId with
  | error e =>
    constructor
    · intro _ bases hbases
      cases hbases
    · intro _ pairs hpairs
      cases hpairs
  | ok path =>
    obtain ⟨ha, hb⟩ := instances_registered hA hB h
    constructor
    · intro hrouted bases hbases t ht
      cases hbases
      obtain ⟨p, hp, hside⟩ := exists_pair_of_mem ht
      obtain ⟨h1, h2⟩ := hrouted _ rfl p hp
      rcases hside with rfl | rfl
      · exact h1
      · exact h2
    · intro hcounted pairs hpairs p hp
      cases hpairs
      have hside : ∀ t, t = p.1 ∨ t = p.2 → Registered env db chainId t := by
        intro t ht
        rcases mem_of_mem_combinations hp ht with rfl | rfl | hother
        · exact ha
        · exact hb
        · exact hcounted _ rfl t hother
      exact ⟨hside _ (Or.inl rfl), hside _ (Or.inr rfl)⟩

/-! ## And needed

On a node where every pool exists, a router that gives a trade for one list of
pairs only tells any two lists of pairs apart. -/

/-- Every pool exists, with one unit of each token. -/
def openNode (_ : Network) : Node := ⟨fun _ => ⟨true, .reserves 1 1⟩, none⟩

def unitPair (p : TokenInstance × TokenInstance) : Pair := ⟨p.1, p.2, 1, 1⟩

theorem unitPair_injective : Function.Injective unitPair := by
  intro p q h
  exact Prod.ext (Pair.mk.inj h).1 (Pair.mk.inj h).2.1

/-- A router that knows a trade for these pairs only. -/
def knowing (pairs : List Pair) : Router := fun ps _ _ _ =>
  .ok (if ps = pairs then [⟨1, "1"⟩] else [])

def zeroAmount : NumberString := ⟨"0", by decide⟩

theorem zeroAmount_value : zeroAmount.value = 0 := by decide +kernel

theorem bestOf_ok (trades : List Trade) (rest : List (Except Thrown (List Trade)))
    (best : Option Trade) : bestOf (.ok trades :: rest) best =
      bestOf rest (if isTradeBetter best trades.head? then trades.head? else best) := rfl

theorem getBestTrade_knowing (t u : TokenInstance) (known ps : List Pair) (decimals : Nat) :
    getBestTrade (knowing known) t u ps
        (Decimals.multiplyDecimals (.finite zeroAmount.value) decimals) =
      .ok (if ps = known then some ⟨1, "1"⟩ else none) := by
  have hamount : fromRawAmount t
      (Decimals.multiplyDecimals (.finite zeroAmount.value) decimals) = .ok ⟨t, 0⟩ := by
    rw [zeroAmount_value, Decimals.multiplyDecimals_finite, zero_mul]
    rfl
  unfold getBestTrade
  rw [hamount]
  show bestOf [knowing known ps ⟨t, 0⟩ u 1, knowing known ps ⟨t, 0⟩ u 2, knowing known ps ⟨t, 0⟩ u 3]
    none = _
  by_cases hknown : ps = known
  · have hworse : isTradeBetter (some ⟨1, "1"⟩) (some ⟨1, "1"⟩) = false := by
      simp only [isTradeBetter, decide_eq_false_iff_not]
      norm_num
    have hfirst : isTradeBetter none (some ⟨1, "1"⟩) = true := rfl
    simp only [knowing, if_pos hknown, bestOf_ok, List.head?_cons, hfirst, hworse, if_true,
      Bool.false_eq_true, if_false]
    rfl
  · simp only [knowing, if_neg hknown, bestOf_ok]
    rfl

/-- On the open node every pair exists. -/
theorem protocolPairs_openNode (network : Network) (pairs : List (TokenInstance × TokenInstance))
    (factory : ProtocolService) :
    protocolPairs env (openNode network) pairs factory =
      .ok (factory.protocol, pairs.map unitPair) := by
  have hlist := pairList_eq (fun p _ => rfl : ∀ p ∈ pairs,
    pairOf p ⟨true, .reserves 1 1⟩ = .ok (some (unitPair p)))
  unfold protocolPairs
  show (pairList pairs (some (pairs.map fun _ => ⟨true, .reserves 1 1⟩)) >>= _) = _
  rw [hlist, List.filterMap_eq_map']
  rfl

/-- The knowing router trades through the pairs it knows. -/
theorem protocolItem_knowing (known : List Pair) (allowed : Protocol × List Pair) :
    protocolItem (knowing known) a b inputToken outputToken zeroAmount allowed =
      .ok (if allowed.2 = known then
        some ⟨allowed.1, inputToken, outputToken, "0", "1"⟩ else none) := by
  show (getBestTrade (knowing known) a b allowed.2
    (Decimals.multiplyDecimals (.finite zeroAmount.value) inputToken.decimals) >>= _) = _
  rw [getBestTrade_knowing]
  by_cases hknown : allowed.2 = known
  · simp only [if_pos hknown]
    rfl
  · simp only [if_neg hknown]
    rfl

theorem search_knowing {entries factories : List ProtocolService} {network : Network}
    (hfactories : getProtocolWithService entries chainId = some factories)
    (hnetwork : networkByChainId db chainId = some network)
    (known : List Pair) {pairs : List (TokenInstance × TokenInstance)} (hne : pairs ≠ []) :
    searchAmong env (knowing known) openNode db entries chainId inputToken outputToken zeroAmount
        a b pairs =
      .ok (if pairs.map unitPair = known then
        factories.map fun factory => ⟨factory.protocol, inputToken, outputToken, "0", "1"⟩
      else []) := by
  show (getProtocolPairs env openNode db entries chainId pairs >>= fun allowed =>
    allowed.mapM (protocolItem (knowing known) a b inputToken outputToken zeroAmount) >>=
      fun items => pure (items.filterMap id)) = _
  rw [getProtocolPairs_eq hfactories hnetwork rfl hne,
    Eff.except_mapM_of_ok fun factory _ => protocolPairs_openNode network pairs factory]
  show ((factories.map fun factory => (factory.protocol, pairs.map unitPair)).mapM
    (protocolItem (knowing known) a b inputToken outputToken zeroAmount) >>=
      fun items => pure (items.filterMap id)) = _
  rw [Eff.except_mapM_of_ok fun allowed _ => protocolItem_knowing known allowed]
  show Except.ok (List.filterMap id _) = _
  rw [List.map_map, List.filterMap_map]
  by_cases hknown : pairs.map unitPair = known
  · rw [if_pos hknown]
    congr 1
    calc
      _ = factories.filterMap (some ∘ fun factory =>
          (⟨factory.protocol, inputToken, outputToken, "0", "1"⟩ : Item)) := by
        refine List.filterMap_congr fun factory _ => ?_
        show (if pairs.map unitPair = known then _ else _) = _
        rw [if_pos hknown]
        rfl
      _ = _ := by
        rw [List.filterMap_eq_map]
  · rw [if_neg hknown, List.filterMap_eq_nil_iff.mpr]
    intro factory _
    show (if pairs.map unitPair = known then _ else _) = _
    rw [if_neg hknown]

/-- An error of the base tokens is none of the search behind them. -/
theorem path_error_ne {e : Thrown} (h : getCommonPathTokenInstances env db chainId = .error e) :
    e ≠ typeError := by
  obtain ⟨token, _, htoken⟩ := Eff.except_mapM_error h
  unfold tokenInstance at htoken
  split at htoken
  · split at htoken
    · cases htoken
    · cases htoken
      intro hsame
      exact absurd (congrArg Thrown.message hsame) (by decide)
  · cases htoken
    intro hsame
    exact absurd (congrArg Thrown.message hsame) (by decide)

/-- On every node where all pools exist, a search among pairs ends with items, or
with none, or without pairs with a type error. -/
theorem searchAmong_openNode {entries factories : List ProtocolService} {network : Network}
    (hfactories : getProtocolWithService entries chainId = some factories)
    (hnetwork : networkByChainId db chainId = some network) (known : List Pair)
    (pairs : List (TokenInstance × TokenInstance)) :
    searchAmong env (knowing known) openNode db entries chainId inputToken outputToken zeroAmount
        a b pairs =
      if pairs = [] then .error typeError
      else .ok (if pairs.map unitPair = known then
        factories.map fun factory => ⟨factory.protocol, inputToken, outputToken, "0", "1"⟩
      else []) := by
  by_cases hnil : pairs = []
  · rw [if_pos hnil, hnil]
    unfold searchAmong
    rw [getProtocolPairs_nil hfactories hnetwork rfl]
    rfl
  · rw [if_neg hnil]
    exact search_knowing hfactories hnetwork known hnil

/-- Searches that are the same on every node and router are among the same pairs. -/
theorem pairs_eq_of_search {entries factories : List ProtocolService} {network : Network}
    (hfactories : getProtocolWithService entries chainId = some factories)
    (hnetwork : networkByChainId db chainId = some network)
    {pairs pairs' : List (TokenInstance × TokenInstance)}
    (h : ∀ known, searchAmong env (knowing known) openNode db entries chainId inputToken
        outputToken zeroAmount a b pairs =
      searchAmong env (knowing known) openNode db entries chainId inputToken outputToken zeroAmount
        a b pairs') : pairs = pairs' := by
  have hboth := h (pairs.map unitPair)
  rw [searchAmong_openNode hfactories hnetwork, searchAmong_openNode hfactories hnetwork,
    if_pos rfl] at hboth
  by_cases hnil : pairs = []
  · by_cases hnil' : pairs' = []
    · rw [hnil, hnil']
    · rw [if_pos hnil, if_neg hnil'] at hboth
      cases hboth
  · by_cases hnil' : pairs' = []
    · rw [if_neg hnil, if_pos hnil'] at hboth
      cases hboth
    · rw [if_neg hnil, if_neg hnil', Except.ok.injEq] at hboth
      by_cases hsame : pairs'.map unitPair = pairs.map unitPair
      · exact (List.map_injective_iff.mpr unitPair_injective hsame).symm
      · rw [if_neg hsame, List.map_eq_nil_iff] at hboth
        exact absurd hboth (factories_ne_nil hfactories)

/-- A search among pairs does not end with an error of the base tokens. -/
theorem searchAmong_ne_error {entries factories : List ProtocolService} {network : Network}
    (hfactories : getProtocolWithService entries chainId = some factories)
    (hnetwork : networkByChainId db chainId = some network) {known : List Pair} {e : Thrown}
    {pairs : List (TokenInstance × TokenInstance)} (he : e ≠ typeError) :
    searchAmong env (knowing known) openNode db entries chainId inputToken outputToken zeroAmount
      a b pairs ≠ .error e := by
  intro herror
  rw [searchAmong_openNode hfactories hnetwork] at herror
  split at herror
  · exact he (Except.error.inj herror).symm
  · cases herror

/-- Where the search is the same on every node and router, the same bases count. -/
theorem countedBases_eq_of_search (hagree : Agree chainId db db')
    {entries entries' factories : List ProtocolService} {network : Network}
    (hs : onApplicationBootstrap env db = .ok entries)
    (hs' : onApplicationBootstrap env db' = .ok entries')
    (hfactories : getProtocolWithService entries chainId = some factories)
    (hnetwork : networkByChainId db chainId = some network)
    (h : getInOutPutTokenInstances env chainId inputToken outputToken = .ok (a, b))
    (hsame : ∀ router node amount,
      search env router node db entries chainId inputToken outputToken amount =
        search env router node db' entries' chainId inputToken outputToken amount) :
    countedBases env db chainId a b = countedBases env db' chainId a b := by
  have hboth : ∀ known, (getCommonPathTokenInstances env db chainId >>= fun bases =>
      searchAmong env (knowing known) openNode db entries chainId inputToken outputToken zeroAmount
        a b (getAllCurrencyCombinations a b bases)) =
      getCommonPathTokenInstances env db' chainId >>= fun bases =>
        searchAmong env (knowing known) openNode db entries chainId inputToken outputToken
          zeroAmount a b (getAllCurrencyCombinations a b bases) := by
    intro known
    have hsearch := hsame (knowing known) openNode zeroAmount
    rw [search_eq _ _ _ _ h, search_eq _ _ _ _ h] at hsearch
    simp only [searchAmong_congr hagree hs hs'] at hsearch
    exact hsearch
  rw [countedBases_eq, countedBases_eq]
  cases hbases : getCommonPathTokenInstances env db chainId with
  | error e =>
    have hboth := hboth []
    rw [hbases] at hboth
    cases hbases' : getCommonPathTokenInstances env db' chainId with
    | error e' =>
      rw [hbases'] at hboth
      rw [show e = e' from Except.error.inj hboth]
    | ok bases' =>
      rw [hbases'] at hboth
      exact absurd hboth.symm
        (searchAmong_ne_error hfactories hnetwork (path_error_ne hbases))
  | ok bases =>
    cases hbases' : getCommonPathTokenInstances env db' chainId with
    | error e' =>
      have hboth := hboth []
      rw [hbases, hbases'] at hboth
      exact absurd hboth
        (searchAmong_ne_error hfactories hnetwork (path_error_ne hbases'))
    | ok bases' =>
      rw [hbases, hbases'] at hboth
      have hpairs := pairs_eq_of_search hfactories hnetwork hboth
      exact congrArg Except.ok (getAllCurrencyCombinations_inj.mp hpairs)

/-- The chain of a stored token has a network. -/
theorem OnChain.network {token : Token} (h : OnChain db chainId token) :
    ∃ network, networkByChainId db chainId = some network := by
  obtain ⟨row, hrow, hcolumns⟩ := h.stored
  have hmem : row.network ∈ db.networks.filter fun network => network.chain_id == chainId := by
    refine List.mem_filter.mpr ⟨db.token_network row hrow, ?_⟩
    rw [hcolumns, h.chain, beq_self_eq_true]
  exact Option.isSome_iff_exists.mp (List.getLast?_isSome.mpr (List.ne_nil_of_mem hmem))

/-- A search of two tokens of a chain is independent of the other chains exactly
when, beside the two tokens, the same base tokens count in both databases and
each of them is a token of the chain. -/
theorem independent_iff (hagree : Agree chainId db db') {entries entries' : List ProtocolService}
    (hs : onApplicationBootstrap env db = .ok entries)
    (hs' : onApplicationBootstrap env db' = .ok entries')
    (hamm : getProtocolWithService entries chainId ≠ none) (hinput : OnChain db chainId inputToken)
    (houtput : OnChain db chainId outputToken)
    (h : getInOutPutTokenInstances env chainId inputToken outputToken = .ok (a, b)) :
    Independent env db db' entries entries' chainId inputToken outputToken ↔
      SameBases env db db' chainId a b := by
  obtain ⟨factories, hfactories⟩ := Option.ne_none_iff_exists'.mp hamm
  obtain ⟨network, hnetwork⟩ := hinput.network
  constructor
  · intro hindependent
    refine ⟨?_, (routed_registered_iff hinput houtput h).mp hindependent.registered⟩
    exact countedBases_eq_of_search hagree hs hs' hfactories hnetwork h hindependent.same
  · intro hbases
    refine ⟨fun router node amount => ?_,
      (routed_registered_iff hinput houtput h).mpr hbases.registered⟩
    exact search_congr hagree hs hs' h hbases.same router node amount

/-- Where every active base token is one of the chain, the same bases count. -/
theorem sameBases_of_chain (hagree : Agree chainId db db')
    (hbase : ∀ token ∈ baseSwapTokens db, token.network.chain_id = chainId)
    (hbase' : ∀ token ∈ baseSwapTokens db', token.network.chain_id = chainId) :
    SameBases env db db' chainId a b := by
  have hwithin : ∀ d : Db, (∀ token ∈ baseSwapTokens d, token.network.chain_id = chainId) →
      baseSwapTokens d = (d.tokens.filter fun token => token.network.chain_id == chainId).filter
        fun token => token.status && token.swap_base := by
    intro d hd
    rw [List.filter_filter]
    refine List.filter_congr fun token htoken => ?_
    cases hactive : token.status && token.swap_base with
    | false => rfl
    | true => simp [hd token (List.mem_filter.mpr ⟨htoken, hactive⟩)]
  have hsame : baseSwapTokens db = baseSwapTokens db' := by
    rw [hwithin db hbase, hwithin db' hbase', hagree.tokens]
  refine ⟨?_, fun bases hbases t ht => ?_⟩
  · rw [countedBases, countedBases, hsame]
  · rw [countedBases_eq] at hbases
    cases hpath : getCommonPathTokenInstances env db chainId with
    | error e =>
      rw [hpath] at hbases
      cases hbases
    | ok path =>
      rw [hpath] at hbases
      cases hbases
      have hmem : t ∈ path := mem_of_mem_distinctOn (List.mem_filter.mp ht).1
      have hrows := Eff.forall₂_of_mapM hpath
      obtain ⟨i, hi, rfl⟩ := List.getElem_of_mem hmem
      have hi' : i < (baseSwapTokens db).length := hrows.length_eq ▸ hi
      have hrow : (baseSwapTokens db)[i] ∈ baseSwapTokens db := List.getElem_mem hi'
      exact registered_of_row (List.mem_filter.mp hrow).1 (hbase _ hrow) (hrows.get hi' hi)

end

/-! ## A base token of another chain -/

def bsc : Network := ⟨1, 56, "0x0000000000000000000000000000000000000301", true⟩
def heco : Network := ⟨2, 128, "0x0000000000000000000000000000000000000302", true⟩

def addressA : String := "0x0000000000000000000000000000000000000101"
def addressB : String := "0x0000000000000000000000000000000000000102"
def addressX : String := "0x0000000000000000000000000000000000000103"

def tokenA : Token := ⟨⟨1, bsc, addressA, "A", "A", 0, true, false⟩, none⟩
def tokenB : Token := ⟨⟨2, bsc, addressB, "B", "B", 0, true, false⟩, none⟩

/-- A base token of the other chain. -/
def tokenX : Token := ⟨⟨3, heco, addressX, "X", "X", 0, true, true⟩, none⟩

def pancakeSwap : Protocol := ⟨1, "PancakeSwap", bsc, true, true⟩

def exampleDb (tokens : List Token) (h : ∀ token ∈ tokens, token.network ∈ [bsc, heco]) : Db where
  networks := [bsc, heco]
  tokens := tokens
  protocols := [pancakeSwap]
  network_id := by decide
  protocol_id := by decide
  token_network := h
  protocol_network := by decide

def withX : Db := exampleDb [tokenA, tokenB, tokenX] (by decide)
def withoutX : Db := exampleDb [tokenA, tokenB] (by decide)

def factoryAddress : String := "0x0000000000000000000000000000000000000201"

def initCodeHash : String :=
  "0x00fb7f630766e6a796048ea87d01acd3068e8ff67d078148a3fa3f4a84f69bd5"

def poolAB : String := "0xccaF5e4cE3e7209A21e57463BaAdB027489F3dc3"
def poolAX : String := "0xE10bE3802e09C6E1e9beA26C8EBBCbd28B88B81a"
def poolBX : String := "0xE3b9bDFfE6fcdbc2A7B00068C7745A91D6822627"

/-- An address of forty digits is its own checksum form. -/
def digitsOnly (address : String) : Option String :=
  match address.toList with
  | '0' :: 'x' :: digits =>
    if digits.length = 40 ∧ digits.all Char.isDigit then some address else none
  | _ => none

def exampleEnv : Environment where
  getAddress := digitsOnly
  isBytesLike _ := true
  getCreate2Address _ tokens _ :=
    if tokens = (addressA, addressB) then poolAB
    else if tokens = (addressA, addressX) then poolAX
    else poolBX
  services := [⟨"PancakeSwap", 56, some factoryAddress, some initCodeHash⟩]

def exampleEntries : List ProtocolService := [⟨pancakeSwap, 56, factoryAddress, initCodeHash⟩]

/-- On the searched chain there are pools of the base token with both tokens. -/
def exampleNode (_ : Network) : Node where
  answer address := ⟨true, if address = poolAX ∨ address = poolBX
    then .reserves 1000000 1000000 else .null⟩
  fault := none

/-- The trade of 1000 units through two such pools needs two hops. -/
def exampleRouter : Router := fun pairs _ _ hops =>
  if pairs = [] then .error (rawError "Invariant failed: PAIRS")
  else .ok (if hops < 2 then [] else [⟨992 / 1000, "992"⟩])

def thousand : NumberString := ⟨"1000", by decide⟩

/-- The base token of the other chain makes a trade possible, through a token
that the searched chain does not have. -/
theorem foreign_base_token_routed :
    Agree 56 withX withoutX ∧ onApplicationBootstrap exampleEnv withX = .ok exampleEntries ∧
      onApplicationBootstrap exampleEnv withoutX = .ok exampleEntries ∧
      (search exampleEnv exampleRouter exampleNode withX exampleEntries 56 tokenA tokenB
        thousand).toOption = some [⟨pancakeSwap, tokenA, tokenB, "1000", "992"⟩] ∧
      (search exampleEnv exampleRouter exampleNode withoutX exampleEntries 56 tokenA tokenB
        thousand).toOption = none ∧
      ∃ pairs, routedPairs exampleEnv withX 56 tokenA tokenB = .ok pairs ∧
        ∃ p ∈ pairs, p.2.address = addressX ∧ ¬ Registered exampleEnv withX 56 p.2 := by
  refine ⟨⟨by decide, by decide, by decide⟩, rfl, rfl, by decide +kernel, by decide +kernel,
    _, rfl, (⟨56, addressA, 0, "A", "A"⟩, ⟨56, addressX, 0, "X", "X"⟩), by decide, rfl, ?_⟩
  intro hregistered
  obtain ⟨_, row, hrow, hchain, haddress⟩ := hregistered
  revert hchain haddress
  revert row
  decide

theorem example_not_independent : ¬ Independent exampleEnv withX withoutX exampleEntries
    exampleEntries 56 tokenA tokenB := by
  have hagree : Agree 56 withX withoutX := ⟨by decide, by decide, by decide⟩
  have hA : OnChain withX 56 tokenA := ⟨⟨tokenA, by decide, rfl⟩, rfl, fun w hw => by cases hw⟩
  have hB : OnChain withX 56 tokenB := ⟨⟨tokenB, by decide, rfl⟩, rfl, fun w hw => by cases hw⟩
  rw [independent_iff hagree rfl rfl (by decide) hA hB rfl]
  intro hbases
  exact absurd (congrArg Except.toOption hbases.same) (by decide)

end BlockchainTask.Swap.ChainIndependence

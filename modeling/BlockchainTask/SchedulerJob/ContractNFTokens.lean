import BlockchainTask.Multicalls.ERC721
import BlockchainTask.SchedulerJob.NFTChunk

/-! # NF tokens from the batch contract

The crawls with the infos that the batch contract answers. A chunk is read by its
indexes, so its infos are in the order of the collection, and what the runs store is
the collection up to the cursor. An index that the contract has no info for reverts
the batch of its chunk, a URI that is no UTF-8 stops its crawl, and the runs stay where
they are. -/
namespace BlockchainTask.SchedulerJob.ContractNFTokens
open BlockchainTask.Common.Exception BlockchainTask.Helper
open BlockchainTask.Library.Abi BlockchainTask.Library.Effect BlockchainTask.Library.Runs
open BlockchainTask.Library.Transaction
open BlockchainTask.Multicalls.MultiCall (Address Chain)
open BlockchainTask.Multicalls.ERC721
open BlockchainTask.Multicalls.BatchSafety (field_of_encoded)
open BlockchainTask.Repository.NFToken BlockchainTask.SchedulerJob.Base
open BlockchainTask.SchedulerJob.NFTTemplate BlockchainTask.SchedulerJob.NFTConsistency
open BlockchainTask.SchedulerJob.NFTCrawl BlockchainTask.SchedulerJob.NFTRecords
open BlockchainTask.SchedulerJob.NFTChunk

/-! ## The crawl -/

/-- What a run reads from: the contract, as each item of a batch meets it, and the servers
of the metadata. -/
structure Source where
  chain : ℕ → Chain
  fault : Option Thrown
  callException : Multicalls.ERC721.Revert → Thrown
  axiosGet : ℕ → String → Except Thrown Object.Value

/-- What is the same for all runs of a job: its protocol and gateway, the address of the
collection, and what is thrown for the bytes of a URI that are no UTF-8. -/
structure Site where
  protocol : String
  ipfsHost : String
  collection : Address
  invalidText : Bytes → Thrown

/-- An info as the crawl reads it. -/
def Site.info (site : Site) (info : ERC721Info) : Except Thrown NFTokenInfo :=
  match textOf info.tokenURI with
  | some uri => .ok ⟨info.id, uri⟩
  | none => .error (site.invalidText info.tokenURI)

/-- The infos of a chunk. The crawl reads each before it does anything else with it, and
rejects where it cannot. -/
def getNFTokenInfos (site : Site) (source : Source) (pids : List ℕ) :
    Except Thrown (List NFTokenInfo) :=
  match source.fault with
  | some e => .error e
  | none => do
    let infos ←
      (getBatchERC721Infos source.chain site.collection pids).mapError source.callException
    infos.mapM site.info

theorem info_eq_ok_iff {site : Site} {info : ERC721Info} {read : NFTokenInfo} :
    site.info info = .ok read ↔ info.id = read.id ∧ textOf info.tokenURI = some read.tokenURI := by
  unfold Site.info
  cases textOf info.tokenURI with
  | none => simp
  | some uri =>
    obtain ⟨id, tokenURI⟩ := read
    simp

theorem getNFTokenInfos_eq_ok_iff {site : Site} {source : Source} {pids : List ℕ}
    {infos : List NFTokenInfo} : getNFTokenInfos site source pids = .ok infos ↔
      source.fault = none ∧ ∃ rows,
        getBatchERC721Infos source.chain site.collection pids = .ok rows ∧
          rows.mapM site.info = .ok infos := by
  unfold getNFTokenInfos
  cases source.fault with
  | some e => simp
  | none =>
    rw [Eff.except_bind_eq_ok]
    simp only [mapError_eq_ok_iff, true_and]

def contractAnswers (site : Site) (source : Source) : Answers where
  protocol := site.protocol
  ipfsHost := site.ipfsHost
  getNFTokenInfos := getNFTokenInfos site source
  one_each := fun pids infos h => by
    obtain ⟨_, rows, hrows, hread⟩ := getNFTokenInfos_eq_ok_iff.mp h
    rw [← (Eff.forall₂_of_mapM hread).length_eq, length_of_batch hrows]
  axiosGet := source.axiosGet

/-! ## Collections -/

/-- The tokens of a collection, by their indexes. -/
structure Collection where
  ids : ℕ → ℕ
  uri : ℕ → Bytes

/-- The contract of the collection answers for an index as the standard says. -/
structure Answered (chain : Chain) (token : Address) (c : Collection) (index : ℕ) : Prop where
  tokenByIndex : chain.staticcall token ⟨0x4f6ccce7, [index]⟩ = ⟨true, encodeWord (c.ids index)⟩
  tokenURI : chain.staticcall token ⟨0xc87b56dd, [c.ids index]⟩ =
    ⟨true, encodeString (c.uri index)⟩
  ids_lt : c.ids index < 2 ^ 256
  uri_le : (c.uri index).length ≤ MAX_OFFSET

/-- Then an info is that of the token at the index. -/
theorem infoAt_of_answered {chain : Chain} {token : Address} {c : Collection} {index : ℕ}
    {info : ERC721Info} (h : Answered chain token c index)
    (hinfo : InfoAt chain token index info) :
    info.id = c.ids index ∧ info.tokenURI = c.uri index := by
  have hid : info.id = c.ids index := by
    have hdecodes := hinfo.indexed.decodes
    have hword := decodeUint_encodeWord h.ids_lt h.ids_lt []
    rw [List.append_nil] at hword
    rw [h.tokenByIndex] at hdecodes
    exact Option.some.inj (hdecodes.symm.trans hword)
  refine ⟨hid, ?_⟩
  have hown := congrArg ERC721Info.tokenURI hinfo.own
  rw [hown, infoOf, hid]
  exact (field_of_encoded _ h.tokenURI (encodeString_ne_nil _)
    (decodeString_encodeString h.uri_le)).2

/-! ## The rows of a crawl -/

/-- The columns take a value as it is, or refuse it. -/
structure Exact (columns : Columns) : Prop where
  index : ∀ n m, columns.index (toString n) = .ok m → m = n
  text : ∀ t x, columns.text (.string t) = .ok x → x = some t

/-- What a row says of its token, but for the image. -/
def listing (row : NFTokenRow) : String × String × ℕ × Option String :=
  (row.protocol, row.address, row.index, row.token_uri)

/-- The URI that a job stores for one that a token has. -/
def uriOf (job : NFTJob) (ipfsHost tokenURI : String) : String :=
  if job.onIPFS then gateway ipfsHost (Object.remove tokenURI ipfs) else tokenURI

/-- The listing of the token at an index. -/
def listingAt (job : NFTJob) (site : Site) (c : Collection) (index : ℕ) :
    String × String × ℕ × Option String :=
  (site.protocol, job.nfTokenAddress, c.ids index,
    (textOf (c.uri index)).map (uriOf job site.ipfsHost))

theorem callback_params {job : NFTJob} {answers : Answers} {info : NFTokenInfo} {position : ℕ}
    {params : NFTokenParams} (h : job.callback answers info position = some params) :
    params.protocol = answers.protocol ∧ params.address = job.nfTokenAddress ∧
      params.index = toString info.id ∧
        params.token_uri = uriOf job answers.ipfsHost info.tokenURI := by
  unfold NFTJob.callback at h
  unfold uriOf
  split at h
  · rename_i hjob
    rw [if_pos hjob]
    unfold crawlIPFS at h
    split at h
    · cases h
      exact ⟨rfl, rfl, rfl, rfl⟩
    · cases h
  · rename_i hjob
    rw [if_neg hjob]
    cases h
    exact ⟨rfl, rfl, rfl, rfl⟩

theorem listing_of_entry {job : NFTJob} {answers : Answers} {columns : Columns}
    {info : NFTokenInfo} {position : ℕ} {row : NFTokenRow} (hexact : Exact columns)
    (h : entryRow columns (job.callback answers info position) = some row) :
    listing row = (answers.protocol, job.nfTokenAddress, info.id,
      some (uriOf job answers.ipfsHost info.tokenURI)) := by
  cases hcallback : job.callback answers info position with
  | none =>
    rw [hcallback] at h
    cases h
  | some params =>
    rw [hcallback, entryRow_some_iff, rowOf_eq_ok_iff] at h
    obtain ⟨⟨hindex, huri, _⟩, hprotocol, haddress⟩ := h
    obtain ⟨hparams, haddressOf, hindexOf, huriOf⟩ := callback_params hcallback
    rw [hindexOf] at hindex
    rw [huriOf] at huri
    rw [listing, hprotocol, haddress, hparams, haddressOf, hexact.index _ _ hindex,
      hexact.text _ _ huri]

/-! ## Runs on a collection -/

/-- The context of a job whose infos the contract gives. -/
def contractContext (job : NFTJob) (site : Site) (source : Source) (columns : Columns)
    (networkPid : Except Thrown ℕ) : Context where
  networkPid := networkPid
  crawlNFTokens := fun pids =>
    (job.crawlNFTokens (contractAnswers site source) pids).map fun crawled =>
      crawled.map (entryRow columns)
  one_each := fun pids crawled h => by
    obtain ⟨entries, hentries, rfl⟩ := Eff.except_map_eq_ok.mp h
    rw [List.length_map, job.length_crawlNFTokens hentries]

/-- The crawl of a run reads the contract. -/
def Reads (job : NFTJob) (site : Site) (source : Source) (columns : Columns) (env : Env) : Prop :=
  env.context = contractContext job site source columns env.context.networkPid

variable {job : NFTJob} {site : Site} {source : Source} {columns : Columns} {env : Env}
  {d : Db NFTokens}

/-- A run that gets to its commit has read an info for each of its pids. -/
theorem infos_of_reachesCommit (hreads : Reads job site source columns env) {ePid : ℕ}
    {rows : List NFTokenRow} (h : ReachesCommit env d ePid rows) :
    ∃ infos read, getBatchERC721Infos source.chain site.collection
        (fillSequenceNumber (ePid - cursor d) (cursor d)) = .ok infos ∧
      List.Forall₂ (fun info entry => site.info info = .ok entry) infos read ∧
      (read.zipIdx.map fun p =>
        entryRow columns (job.callback (contractAnswers site source) p.1 p.2)) = rows.map some := by
  have hcrawled := h.crawled
  rw [hreads] at hcrawled
  obtain ⟨entries, hentries, hrows⟩ := Eff.except_map_eq_ok.mp hcrawled
  cases hinfos : getNFTokenInfos site source (fillSequenceNumber (ePid - cursor d) (cursor d)) with
  | error e =>
    rw [NFTJob.crawlNFTokens_eq] at hentries
    unfold crawlAll at hentries
    rw [show (contractAnswers site source).getNFTokenInfos = getNFTokenInfos site source from rfl,
      hinfos] at hentries
    cases hentries
  | ok found =>
    obtain ⟨_, infos, hbatch, hread⟩ := getNFTokenInfos_eq_ok_iff.mp hinfos
    refine ⟨infos, found, hbatch, Eff.forall₂_of_mapM hread, ?_⟩
    rw [job.crawlNFTokens_of_infos hinfos] at hentries
    rw [← hrows, ← Except.ok.inj hentries, List.map_map]
    rfl

/-- The run commits, and its cursor is at the end of its window, or it does not move. -/
theorem cursor_step (env : Env) (d : Db NFTokens) :
    cursor (step env d) = cursor d ∨ ∃ ePid rows, ReachesCommit env d ePid rows ∧
      cursor (step env d) = ePid := by
  have houtcome := outcome env d
  generalize step env d = d' at houtcome ⊢
  cases houtcome with
  | unchanged => exact Or.inl rfl
  | committed reaches => exact Or.inr ⟨_, _, reaches, cursor_pidOnly reaches.found.2⟩
  | torn reaches => exact Or.inr ⟨_, _, reaches, cursor_pidOnly reaches.found.2⟩

/-- No info at the index, in whatever place of a batch. -/
def Missing (site : Site) (source : Source) (index : ℕ) : Prop :=
  ∀ i info, ¬ InfoAt (source.chain i) site.collection index info

/-- A run does not pass an index without an info. -/
theorem cursor_le_of_missing (hreads : Reads job site source columns env) {index : ℕ}
    (hmissing : Missing site source index) (h : cursor d ≤ index) :
    cursor (step env d) ≤ index := by
  rcases cursor_step env d with hsame | ⟨ePid, rows, hreaches, hend⟩
  · rw [hsame]
    exact h
  · rw [hend]
    by_contra hpassed
    obtain ⟨infos, _, hbatch, _⟩ := infos_of_reachesCommit hreads hreaches
    have hpid : index ∈ fillSequenceNumber (ePid - cursor d) (cursor d) :=
      mem_fillSequenceNumber.mpr ⟨h, Nat.lt_of_not_le hpassed⟩
    obtain ⟨i, hi⟩ := List.mem_iff_getElem?.mp hpid
    obtain ⟨info, _, hinfo⟩ := infoAt_of_batch hbatch hi
    exact hmissing i info hinfo

/-- **An index without an info is never passed.** However often the job of a collection
runs, whatever else the contract, the servers and the database do: with an index that the
contract has no info for, since the collection does not answer it or what it answers does
not decode, the cursor stays at it or before it. -/
theorem never_passes_missing (job : NFTJob) (site : Site) (index : ℕ) (envs : List Env)
    (d : Db NFTokens) (hstart : cursor d ≤ index)
    (hreads : ∀ env ∈ envs, ∃ source columns, Reads job site source columns env ∧
      Missing site source index) :
    cursor (runAll step envs d) ≤ index := by
  refine runAll_invariant (fun t => cursor t ≤ index) (fun env t ht hbefore => ?_) hstart
  obtain ⟨source, columns, hread, hmissing⟩ := hreads env (env_mem_of_starts ht)
  exact cursor_le_of_missing hread hmissing hbefore

/-! ## Collections that answer -/

/-- The contract of the collection answers for all indexes of the supply that a run reads. -/
def AnsweredBelow (site : Site) (source : Source) (c : Collection) (env : Env) : Prop :=
  ∀ networkPid, env.context.networkPid = .ok networkPid → ∀ i index, index < networkPid →
    Answered (source.chain i) site.collection c index

/-- The rows that were added are the tokens that the cursor has passed, each once and in
the order of their indexes. -/
structure Listed (job : NFTJob) (site : Site) (c : Collection) (d d' : Db NFTokens) : Prop where
  cursor_le : cursor d ≤ cursor d'
  added : ∃ rows, stored d'.tables = stored d.tables ++ rows ∧
    rows.map listing =
      (List.range' (cursor d) (cursor d' - cursor d)).map (listingAt job site c)

theorem Listed.refl {c : Collection} (d : Db NFTokens) : Listed job site c d d :=
  ⟨Nat.le_refl _, [], by rw [List.append_nil], by rw [Nat.sub_self]; rfl⟩

theorem Listed.trans {c : Collection} {d d' d'' : Db NFTokens} (h : Listed job site c d d')
    (h' : Listed job site c d' d'') : Listed job site c d d'' := by
  obtain ⟨rows, hstored, hrows⟩ := h.added
  obtain ⟨rows', hstored', hrows'⟩ := h'.added
  have hle := h.cursor_le
  have hle' := h'.cursor_le
  refine ⟨Nat.le_trans hle hle', rows ++ rows', ?_, ?_⟩
  · rw [hstored', hstored, List.append_assoc]
  · have hsplit : cursor d'' - cursor d =
        (cursor d' - cursor d) + (cursor d'' - cursor d') := by omega
    have hmid : cursor d + 1 * (cursor d' - cursor d) = cursor d' := by omega
    rw [List.map_append, hrows, hrows', hsplit, ← List.range'_append, List.map_append, hmid]

/-- The rows of a commit are the tokens of its window. -/
theorem listing_rows {c : Collection} (hreads : Reads job site source columns env)
    (hexact : Exact columns) (hanswered : AnsweredBelow site source c env) {ePid : ℕ}
    {rows : List NFTokenRow} (h : ReachesCommit env d ePid rows) :
    rows.map listing =
      (List.range' (cursor d) (ePid - cursor d)).map (listingAt job site c) := by
  obtain ⟨infos, read, hbatch, hread, hentries⟩ := infos_of_reachesCommit hreads h
  obtain ⟨networkPid, hnetwork, hbehind, hend⟩ := h.behind
  have hlast : ePid ≤ networkPid := hend ▸ (chunkEnd_bounds hbehind chunkSize_pos).2.1
  have hlength := h.rows
  refine List.ext_getElem? fun i => ?_
  rw [List.getElem?_map, List.getElem?_map]
  cases hpid : (List.range' (cursor d) (ePid - cursor d))[i]? with
  | none =>
    have hout : rows[i]? = none := by
      rw [List.getElem?_eq_none_iff, List.length_range'] at hpid
      rw [List.getElem?_eq_none_iff, hlength]
      exact hpid
    rw [hout]
    rfl
  | some index =>
    have hmem : index ∈ List.range' (cursor d) (ePid - cursor d) := List.mem_of_getElem? hpid
    have hindex : index < networkPid := by
      have hbound := (mem_fillSequenceNumber.mp hmem).2
      omega
    obtain ⟨info, hi, hinfo⟩ := infoAt_of_batch hbatch hpid
    obtain ⟨hid, huri⟩ := infoAt_of_answered (hanswered networkPid hnetwork i index hindex) hinfo
    obtain ⟨hbound, hat⟩ := List.getElem?_eq_some_iff.mp hi
    have hboundRead : i < read.length := hread.length_eq ▸ hbound
    obtain ⟨hreadId, hreadURI⟩ := info_eq_ok_iff.mp (hread.get hbound hboundRead)
    rw [List.get_eq_getElem, hat] at hreadId hreadURI
    have hentry := congrArg (fun entries => entries[i]?) hentries
    simp only [List.getElem?_map, List.getElem?_zipIdx, List.getElem?_eq_getElem hboundRead,
      Option.map_some, Nat.zero_add] at hentry
    obtain ⟨row, hrow, hsome⟩ := Option.map_eq_some_iff.mp hentry.symm
    have hlisting := listing_of_entry hexact hsome.symm
    rw [hrow, Option.map_some, Option.map_some, hlisting, listingAt, ← huri, hreadURI, ← hid,
      hreadId]
    rfl

/-- A run adds the tokens that it passes. -/
theorem listed_step {c : Collection} (hreads : Reads job site source columns env)
    (hexact : Exact columns) (hanswered : AnsweredBelow site source c env)
    (hcommits : ¬ CommitFailsFirst env d) : Listed job site c d (step env d) := by
  have houtcome := outcome env d
  generalize step env d = d' at houtcome ⊢
  cases houtcome with
  | unchanged => exact Listed.refl d
  | @committed ePid rows reaches _ =>
    have hcursor : cursor ((pidOnly ePid d).setTables fun t => t.insertAll rows) = ePid :=
      cursor_pidOnly reaches.found.2
    refine ⟨?_, rows, stored_insertAll _ _, ?_⟩
    · rw [hcursor]
      exact Nat.le_of_lt reaches.cursor_lt
    · rw [hcursor]
      exact listing_rows hreads hexact hanswered reaches
  | torn reaches fails => exact absurd ⟨fails, _, _, reaches⟩ hcommits

/-- **A collection is listed as it is.** Whatever runs a job makes on a collection that
answers for its indexes, with chunks that fail, servers that do not answer and a supply
that grows: the rows that the runs have added are the tokens from the first cursor to the
last, each once and in order, with its own id and the URI that it has. -/
theorem collection_listed (job : NFTJob) (site : Site) (c : Collection) (envs : List Env)
    (d : Db NFTokens)
    (hreads : ∀ env ∈ envs, ∃ source columns, Reads job site source columns env ∧
      Exact columns ∧ AnsweredBelow site source c env)
    (hcommits : ∀ p ∈ starts step envs d, ¬ CommitFailsFirst p.1 p.2) :
    Listed job site c d (runAll step envs d) := by
  refine runAll_rel Listed.refl (fun _ _ _ => Listed.trans) fun env t ht => ?_
  obtain ⟨source, columns, hread, hexact, hanswered⟩ := hreads env (env_mem_of_starts ht)
  exact listed_step hread hexact hanswered (hcommits (env, t) ht)

/-! ## A collection of two tokens -/

/-- The URI `ipfs://Q` in bytes. -/
def exampleURI : Bytes := [105, 112, 102, 115, 58, 47, 47, 81]

def exampleCollection : Collection := ⟨fun index => 100 + index, fun _ => exampleURI⟩

/-- Tokens at the indexes `0` and `1`, and none at the others. -/
def exampleChain : Chain where
  staticcall _ data :=
    if data.selector = 0x4f6ccce7 then
      if data.arguments.headD 0 < 2 then ⟨true, encodeWord (100 + data.arguments.headD 0)⟩
      else ⟨false, []⟩
    else if data.selector = 0xc87b56dd then ⟨true, encodeString exampleURI⟩
    else ⟨true, []⟩
  balance _ := 0

def exampleSite : Site where
  protocol := "PancakeSwap"
  ipfsHost := "https://ipfs.io"
  collection := 1
  invalidText _ := rawError "invalid codepoint"

def exampleSource : Source where
  chain _ := exampleChain
  fault := none
  callException _ := rawError "missing revert data in call exception"
  axiosGet _ _ := .error (rawError "timeout of 0ms exceeded")

theorem exampleColumns_exact : Exact exampleColumns := by
  refine ⟨fun n m h => ?_, fun t x h => ?_⟩
  · have hdigits : Nat.ofDigitChars 10 (toString n).toList 0 = n := by simp
    simp only [exampleColumns, hdigits] at h
    split at h
    · exact (Except.ok.inj h).symm
    · cases h
  · simp only [exampleColumns] at h
    split at h
    · exact (Except.ok.inj h).symm
    · cases h

def exampleRun (networkPid : ℕ) : Env :=
  ⟨contractContext .pancakeSwap exampleSite exampleSource exampleColumns (.ok networkPid), .none⟩

theorem example_answered {index : ℕ} (h : index < 2) :
    Answered exampleChain 1 exampleCollection index := by
  refine ⟨?_, rfl, ?_, ?_⟩
  · show (if index < 2 then _ else _) = _
    rw [if_pos h]
    rfl
  · show 100 + index < 2 ^ 256
    omega
  · show exampleURI.length ≤ MAX_OFFSET
    decide

theorem example_missing : Missing exampleSite exampleSource 2 := by
  intro i info h
  have hsuccess : false = true := h.indexed.success
  cases hsuccess

/-- Both tokens are listed, with their ids. -/
theorem two_tokens_listed :
    ∃ rows, stored (runAll step [exampleRun 2, exampleRun 2] exampleDb).tables = rows ∧
      rows.map (fun row => (row.index, row.token_uri)) =
        [(100, some "https://ipfs.io/ipfs/Q"), (101, some "https://ipfs.io/ipfs/Q")] := by
  have hlisted := collection_listed .pancakeSwap exampleSite exampleCollection
    [exampleRun 2, exampleRun 2] exampleDb
    (fun env henv => by
      refine ⟨exampleSource, exampleColumns, ?_, exampleColumns_exact, ?_⟩
      · obtain rfl : env = exampleRun 2 := by simpa using henv
        rfl
      · obtain rfl : env = exampleRun 2 := by simpa using henv
        intro networkPid hnetwork i index hindex
        cases hnetwork
        exact example_answered hindex)
    (fun p hp hfails => by
      have hrun : p.1 = exampleRun 2 := by simpa using env_mem_of_starts hp
      have hfault := hfails.1
      rw [hrun] at hfault
      cases hfault)
  obtain ⟨rows, hstored, hrows⟩ := hlisted.added
  have hcursor : cursor (runAll step [exampleRun 2, exampleRun 2] exampleDb) = 2 := by
    decide +kernel
  refine ⟨rows, hstored, ?_⟩
  rw [hcursor] at hrows
  have hlistings := congrArg (List.map fun l => (l.2.2.1, l.2.2.2)) hrows
  rw [List.map_map] at hlistings
  exact hlistings.trans (by decide +kernel)

/-- The supply grows to three, and no run gets past the two that answer. -/
theorem third_token_never_passed :
    cursor (runAll step [exampleRun 2, exampleRun 3, exampleRun 3] exampleDb) ≤ 2 := by
  refine never_passes_missing .pancakeSwap exampleSite 2 _ exampleDb (by decide) fun env henv => ?_
  obtain rfl | rfl : env = exampleRun 2 ∨ env = exampleRun 3 := by simpa using henv
  · exact ⟨exampleSource, exampleColumns, rfl, example_missing⟩
  · exact ⟨exampleSource, exampleColumns, rfl, example_missing⟩

end BlockchainTask.SchedulerJob.ContractNFTokens

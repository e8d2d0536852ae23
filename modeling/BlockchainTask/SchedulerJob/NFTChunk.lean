import BlockchainTask.SchedulerJob.NFTConsistency
import BlockchainTask.SchedulerJob.NFTRecords

/-! # The run over a chunk

The rows of a chunk are inserted together. One info without a record, or with a
value that its column refuses, and nothing of the chunk is stored and the cursor
stays: the next run meets the same chunk. -/
namespace BlockchainTask.SchedulerJob.NFTChunk
open BlockchainTask.Common.Exception BlockchainTask.Helper BlockchainTask.Library.Effect
open BlockchainTask.Helper.Object BlockchainTask.Helper.RegExp
open BlockchainTask.Library.Runs BlockchainTask.Library.Transaction BlockchainTask.Library.Store
open BlockchainTask.Repository.NFToken BlockchainTask.SchedulerJob.Base
open BlockchainTask.SchedulerJob.NFTTemplate BlockchainTask.SchedulerJob.NFTConsistency
open BlockchainTask.SchedulerJob.NFTCrawl BlockchainTask.SchedulerJob.NFTRecords

/-! ## The columns -/

/-- What the columns of the table make of a value: they refuse what is out of
range, too long or malformed. They are nullable. -/
structure Columns where
  index : String → Except Thrown Nat
  text : Value → Except Thrown (Option String)
  text_undefined : text .undefined = .ok none
  text_null : text .null = .ok none

variable (columns : Columns)

def rowOf (params : NFTokenParams) : Except Thrown NFTokenRow := do
  let index ← columns.index params.index
  let token_uri ← columns.text (.string params.token_uri)
  let image_or_animation_uri ← columns.text params.image_or_animation_uri
  pure ⟨params.protocol, params.address, index, token_uri, image_or_animation_uri⟩

/-- The row of an entry, where there is one. -/
def entryRow (entry : Option NFTokenParams) : Option NFTokenRow :=
  entry.bind fun params => (rowOf columns params).toOption

/-- What an entry is refused for. -/
def refused : Option NFTokenParams → Option Thrown
  | none => none
  | some params =>
    match rowOf columns params with
    | .ok _ => none
    | .error e => some e

/-- What the insert is refused for, where it gets that far: an entry without a
record is found before it. -/
def refusal (crawled : List (Option NFTokenParams)) : Option Thrown :=
  if crawled.all Option.isSome then crawled.findSome? (refused columns) else none

variable {columns}

theorem rowOf_eq_ok_iff {params : NFTokenParams} {row : NFTokenRow} :
    rowOf columns params = .ok row ↔
      (columns.index params.index = .ok row.index ∧
        columns.text (.string params.token_uri) = .ok row.token_uri ∧
        columns.text params.image_or_animation_uri = .ok row.image_or_animation_uri) ∧
      row.protocol = params.protocol ∧ row.address = params.address := by
  unfold rowOf
  constructor
  · intro h
    obtain ⟨index, hindex, h⟩ := Eff.except_bind_eq_ok.mp h
    obtain ⟨uri, huri, h⟩ := Eff.except_bind_eq_ok.mp h
    obtain ⟨image, himage, h⟩ := Eff.except_bind_eq_ok.mp h
    cases h
    exact ⟨⟨hindex, huri, himage⟩, rfl, rfl⟩
  · rintro ⟨⟨hindex, huri, himage⟩, hprotocol, haddress⟩
    rw [hindex, huri, himage, ← hprotocol, ← haddress]
    rfl

theorem entryRow_some_iff {params : NFTokenParams} {row : NFTokenRow} :
    entryRow columns (some params) = some row ↔ rowOf columns params = .ok row := by
  show (rowOf columns params).toOption = some row ↔ _
  cases rowOf columns params <;> simp [Except.toOption]

theorem refusal_eq_none {crawled : List (Option NFTokenParams)}
    (h : ∀ entry ∈ crawled, ∃ row, entryRow columns entry = some row) :
    refusal columns crawled = none := by
  unfold refusal
  split
  · rw [List.findSome?_eq_none_iff]
    intro entry hentry
    obtain ⟨row, hrow⟩ := h entry hentry
    cases entry with
    | none => rfl
    | some params =>
      rw [refused, entryRow_some_iff.mp hrow]
  · rfl

/-! ## One info -/

/-- The row of an info. -/
def expected (job : NFTJob) (answers : Answers) (info : NFTokenInfo) (position : Nat) : NFTokenRow :=
  ⟨answers.protocol, job.nfTokenAddress, info.id, some (storedURI job answers info),
    image job answers info position⟩

/-- The URI is one that gets a record, the columns take the id and the texts as they
are, and metadata without a text for the image is stored as NULL. -/
structure Storable (job : NFTJob) (answers : Answers) (columns : Columns) (info : NFTokenInfo)
    (position : Nat) : Prop where
  record : job.onIPFS = true → startsWith info.tokenURI ipfs = true
  index : columns.index (toString info.id) = .ok info.id
  token_uri : columns.text (.string (storedURI job answers info)) =
    .ok (some (storedURI job answers info))
  image : ∀ text, image job answers info position = some text →
    columns.text (.string text) = .ok (some text)
  noText : job.onIPFS = false → checkURI info.tokenURI = true →
    ∀ data, answers.axiosGet position info.tokenURI = .ok data →
      (get data job.imageOrAnimationPath).text? = none →
        columns.text (get data job.imageOrAnimationPath) = .ok none

variable {job : NFTJob} {answers : Answers} {info : NFTokenInfo} {position : Nat}

/-- A text that may be missing is stored as it is where its column takes it. -/
theorem text_ofText_iff {text : Option String} :
    columns.text (.ofText text) = .ok text ↔
      ∀ s, text = some s → columns.text (.string s) = .ok (some s) := by
  cases text with
  | none => simp [Value.ofText, columns.text_null]
  | some s => simp [Value.ofText]

theorem text_taken_iff (hjob : job.onIPFS = false) :
    columns.text (taken job answers info position) = .ok (image job answers info position) ↔
      (∀ s, image job answers info position = some s → columns.text (.string s) = .ok (some s)) ∧
        (checkURI info.tokenURI = true →
          ∀ data, answers.axiosGet position info.tokenURI = .ok data →
            (get data job.imageOrAnimationPath).text? = none →
              columns.text (get data job.imageOrAnimationPath) = .ok none) := by
  rw [image_eq_text hjob]
  rcases taken_cases job answers info position with ⟨hcheck, htaken⟩ | ⟨hcheck, htaken, e, herror⟩ |
    ⟨hcheck, data, hdata⟩
  · simp [htaken, hcheck, columns.text_undefined]
  · simp [htaken, hcheck, herror, columns.text_null]
  · rw [taken_of_data hcheck hdata]
    cases hvalue : get data job.imageOrAnimationPath <;> simp [hcheck, hdata, hvalue, Value.text?]

/-- The entry of an info has the row of the info exactly where it is storable. -/
theorem entryRow_eq_expected_iff :
    entryRow columns (job.callback answers info position) =
        some (expected job answers info position) ↔
      Storable job answers columns info position := by
  cases hjob : job.onIPFS with
  | false =>
    rw [callback_taken hjob, entryRow_some_iff, rowOf_eq_ok_iff]
    simp only [expected, text_taken_iff hjob, and_true]
    constructor
    · rintro ⟨hindex, huri, himage, hnoText⟩
      exact ⟨fun h => (by rw [hjob] at h; cases h), hindex, huri, himage, fun _ => hnoText⟩
    · intro h
      exact ⟨h.index, h.token_uri, h.image, h.noText hjob⟩
  | true =>
    cases hstarts : startsWith info.tokenURI ipfs with
    | false =>
      rw [callback_none hjob hstarts]
      refine ⟨fun h => (by cases h), fun h => ?_⟩
      have hrecord := h.record hjob
      rw [hstarts] at hrecord
      cases hrecord
    | true =>
      rw [callback_complete hjob hstarts, entryRow_some_iff, rowOf_eq_ok_iff]
      simp only [complete, expected, text_ofText_iff, and_true]
      constructor
      · rintro ⟨hindex, huri, himage⟩
        exact ⟨fun _ => hstarts, hindex, huri, himage, fun h => (by rw [hjob] at h; cases h)⟩
      · intro h
        exact ⟨h.index, h.token_uri, h.image⟩

/-! ## The run -/

/-- The pids of the next chunk. -/
def window (networkPid : Nat) (d : Db NFTokens) : List Nat :=
  fillSequenceNumber (chunkEnd chunkSize (cursor d) networkPid - cursor d) (cursor d)

/-- A run of a job on a database that fails nowhere but where the columns refuse the
insert. -/
def chunkEnv (job : NFTJob) (answers : Answers) (columns : Columns) (networkPid : Nat)
    (d : Db NFTokens) : Env where
  context :=
    { networkPid := .ok networkPid
      crawlNFTokens := fun pids =>
        (job.crawlNFTokens answers pids).map fun crawled => crawled.map (entryRow columns)
      one_each := fun pids crawled h => by
        obtain ⟨entries, hentries, rfl⟩ := Eff.except_map_eq_ok.mp h
        rw [List.length_map, job.length_crawlNFTokens hentries] }
  faults :=
    { Faults.none with
      createNFTokens :=
        (job.crawlNFTokens answers (window networkPid d)).toOption.bind (refusal columns) }

/-- There is a next chunk, and the contract answers its infos. -/
structure Due (answers : Answers) (networkPid : Nat) (d : Db NFTokens) (infos : List NFTokenInfo) :
    Prop where
  scheduler : d.scheduler.isSome = true
  behind : cursor d < networkPid
  answered : answers.getNFTokenInfos (window networkPid d) = .ok infos

/-- One row for each info, in order, and the cursor at the end of the chunk. -/
structure StoresChunk (job : NFTJob) (answers : Answers) (networkPid : Nat)
    (infos : List NFTokenInfo) (d d' : Db NFTokens) : Prop where
  rows : stored d'.tables =
    stored d.tables ++ infos.zipIdx.map fun p => expected job answers p.1 p.2
  moved : cursor d' = chunkEnd chunkSize (cursor d) networkPid

variable {networkPid : Nat} {d : Db NFTokens} {infos : List NFTokenInfo}

theorem Due.infos_ne_nil (h : Due answers networkPid d infos) : infos ≠ [] := by
  have hlength := answers.one_each _ _ h.answered
  have hend := chunkEnd_bounds h.behind chunkSize_pos
  rw [window, fillSequenceNumber, List.length_range'] at hlength
  intro hnil
  rw [hnil, List.length_nil] at hlength
  omega

/-- A run that gets to its commit has a row for every info. -/
theorem rows_of_reachesCommit (hdue : Due answers networkPid d infos) {ePid : Nat}
    {rows : List NFTokenRow}
    (h : ReachesCommit (chunkEnv job answers columns networkPid d) d ePid rows) :
    ePid = chunkEnd chunkSize (cursor d) networkPid ∧
      (infos.zipIdx.map fun p => entryRow columns (job.callback answers p.1 p.2)) =
        rows.map some := by
  obtain ⟨pid, hpid, _, hend⟩ := h.behind
  obtain rfl : networkPid = pid := Except.ok.inj hpid
  refine ⟨hend, ?_⟩
  have hcrawled := h.crawled
  rw [hend] at hcrawled
  obtain ⟨entries, hentries, hrows⟩ := Eff.except_map_eq_ok.mp hcrawled
  have hinfos := job.crawlNFTokens_of_infos hdue.answered
  rw [window, hentries] at hinfos
  rw [← hrows, Except.ok.inj hinfos, List.map_map]
  rfl

theorem expected_iff_storable :
    (infos.zipIdx.map fun p => entryRow columns (job.callback answers p.1 p.2)) =
        (infos.zipIdx.map fun p => expected job answers p.1 p.2).map some ↔
      ∀ p ∈ infos.zipIdx, Storable job answers columns p.1 p.2 := by
  rw [List.map_map, List.map_inj_left]
  exact forall₂_congr fun p _ => entryRow_eq_expected_iff

/-- A run gets to its commit with the rows of the infos where all are storable. -/
theorem reachesCommit_expected (hdue : Due answers networkPid d infos)
    (h : ∀ p ∈ infos.zipIdx, Storable job answers columns p.1 p.2) :
    ReachesCommit (chunkEnv job answers columns networkPid d) d
      (chunkEnd chunkSize (cursor d) networkPid)
      (infos.zipIdx.map fun p => expected job answers p.1 p.2) := by
  have hinfos := job.crawlNFTokens_of_infos hdue.answered
  have hrefused :
      refusal columns (infos.zipIdx.map fun p => job.callback answers p.1 p.2) = none := by
    refine refusal_eq_none fun entry hentry => ?_
    obtain ⟨p, hp, rfl⟩ := List.mem_map.mp hentry
    exact ⟨_, entryRow_eq_expected_iff.mpr (h p hp)⟩
  refine ⟨⟨rfl, hdue.scheduler⟩, ⟨networkPid, rfl, hdue.behind, rfl⟩, ?_, fun r hr => ?_, rfl,
    ⟨rfl, rfl⟩, ?_, rfl⟩
  · show (job.crawlNFTokens answers (window networkPid d)).map _ = _
    rw [hinfos, ← expected_iff_storable.mpr h]
    exact congrArg Except.ok List.map_map
  · obtain ⟨p, _, rfl⟩ := List.mem_map.mp hr
    exact job.nfTokenAddress_ne_empty
  · show (job.crawlNFTokens answers (window networkPid d)).toOption.bind (refusal columns) = none
    rw [hinfos]
    exact hrefused

/-- A run stores the chunk exactly where every info is storable. -/
theorem storesChunk_iff (hdue : Due answers networkPid d infos) :
    StoresChunk job answers networkPid infos d
        (step (chunkEnv job answers columns networkPid d) d) ↔
      ∀ p ∈ infos.zipIdx, Storable job answers columns p.1 p.2 := by
  have houtcome := outcome (chunkEnv job answers columns networkPid d) d
  generalize step (chunkEnv job answers columns networkPid d) d = d' at houtcome ⊢
  cases houtcome with
  | unchanged short =>
    refine ⟨fun hstores => ?_, fun h => absurd (reachesCommit_expected hdue h) (short _ _)⟩
    have hnone := List.self_eq_append_right.mp hstores.rows
    rw [List.map_eq_nil_iff, List.zipIdx_eq_nil_iff] at hnone
    exact absurd hnone hdue.infos_ne_nil
  | @committed ePid rows reaches commits =>
    obtain ⟨hend, hrows⟩ := rows_of_reachesCommit hdue reaches
    rw [← expected_iff_storable, hrows]
    constructor
    · intro hstores
      have hadded := (stored_insertAll _ _).symm.trans hstores.rows
      rw [List.append_cancel_left hadded]
    · intro h
      obtain rfl := List.map_injective_iff.mpr (Option.some_injective _) h
      exact ⟨stored_insertAll _ _, (cursor_pidOnly hdue.scheduler).trans hend⟩
  | torn reaches fails => cases fails

/-- An info without a record keeps everything as it was. -/
theorem step_of_missing (hdue : Due answers networkPid d infos) (hjob : job.onIPFS = true)
    (h : ∃ info ∈ infos, startsWith info.tokenURI ipfs = false) :
    step (chunkEnv job answers columns networkPid d) d = d := by
  obtain ⟨info, hinfo, hstarts⟩ := h
  have hshort : ∀ ePid rows,
      ¬ReachesCommit (chunkEnv job answers columns networkPid d) d ePid rows := by
    intro ePid rows hreaches
    obtain ⟨_, hrows⟩ := rows_of_reachesCommit hdue hreaches
    obtain ⟨position, hposition⟩ := List.mem_iff_getElem?.mp hinfo
    have hmem : (info, position) ∈ infos.zipIdx := List.mk_mem_zipIdx_iff_getElem?.mpr hposition
    have hrow := List.mem_map_of_mem (f := fun p : NFTokenInfo × Nat =>
      entryRow columns (job.callback answers p.1 p.2)) hmem
    rw [hrows] at hrow
    obtain ⟨row, _, hnone⟩ := List.mem_map.mp hrow
    rw [callback_none hjob hstarts] at hnone
    cases hnone
  have houtcome := outcome (chunkEnv job answers columns networkPid d) d
  generalize step (chunkEnv job answers columns networkPid d) d = d' at houtcome ⊢
  cases houtcome with
  | unchanged => rfl
  | committed reaches => exact absurd reaches (hshort _ _)
  | torn reaches => exact absurd reaches (hshort _ _)

/-- A run of the job on this data, in whose chunk there is an info with another URI
than one on IPFS. -/
def MeetsOther (job : NFTJob) (columns : Columns) (d : Db NFTokens) (env : Env) : Prop :=
  ∃ answers networkPid infos, Due answers networkPid d infos ∧
    (∃ info ∈ infos, startsWith info.tokenURI ipfs = false) ∧
      env = chunkEnv job answers columns networkPid d

theorem runAll_of_meetsOther (hjob : job.onIPFS = true) {envs : List Env}
    (h : ∀ env ∈ envs, MeetsOther job columns d env) : runAll step envs d = d := by
  induction envs with
  | nil => rfl
  | cons env envs ih =>
    obtain ⟨answers, networkPid, infos, hdue, hother, rfl⟩ := h env List.mem_cons_self
    rw [runAll_cons, step_of_missing hdue hjob hother]
    exact ih fun env' henv => h env' (List.mem_cons_of_mem _ henv)

/-! ## Every job -/

/-- **The records of a chunk.** A crawl resolves to a complete record for each info,
with null for an image that the metadata does not tell, exactly where every info is
readable; and a run stores the rows of its chunk exactly where every info is
storable. A job on IPFS whose chunk has another URI does not get on, however often
it runs. -/
theorem nft_chunk_iff (job : NFTJob) (answers : Answers) :
    (∀ pids infos, answers.getNFTokenInfos pids = .ok infos →
      (job.crawlNFTokens answers pids =
          .ok (infos.zipIdx.map fun p => some (complete job answers p.1 p.2)) ↔
        ∀ p ∈ infos.zipIdx, Readable job answers p.1 p.2)) ∧
      (∀ columns networkPid d infos, Due answers networkPid d infos →
        (StoresChunk job answers networkPid infos d
            (step (chunkEnv job answers columns networkPid d) d) ↔
          ∀ p ∈ infos.zipIdx, Storable job answers columns p.1 p.2)) ∧
      (job.onIPFS = true → ∀ columns d envs, (∀ env ∈ envs, MeetsOther job columns d env) →
        runAll step envs d = d) :=
  ⟨fun _ _ h => crawlNFTokens_complete_iff h, fun _ _ _ _ hdue => storesChunk_iff hdue,
    fun hjob _ _ _ h => runAll_of_meetsOther hjob h⟩

/-! ## A token without a URI

The multicall answers `UNKNOWN` for a token whose `tokenURI` fails. -/

def exampleInfos : List NFTokenInfo :=
  [⟨0, "ipfs://QmQ9"⟩, ⟨1, "ipfs://QmR2"⟩, ⟨2, "UNKNOWN"⟩]

def exampleAnswers : Answers where
  protocol := "PancakeSwap"
  ipfsHost := "https://ipfs.io"
  getNFTokenInfos pids := .ok (pids.map fun pid => exampleInfos.getD pid ⟨pid, "UNKNOWN"⟩)
  one_each pids infos h := by
    cases h
    exact List.length_map _
  axiosGet _ _ := .ok (.object [("image", .string "ipfs://QmP4")])

/-- Decimal integers of four bytes, and texts of 255 characters. -/
def exampleColumns : Columns where
  index text :=
    let index := Nat.ofDigitChars 10 text.toList 0
    if index < 2 ^ 31 then .ok index else .error (rawError "ER_WARN_DATA_OUT_OF_RANGE")
  text
    | .undefined => .ok none
    | .null => .ok none
    | .string s => if s.length ≤ 255 then .ok (some s) else .error (rawError "ER_DATA_TOO_LONG")
    | _ => .error (rawError "ER_PARSE_ERROR")
  text_undefined := rfl
  text_null := rfl

/-- Without the third token the chunk is stored. -/
theorem two_tokens_stored :
    StoresChunk .pancakeSwap exampleAnswers 2 (exampleInfos.take 2) exampleDb
      (step (chunkEnv .pancakeSwap exampleAnswers exampleColumns 2 exampleDb) exampleDb) := by
  have hdue : Due exampleAnswers 2 exampleDb (exampleInfos.take 2) := ⟨rfl, by decide, rfl⟩
  refine ((nft_chunk_iff .pancakeSwap exampleAnswers).2.1 exampleColumns 2 exampleDb _ hdue).mpr
    fun p hp => ?_
  have hcases : p = (⟨0, "ipfs://QmQ9"⟩, 0) ∨ p = (⟨1, "ipfs://QmR2"⟩, 1) := by
    simpa [exampleInfos] using hp
  rcases hcases with rfl | rfl
  · refine ⟨fun _ => by decide, rfl, rfl, fun text htext => ?_, fun h => by cases h⟩
    cases htext
    rfl
  · refine ⟨fun _ => by decide, rfl, rfl, fun text htext => ?_, fun h => by cases h⟩
    cases htext
    rfl

/-- The third token has no record, and the first two are never stored. -/
theorem unknown_uri_blocks_chunk :
    (NFTJob.pancakeSwap.crawlNFTokens exampleAnswers [0, 1, 2]).map (List.map Option.isSome) =
        .ok [true, true, false] ∧
      NFTJob.pancakeSwap.crawlNFTokens exampleAnswers [0, 1, 2] ≠
        .ok (exampleInfos.zipIdx.map fun p => some (complete .pancakeSwap exampleAnswers p.1 p.2)) ∧
      ∀ n, runAll step
        (List.replicate n (chunkEnv .pancakeSwap exampleAnswers exampleColumns 3 exampleDb))
          exampleDb = exampleDb := by
  have hjob : NFTJob.onIPFS .pancakeSwap = true := rfl
  have hunknown : (⟨2, "UNKNOWN"⟩ : NFTokenInfo) ∈ exampleInfos := List.mem_of_getLast? rfl
  have hother : ∃ info ∈ exampleInfos, startsWith info.tokenURI ipfs = false :=
    ⟨_, hunknown, by decide⟩
  refine ⟨rfl, fun hcomplete => ?_, fun n => ?_⟩
  · have hreadable := (crawlNFTokens_complete_iff rfl).mp hcomplete (⟨2, "UNKNOWN"⟩, 2)
      (List.mem_of_getLast? rfl)
    have hstarts : startsWith "UNKNOWN" ipfs = true := hreadable
    exact absurd hstarts (by decide)
  · have hmeets : MeetsOther .pancakeSwap exampleColumns exampleDb
        (chunkEnv .pancakeSwap exampleAnswers exampleColumns 3 exampleDb) :=
      ⟨exampleAnswers, 3, exampleInfos, ⟨rfl, by decide, rfl⟩, hother, rfl⟩
    exact runAll_of_meetsOther hjob fun env henv => List.eq_of_mem_replicate henv ▸ hmeets

end BlockchainTask.SchedulerJob.NFTChunk

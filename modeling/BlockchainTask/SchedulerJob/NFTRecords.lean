import BlockchainTask.SchedulerJob.NFTCrawl

/-! # The records of a chunk

A chunk is crawled well if there is a complete record for each info. The jobs on
IPFS return one exactly for a URI on IPFS, and an info without a record makes the
insert of the whole chunk fail. The other jobs always return one, but what they
take for an image may be undefined or no text, and is then up to the columns. -/
namespace BlockchainTask.SchedulerJob.NFTRecords
open BlockchainTask.Common.Exception BlockchainTask.Helper.Object BlockchainTask.Helper.RegExp
open BlockchainTask.SchedulerJob.NFTCrawl

variable (job : NFTJob) (answers : Answers) (info : NFTokenInfo) (position : Nat)

/-! ## A complete record -/

/-- Where the metadata of an info is, if its URI is one that the job reads. -/
def metadataURL : Option String :=
  if job.onIPFS then
    if startsWith info.tokenURI ipfs then
      some (gateway answers.ipfsHost (String.ofList (info.tokenURI.toList.drop ipfs.length)))
    else none
  else if checkURI info.tokenURI then some info.tokenURI
  else none

/-- The image, where the metadata has a text for it. -/
def image : Option String := do
  let url ← metadataURL job answers info
  let data ← (answers.axiosGet position url).toOption
  let text ← (get data job.imageOrAnimationPath).text?
  pure (if job.onIPFS then gateway answers.ipfsHost (remove text ipfs) else text)

/-- The URI that is stored: on IPFS, the one at the gateway. -/
def storedURI : String :=
  if job.onIPFS then (metadataURL job answers info).getD info.tokenURI else info.tokenURI

def complete : NFTokenParams :=
  ⟨answers.protocol, job.nfTokenAddress, toString info.id, storedURI job answers info,
    .ofText (image job answers info position)⟩

/-! ## One info -/

/-- What a job that is not on IPFS takes for the image. -/
def taken : Value :=
  if checkURI info.tokenURI then
    match answers.axiosGet position info.tokenURI with
    | .ok data => get data job.imageOrAnimationPath
    | .error _ => .null
  else .undefined

variable {job answers info position}

theorem callback_none (hjob : job.onIPFS = true) (h : startsWith info.tokenURI ipfs = false) :
    job.callback answers info position = none := by
  unfold NFTJob.callback
  rw [if_pos hjob]
  unfold crawlIPFS
  rw [h]
  rfl

theorem callback_complete (hjob : job.onIPFS = true) (h : startsWith info.tokenURI ipfs = true) :
    job.callback answers info position = some (complete job answers info position) := by
  have hurl : metadataURL job answers info =
      some (gateway answers.ipfsHost (remove info.tokenURI ipfs)) := by
    unfold metadataURL
    rw [if_pos hjob, if_pos h, remove_of_startsWith (by decide) h]
    rfl
  have huri : storedURI job answers info = gateway answers.ipfsHost (remove info.tokenURI ipfs) := by
    unfold storedURI
    rw [if_pos hjob, hurl]
    rfl
  unfold NFTJob.callback complete image
  rw [if_pos hjob, huri, hurl]
  unfold crawlIPFS
  rw [if_pos h]
  simp only [bind, Except.bind, Option.bind, Except.toOption, if_pos hjob]
  cases answers.axiosGet position (gateway answers.ipfsHost (remove info.tokenURI ipfs)) with
  | error e => rfl
  | ok data =>
    simp only
    cases get data job.imageOrAnimationPath <;> rfl

theorem callback_taken (hjob : job.onIPFS = false) :
    job.callback answers info position =
      some ⟨answers.protocol, job.nfTokenAddress, toString info.id, storedURI job answers info,
        taken job answers info position⟩ := by
  have hnot : ¬job.onIPFS = true := by simp [hjob]
  unfold NFTJob.callback storedURI taken
  rw [if_neg hnot, if_neg hnot]
  unfold crawlURI
  cases hcheck : checkURI info.tokenURI with
  | true => rfl
  | false => simp

theorem image_eq_text (hjob : job.onIPFS = false) :
    image job answers info position = (taken job answers info position).text? := by
  have hnot : ¬job.onIPFS = true := by simp [hjob]
  unfold image taken metadataURL
  rw [if_neg hnot]
  cases hcheck : checkURI info.tokenURI with
  | false => rfl
  | true =>
    cases hdata : answers.axiosGet position info.tokenURI with
    | error e => simp [hdata, Except.toOption]
    | ok data =>
      simp only [hdata, if_true, Except.toOption, bind, Option.bind]
      cases hvalue : get data job.imageOrAnimationPath <;> simp [Value.text?, hjob]

theorem taken_of_data (hcheck : checkURI info.tokenURI = true) {data : Value}
    (hdata : answers.axiosGet position info.tokenURI = .ok data) :
    taken job answers info position = get data job.imageOrAnimationPath := by
  unfold taken
  rw [if_pos hcheck, hdata]

/-- What is taken is undefined, null, or what the metadata has at the path. -/
theorem taken_cases (job : NFTJob) (answers : Answers) (info : NFTokenInfo) (position : Nat) :
    (checkURI info.tokenURI = false ∧ taken job answers info position = .undefined) ∨
      (checkURI info.tokenURI = true ∧ taken job answers info position = .null ∧
        ∃ e, answers.axiosGet position info.tokenURI = .error e) ∨
      (checkURI info.tokenURI = true ∧ ∃ data, answers.axiosGet position info.tokenURI = .ok data) := by
  cases hcheck : checkURI info.tokenURI with
  | false => exact Or.inl ⟨rfl, by simp [taken, hcheck]⟩
  | true =>
    cases hdata : answers.axiosGet position info.tokenURI with
    | error e => exact Or.inr (Or.inl ⟨rfl, by simp [taken, hcheck, hdata], e, rfl⟩)
    | ok data => exact Or.inr (Or.inr ⟨rfl, data, rfl⟩)

/-! ## All infos -/

/-- The URI is one that the job reads, and the metadata, where it answers, has a
text or null for the image. On IPFS it is enough that the URI is there. -/
def Readable (job : NFTJob) (answers : Answers) (info : NFTokenInfo) (position : Nat) : Prop :=
  if job.onIPFS = true then startsWith info.tokenURI ipfs = true
  else checkURI info.tokenURI = true ∧
    ∀ data, answers.axiosGet position info.tokenURI = .ok data →
      get data job.imageOrAnimationPath = .null ∨
        (get data job.imageOrAnimationPath).text?.isSome = true

theorem taken_eq_ofText_iff (hjob : job.onIPFS = false) :
    taken job answers info position = .ofText (image job answers info position) ↔
      Readable job answers info position := by
  have hnot : ¬job.onIPFS = true := by simp [hjob]
  unfold Readable
  rw [image_eq_text hjob, Value.eq_ofText_iff, if_neg hnot]
  rcases taken_cases job answers info position with ⟨hcheck, htaken⟩ | ⟨hcheck, htaken, e, herror⟩ |
    ⟨hcheck, data, hdata⟩
  · rw [htaken, hcheck]
    simp
  · rw [htaken, hcheck, herror]
    simp
  · rw [taken_of_data hcheck hdata, hcheck, hdata]
    simp

theorem callback_eq_complete_iff :
    job.callback answers info position = some (complete job answers info position) ↔
      Readable job answers info position := by
  cases hjob : job.onIPFS with
  | false =>
    rw [callback_taken hjob, ← taken_eq_ofText_iff hjob]
    simp [complete]
  | true =>
    unfold Readable
    rw [if_pos hjob]
    cases hstarts : startsWith info.tokenURI ipfs with
    | false => simp [callback_none hjob hstarts]
    | true => simp [callback_complete hjob hstarts]

/-- A crawl resolves to one complete record for each info, in order, exactly where
every info is readable. -/
theorem crawlNFTokens_complete_iff {pids : List Nat} {infos : List NFTokenInfo}
    (h : answers.getNFTokenInfos pids = .ok infos) :
    job.crawlNFTokens answers pids =
        .ok (infos.zipIdx.map fun p => some (complete job answers p.1 p.2)) ↔
      ∀ p ∈ infos.zipIdx, Readable job answers p.1 p.2 := by
  rw [job.crawlNFTokens_of_infos h, Except.ok.injEq, List.map_inj_left]
  exact forall₂_congr fun p _ => callback_eq_complete_iff

end BlockchainTask.SchedulerJob.NFTRecords

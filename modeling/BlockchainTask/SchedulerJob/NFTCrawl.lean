import BlockchainTask.Helper.Object
import BlockchainTask.Helper.RegExp

/-! # The crawls of the NF-token jobs

A job asks the contract for the infos of the pids and, for each info, the host of
its metadata. There are two copies of what is done with an info. One expects a URI
on IPFS and reads it by way of a gateway; any other URI falls out of its `if`, and
the callback returns nothing. The other requests what looks like a URL and returns a
record in any case. -/
namespace BlockchainTask.SchedulerJob.NFTCrawl
open BlockchainTask.Common.Exception BlockchainTask.Helper.Object BlockchainTask.Helper.RegExp

/-- What `getBatchERC721Infos` answers for one index. The owner is not read. -/
structure NFTokenInfo where
  id : Nat
  tokenURI : String

/-- A crawled NF token, as it is given to the repository. -/
structure NFTokenParams where
  protocol : String
  address : String
  index : String
  token_uri : String
  image_or_animation_uri : Value

/-- What a crawl reads: the protocol of the service, the contract's infos, of which
there is one for each pid, the gateway, and the data that a request answers. Two
infos of one chunk may ask for the same URL and get different answers. -/
structure Answers where
  protocol : String
  ipfsHost : String
  getNFTokenInfos : List Nat → Except Thrown (List NFTokenInfo)
  one_each : ∀ pids infos, getNFTokenInfos pids = .ok infos → infos.length = pids.length
  axiosGet : Nat → String → Except Thrown Value

def ipfs : String := "ipfs://"

def gateway (ipfsHost ipfsHash : String) : String := ipfsHost ++ "/ipfs/" ++ ipfsHash

section
variable (answers : Answers)

/-- The callback of the jobs whose metadata is on IPFS, for the info at a position. -/
def crawlIPFS (nfTokenAddress imageOrAnimationPath : String) (info : NFTokenInfo) (position : Nat) :
    Option NFTokenParams :=
  if startsWith info.tokenURI ipfs then
    let httpTokenUri := gateway answers.ipfsHost (remove info.tokenURI ipfs)
    let imageDataHash := do
      let tokenData ← answers.axiosGet position httpTokenUri
      (get tokenData imageOrAnimationPath).remove ipfs
    let imageOrAnimationUri :=
      match imageDataHash with
      | .ok imageDataHash => .string (gateway answers.ipfsHost imageDataHash)
      | .error _ => .null
    some ⟨answers.protocol, nfTokenAddress, toString info.id, httpTokenUri, imageOrAnimationUri⟩
  else none

/-- The callback of the jobs whose metadata is at the URI itself. -/
def crawlURI (nfTokenAddress imageOrAnimationPath : String) (info : NFTokenInfo) (position : Nat) :
    Option NFTokenParams :=
  let isValidURI := checkURI info.tokenURI
  let data := if isValidURI then answers.axiosGet position info.tokenURI else .ok .null
  let imageOrAnimationUri :=
    match data with
    | .ok data => get data imageOrAnimationPath
    | .error _ => .null
  some ⟨answers.protocol, nfTokenAddress, toString info.id, info.tokenURI, imageOrAnimationUri⟩

/-- `Promise.all` over the infos. No callback rejects, so it resolves. -/
def crawlAll (callback : NFTokenInfo → Nat → Option NFTokenParams) (pids : List Nat) :
    Except Thrown (List (Option NFTokenParams)) := do
  let nfTokenInfos ← answers.getNFTokenInfos pids
  pure (nfTokenInfos.zipIdx.map fun p => callback p.1 p.2)

/-! ## The jobs -/

def PancakeSwapBSCNFTService.crawlNFTokens :=
  crawlAll answers (crawlIPFS answers "0xDf7952B35f24aCF7fC0487D01c8d5690a60DBa07" "image")

def PancakeSwapBSCNFT2Service.crawlNFTokens :=
  crawlAll answers (crawlIPFS answers "0x0a8901b0E25DEb55A87524f0cC164E9644020EBA" "image")

def PancakeSwapBSCNFT3Service.crawlNFTokens :=
  crawlAll answers (crawlURI answers "0x44d85770aEa263F9463418708125Cd95e308299B" "image")

def PancakeSwapBSCNFT4Service.crawlNFTokens :=
  crawlAll answers (crawlURI answers "0x3da8410e6EF658c06E277a2769816688c37496CF" "image")

def PancakeSwapBSCNFT5Service.crawlNFTokens :=
  crawlAll answers (crawlURI answers "0x11304895f41C5A9b7fBFb0C4B011A92f1020EF96" "image")

def AirNFTBSCNFTService.crawlNFTokens :=
  crawlAll answers (crawlURI answers "0xF5db804101d8600c26598A1Ba465166c33CdAA4b" "nft.image")

def ApeSwapBSCNFTService.crawlNFTokens :=
  crawlAll answers (crawlURI answers "0x6eca7754007d22d3F557740d06FeD4A031BeFE1e" "image")

end

/-- The jobs that extend `NFTTemplate`. -/
inductive NFTJob where
  | pancakeSwap
  | pancakeSwap2
  | pancakeSwap3
  | pancakeSwap4
  | pancakeSwap5
  | airNFT
  | apeSwap
  deriving DecidableEq

namespace NFTJob

def crawlNFTokens (answers : Answers) :
    NFTJob → List Nat → Except Thrown (List (Option NFTokenParams))
  | pancakeSwap => PancakeSwapBSCNFTService.crawlNFTokens answers
  | pancakeSwap2 => PancakeSwapBSCNFT2Service.crawlNFTokens answers
  | pancakeSwap3 => PancakeSwapBSCNFT3Service.crawlNFTokens answers
  | pancakeSwap4 => PancakeSwapBSCNFT4Service.crawlNFTokens answers
  | pancakeSwap5 => PancakeSwapBSCNFT5Service.crawlNFTokens answers
  | airNFT => AirNFTBSCNFTService.crawlNFTokens answers
  | apeSwap => ApeSwapBSCNFTService.crawlNFTokens answers

def nfTokenAddress : NFTJob → String
  | pancakeSwap => "0xDf7952B35f24aCF7fC0487D01c8d5690a60DBa07"
  | pancakeSwap2 => "0x0a8901b0E25DEb55A87524f0cC164E9644020EBA"
  | pancakeSwap3 => "0x44d85770aEa263F9463418708125Cd95e308299B"
  | pancakeSwap4 => "0x3da8410e6EF658c06E277a2769816688c37496CF"
  | pancakeSwap5 => "0x11304895f41C5A9b7fBFb0C4B011A92f1020EF96"
  | airNFT => "0xF5db804101d8600c26598A1Ba465166c33CdAA4b"
  | apeSwap => "0x6eca7754007d22d3F557740d06FeD4A031BeFE1e"

def imageOrAnimationPath : NFTJob → String
  | airNFT => "nft.image"
  | _ => "image"

/-- Whether the job expects its metadata on IPFS. -/
def onIPFS : NFTJob → Bool
  | pancakeSwap | pancakeSwap2 => true
  | _ => false

def callback (job : NFTJob) (answers : Answers) : NFTokenInfo → Nat → Option NFTokenParams :=
  if job.onIPFS then crawlIPFS answers job.nfTokenAddress job.imageOrAnimationPath
  else crawlURI answers job.nfTokenAddress job.imageOrAnimationPath

/-- Every job is one of the two copies. -/
theorem crawlNFTokens_eq (job : NFTJob) (answers : Answers) :
    job.crawlNFTokens answers = crawlAll answers (job.callback answers) := by
  cases job <;> rfl

theorem crawlNFTokens_of_infos (job : NFTJob) {answers : Answers} {pids : List Nat}
    {infos : List NFTokenInfo} (h : answers.getNFTokenInfos pids = .ok infos) :
    job.crawlNFTokens answers pids =
      .ok (infos.zipIdx.map fun p => job.callback answers p.1 p.2) := by
  rw [crawlNFTokens_eq]
  unfold crawlAll
  rw [h]
  rfl

theorem length_crawlNFTokens (job : NFTJob) {answers : Answers} {pids : List Nat}
    {crawled : List (Option NFTokenParams)} (h : job.crawlNFTokens answers pids = .ok crawled) :
    crawled.length = pids.length := by
  cases hinfos : answers.getNFTokenInfos pids with
  | error e =>
    rw [crawlNFTokens_eq] at h
    unfold crawlAll at h
    rw [hinfos] at h
    cases h
  | ok infos =>
    rw [crawlNFTokens_of_infos job hinfos] at h
    cases h
    rw [List.length_map, List.length_zipIdx, answers.one_each pids infos hinfos]

theorem nfTokenAddress_ne_empty (job : NFTJob) : job.nfTokenAddress ≠ "" := by
  cases job <;> decide

end NFTJob

end BlockchainTask.SchedulerJob.NFTCrawl

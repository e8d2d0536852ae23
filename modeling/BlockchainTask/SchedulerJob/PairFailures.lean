import BlockchainTask.SchedulerJob.NestedPairs

/-! # Failed calls of a chunk

A job asks for the addresses of a chunk, and the KlaySwap job also for what
each is made of, in batches of calls that fail one by one. A failed call leaves
an empty array in the place of an address, or a null constituent. Neither gets
through a task: the array cannot be encoded into the next batch, and the null
value, which lower-casing keeps and no registered token removes, is no address
when the single tokens are written in their checksum form. So a chunk is
registered as its other entries alone would be only when no call of it
failed. -/
namespace BlockchainTask.SchedulerJob.PairFailures
open BlockchainTask.Helper BlockchainTask.Common.Exception
open BlockchainTask.Library.Effect BlockchainTask.Library.Transaction BlockchainTask.Library.Store
open BlockchainTask.Repository.Token BlockchainTask.SchedulerJob.Base
open BlockchainTask.SchedulerJob.PairTemplate BlockchainTask.SchedulerJob.PairEffect

/-! ## The calls of a batch -/

/-- What the aggregator gives of a call for an address. The bytes `0x` encode
none. A call that fails may give bytes all the same. -/
structure Result where
  success : Bool
  returnData : Option String
  deriving DecidableEq

def isNullBytes (value : Option String) : Bool := value == none

def validResult (result : Result) : Bool := result.success && !isNullBytes result.returnData

/-- The address of a valid result. -/
def decoded (result : Result) : Option String :=
  if validResult result then result.returnData else none

theorem decoded_eq_none {result : Result} (h : ¬ validResult result = true) :
    decoded result = none := if_neg h

/-- The outcome of every call of a run: `allPairs` or `getPoolAddress` for a
pid, and what a pool is made of. -/
structure SubCalls where
  pool : Nat → Result
  tokenA : String → Result
  tokenB : String → Result

/-- The jobs by their `getPairsInfo`: that of the template, or that of the
KlaySwap job. -/
inductive PairJob where
  | template
  | klaySwap
  deriving DecidableEq

section
variable (calls : SubCalls)

/-- An entry whose call failed is an empty array. -/
def getAMMFactoryInfos (pids : List Nat) : List (Option String) :=
  pids.map fun pid => decoded (calls.pool pid)

/-- One pool of the override, from its two results. -/
def zipped (pool : String × List Result) : Except Thrown PairInfo :=
  match pool.2 with
  | [tokenA, tokenB] => .ok ⟨pool.1, decoded tokenA, decoded tokenB, false⟩
  | _ => .error typeError

/-- `KlaySwapKLAYTNPairService.getPairsInfo`. -/
def klaySwapPairsInfo (multiTokens : List String) : Except Thrown (List PairInfo) :=
  let pairsInfoBatchCall :=
    (multiTokens.map fun address => [calls.tokenA address, calls.tokenB address]).flatten
  let pairsInfoBatchCallMap := toSplitWithChunkSize pairsInfoBatchCall 2
  (multiTokens.zip pairsInfoBatchCallMap).mapM zipped

/-- A job on a node with these outcomes. Everything else is as in the context. -/
def PairJob.on (job : PairJob) (context : Context) : Context :=
  { context with
    getAMMFactoryInfos := fun pids => .ok (getAMMFactoryInfos calls pids)
    getPairsInfo := match job with
      | .template => context.getBatchPairInfos
      | .klaySwap => klaySwapPairsInfo calls }

/-- The calls a job makes for the entry of a pid all succeed. -/
def Succeeds (job : PairJob) (pid : Nat) : Prop :=
  validResult (calls.pool pid) = true ∧
    (job = .klaySwap → ∀ address, (calls.pool pid).returnData = some address →
      validResult (calls.tokenA address) = true ∧ validResult (calls.tokenB address) = true)

instance (job : PairJob) (pid : Nat) : Decidable (Succeeds calls job pid) :=
  inferInstanceAs (Decidable (_ ∧ (_ → ∀ address, (calls.pool pid).returnData = some address → _)))

/-- The chunk without its failed entries. -/
def succeeded (job : PairJob) (pids : List Nat) : List Nat :=
  pids.filter fun pid => decide (Succeeds calls job pid)

end

variable {calls : SubCalls} {job : PairJob} {context : Context} {faults : Faults}

/-- What the override reports of a pool. -/
def composition (calls : SubCalls) (address : String) : PairInfo :=
  ⟨address, decoded (calls.tokenA address), decoded (calls.tokenB address), false⟩

/-- The results are matched with the pools they belong to. -/
theorem klaySwapPairsInfo_eq (multiTokens : List String) :
    klaySwapPairsInfo calls multiTokens = .ok (multiTokens.map (composition calls)) := by
  have hsplit : toSplitWithChunkSize
      (multiTokens.map fun address => [calls.tokenA address, calls.tokenB address]).flatten 2 =
        multiTokens.map fun address => [calls.tokenA address, calls.tokenB address] := by
    refine toSplitWithChunkSize_flatten (by omega) fun piece hpiece => ?_
    obtain ⟨address, _, rfl⟩ := List.mem_map.mp hpiece
    rfl
  show (multiTokens.zip (toSplitWithChunkSize _ 2)).mapM zipped = _
  rw [hsplit]
  induction multiTokens with
  | nil => rfl
  | cons address rest ih =>
    have hrest := ih (toSplitWithChunkSize_flatten (by omega) fun piece hpiece => by
      obtain ⟨address, _, rfl⟩ := List.mem_map.mp hpiece
      rfl)
    rw [List.map_cons, List.zip_cons_cons, List.mapM_cons, hrest]
    rfl

/-! ## Neither encoding of a failure gets through -/

/-- The task throws, whatever the database holds or answers. -/
def Throws {α : Type} (m : JobEff Tokens α) : Prop :=
  ∀ s, Eff.wp m (fun _ _ => False) (fun _ _ => True) s

theorem Throws.not_returns {α : Type} {m : JobEff Tokens α} (h : Throws m)
    {s t : Session (Db Tokens) LoggerData} {a : α} : m s ≠ (.ok a, t) :=
  fun hrun => (Eff.wp_iff.mp (h s)).1 a t hrun

theorem Throws.bind {α β : Type} {m : JobEff Tokens α} (h : Throws m) (f : α → JobEff Tokens β) :
    Throws (m >>= f) := fun s =>
  (Eff.wp_bind m f).mpr (Eff.wp_mono (h s) (fun _ _ hfalse => hfalse.elim) fun _ _ h => h)

/-- What follows is run on a value with the given property, and throws on each. -/
theorem throws_bind {α β : Type} {m : JobEff Tokens α} {f : α → JobEff Tokens β} {P : α → Prop}
    (hm : ∀ s, Eff.wp m (fun a _ => P a) (fun _ _ => True) s) (hf : ∀ a, P a → Throws (f a)) :
    Throws (m >>= f) := fun s =>
  (Eff.wp_bind m f).mpr (Eff.wp_mono (hm s) (fun a t ha => hf a ha t) fun _ _ h => h)

theorem none_notMem_map_some {α : Type} (f : α → String) (xs : List α) :
    none ∉ xs.map fun x => some (f x) := by
  intro hmem
  obtain ⟨x, _, hx⟩ := List.mem_map.mp hmem
  cases hx

theorem mapM_id_eq_some {multiTokens : List (Option String)} {addresses : List String}
    (h : multiTokens.mapM id = some addresses) : multiTokens = addresses.map some := by
  induction multiTokens generalizing addresses with
  | nil =>
    cases h
    rfl
  | cons entry rest ih =>
    rw [List.mapM_cons] at h
    obtain ⟨address, hentry, hrest⟩ := Option.bind_eq_some_iff.mp h
    obtain ⟨others, hothers, hwhole⟩ := Option.bind_eq_some_iff.mp hrest
    cases hwhole
    rw [List.map_cons, ← ih hothers]
    exact congrArg (· :: rest) hentry

/-- An empty array among the entries cannot be encoded. -/
theorem doTask_throws_of_none {multiTokens : List (Option String)} (h : none ∈ multiTokens) :
    Throws (doTask context faults multiTokens) := by
  refine Throws.bind (fun s => ?_) _
  unfold getPairsInfo
  cases hencoded : multiTokens.mapM id with
  | none => trivial
  | some addresses =>
    rw [mapM_id_eq_some hencoded] at h
    exact absurd h (none_notMem_map_some id addresses)

/-- Only a null value removes a null value. -/
theorem none_mem_removeStringValues {array removeArray : List (Option String)}
    (h : none ∈ array) (hremove : none ∉ removeArray) :
    none ∈ removeStringValues array removeArray := by
  have hlower : (none : Option String) ∈ array.map fun value => value.map toLowerCase :=
    List.mem_map.mpr ⟨none, h, rfl⟩
  simp only [removeStringValues]
  split
  · exact hlower
  · refine List.mem_filter.mpr ⟨hlower, ?_⟩
    have hkept : none ∉ removeArray.map fun value => value.map toLowerCase := by
      intro hmem
      obtain ⟨value, hvalue, hnull⟩ := List.mem_map.mp hmem
      rw [Option.map_eq_none_iff.mp hnull] at hvalue
      exact hremove hvalue
    simpa using hkept

/-- The checksum address of a value, or the error of one that is no address. -/
def checkSum (context : Context) (address : Option String) : Except Thrown String :=
  (address.bind context.getAddress).elim (.error (rawError "invalid address")) .ok

theorem toCheckSumAddress_run (address : Option String) (s : Session (Db Tokens) LoggerData) :
    toCheckSumAddress context address s = (checkSum context address, s) := by
  simp only [toCheckSumAddress, checkSum]
  cases address.bind context.getAddress with
  | none => rfl
  | some sum => rfl

/-- A null value among the single tokens is no address. -/
theorem removeInvalidTokens_throws {multi single : List (Option String)}
    (hnone : none ∈ removeStringValues single multi) :
    Throws (removeInvalidTokens context multi single) := by
  refine Throws.bind (fun s => ?_) _
  obtain ⟨e, herror⟩ := Eff.mapEach_of_error (fun address _ => toCheckSumAddress_run address s)
    hnone (e := rawError "invalid address") rfl
  unfold Eff.wp
  rw [herror]
  trivial

/-- A null constituent stays among the new single tokens. -/
theorem removeRegisteredTokens_null {multi : List String} {single : List (Option String)}
    (h : none ∈ single) (s : Session (Db Tokens) LoggerData) :
    Eff.wp (removeRegisteredTokens context faults multi single)
      (fun new _ => none ∈ new.2 ∧ none ∉ new.1) (fun _ _ => True) s := by
  rw [removeRegisteredTokens, Eff.wp_bind]
  refine wp_connectionRead (fun _ => ?_) fun _ _ => trivial
  rw [Eff.wp_bind]
  refine wp_connectionRead (fun _ => ⟨?_, ?_⟩) fun _ _ => trivial
  · exact none_mem_removeStringValues h (none_notMem_map_some _ _)
  · intro hmem
    obtain ⟨⟨value, hvalue, hnull⟩, _⟩ := mem_removeStringValues hmem
    rw [Option.map_eq_none_iff.mp hnull.symm] at hvalue
    exact none_notMem_map_some id multi hvalue

/-- A pair with a null constituent fails the task it is part of. -/
theorem doTask_throws_of_null {multiTokens : List (Option String)}
    (h : ∀ addresses composed, multiTokens.mapM id = some addresses →
      context.getPairsInfo addresses = .ok composed →
        ∃ info ∈ composed, info.token0 = none ∨ info.token1 = none) :
    Throws (doTask context faults multiTokens) := by
  refine throws_bind (P := fun composed => ∃ info ∈ composed, info.token0 = none ∨
    info.token1 = none) (fun s => ?_) fun composed hcomposed => ?_
  · unfold getPairsInfo
    cases hencoded : multiTokens.mapM id with
    | none => trivial
    | some addresses =>
      exact (Eff.wp_await _).mpr ⟨fun composed hok => h addresses composed hencoded hok,
        fun _ _ => trivial⟩
  · have hnone : none ∈ (grouping composed).2 := by
      obtain ⟨info, hinfo, hnull⟩ := hcomposed
      refine List.mem_eraseDups.mpr (List.mem_flatMap.mpr ⟨info, hinfo, ?_⟩)
      rcases hnull with hnull | hnull <;> simp [hnull]
    refine throws_bind (removeRegisteredTokens_null hnone) fun new hnew => ?_
    exact Throws.bind (removeInvalidTokens_throws (none_mem_removeStringValues hnew.1 hnew.2)) _

/-! ## When a chunk is registered as its other entries alone would be -/

/-- The task does not throw because of the failed entries: where the chunk
without them is registered, the chunk with them is, and leaves every pair whose
own calls succeeded as it is left without them. -/
def Tolerates (calls : SubCalls) (job : PairJob) (context : Context) (faults : Faults)
    (pids : List Nat) (s : Session (Db Tokens) LoggerData) : Prop :=
  ∀ s₁, doTask (job.on calls context) faults
      (getAMMFactoryInfos calls (succeeded calls job pids)) s = (.ok (), s₁) →
    ∃ s₂, doTask (job.on calls context) faults (getAMMFactoryInfos calls pids) s = (.ok (), s₂) ∧
      ∀ pid ∈ succeeded calls job pids,
        findOne context.network (decoded (calls.pool pid)) s₂.view.tables =
          findOne context.network (decoded (calls.pool pid)) s₁.view.tables

/-- A failed entry makes the task throw. -/
theorem doTask_throws_of_failed {pids : List Nat} {pid : Nat} (hpid : pid ∈ pids)
    (hfailed : ¬ Succeeds calls job pid) :
    Throws (doTask (job.on calls context) faults (getAMMFactoryInfos calls pids)) := by
  by_cases hpool : validResult (calls.pool pid) = true
  · -- the entry is an address, so it is one of the override's null constituents
    rw [Succeeds, not_and, Classical.not_imp] at hfailed
    obtain ⟨rfl, hnull⟩ := hfailed hpool
    rw [not_forall] at hnull
    obtain ⟨address, hnull⟩ := hnull
    rw [Classical.not_imp, not_and_or] at hnull
    obtain ⟨haddress, hnull⟩ := hnull
    refine doTask_throws_of_null fun addresses composed hencoded hcomposed => ?_
    have hpairs : klaySwapPairsInfo calls addresses = .ok composed := hcomposed
    rw [klaySwapPairsInfo_eq, Except.ok.injEq] at hpairs
    have hentry : some address ∈ addresses.map some := by
      rw [← mapM_id_eq_some hencoded]
      refine List.mem_map.mpr ⟨pid, hpid, ?_⟩
      rw [decoded, if_pos hpool, haddress]
    have hmem : address ∈ addresses := by simpa using hentry
    rw [← hpairs]
    refine ⟨composition calls address, List.mem_map.mpr ⟨address, hmem, rfl⟩, ?_⟩
    rcases hnull with hnull | hnull
    · exact Or.inl (decoded_eq_none hnull)
    · exact Or.inr (decoded_eq_none hnull)
  · exact doTask_throws_of_none (List.mem_map.mpr ⟨pid, hpid, decoded_eq_none hpool⟩)

/-- A chunk whose other entries are registered without its failed ones is
registered with them, and the same, exactly when it has no failed entry. -/
theorem tolerates_iff {pids : List Nat} {s s₁ : Session (Db Tokens) LoggerData}
    (h : doTask (job.on calls context) faults
      (getAMMFactoryInfos calls (succeeded calls job pids)) s = (.ok (), s₁)) :
    Tolerates calls job context faults pids s ↔ ∀ pid ∈ pids, Succeeds calls job pid := by
  constructor
  · intro htolerates pid hpid
    by_contra hfailed
    obtain ⟨s₂, hrun, _⟩ := htolerates s₁ h
    exact (doTask_throws_of_failed hpid hfailed).not_returns hrun
  · intro hall s' hrun
    have hsame : succeeded calls job pids = pids := List.filter_eq_self.mpr fun pid hpid =>
      decide_eq_true (hall pid hpid)
    rw [hsame] at hrun
    exact ⟨s', hrun, fun _ _ => rfl⟩

/-! ## One failed call of two -/

/-- A factory whose second call for an address fails. -/
def failedPool : SubCalls where
  pool pid := if pid = 0 then ⟨true, some "0x1"⟩ else ⟨false, none⟩
  tokenA _ := ⟨true, some "0xA"⟩
  tokenB _ := ⟨true, some "0xB"⟩

/-- A factory whose second pool gives no bytes for one of its tokens. -/
def failedToken : SubCalls where
  pool pid := ⟨true, some (if pid = 0 then "0x1" else "0x2")⟩
  tokenA _ := ⟨true, some "0xA"⟩
  tokenB pool := ⟨true, if pool = "0x1" then some "0xB" else none⟩

/-- The first pool alone is registered. -/
theorem first_registered (calls : SubCalls) (job : PairJob)
    (h : calls = failedPool ∨ calls = failedToken ∧ job = .klaySwap) :
    ∃ s₁, doTask (job.on calls (.steady [NestedPairs.once])) .none
        (getAMMFactoryInfos calls (succeeded calls job [0, 1])) NestedPairs.exampleSession =
      (.ok (), s₁) ∧
      (findOne 1 (some "0x1") s₁.view.tables).isSome = true := by
  rcases h with rfl | ⟨rfl, rfl⟩
  · cases job
    · exact ⟨_, rfl, by decide⟩
    · exact ⟨_, rfl, by decide⟩
  · exact ⟨_, rfl, by decide⟩

/-- With the other entry in the chunk a job does not register it. -/
theorem failedPool_not_tolerated (job : PairJob) :
    ¬ Tolerates failedPool job (.steady [NestedPairs.once]) .none [0, 1]
      NestedPairs.exampleSession := by
  intro htolerates
  obtain ⟨s₁, hrun, _⟩ := first_registered failedPool job (Or.inl rfl)
  obtain ⟨s₂, hwhole, _⟩ := htolerates s₁ hrun
  have hfailed : ¬ Succeeds failedPool job 1 := fun h => absurd h.1 (by decide)
  exact (doTask_throws_of_failed (by decide) hfailed).not_returns hwhole

/-- Neither job does. -/
theorem failed_call_not_tolerated :
    ¬ Tolerates failedPool .template (.steady [NestedPairs.once]) .none [0, 1]
        NestedPairs.exampleSession ∧
      ¬ Tolerates failedPool .klaySwap (.steady [NestedPairs.once]) .none [0, 1]
        NestedPairs.exampleSession :=
  ⟨failedPool_not_tolerated .template, failedPool_not_tolerated .klaySwap⟩

theorem failed_token_not_tolerated :
    ¬ Tolerates failedToken .klaySwap (.steady [NestedPairs.once]) .none [0, 1]
      NestedPairs.exampleSession := by
  obtain ⟨s₁, hrun, _⟩ := first_registered failedToken .klaySwap (Or.inr ⟨rfl, rfl⟩)
  rw [tolerates_iff hrun]
  decide

end BlockchainTask.SchedulerJob.PairFailures

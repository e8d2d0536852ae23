import BlockchainTask.SchedulerJob.PriceTemplate

/-! # What a refresh leaves behind

The chunks of a refresh are known before the first one is crawled: they split
the tokens by chain and by number. Each chunk is applied as a whole or not at
all, and the first one that fails is the last one, so the table is always the
initial one with the updates of a prefix of the chunks. -/
namespace BlockchainTask.SchedulerJob.PriceRefresh
open BlockchainTask.Common.Exception BlockchainTask.Helper
open BlockchainTask.Helper.GroupBy BlockchainTask.Library.Decimal
open BlockchainTask.Library.Effect BlockchainTask.Library.Transaction BlockchainTask.Library.Store
open BlockchainTask.Repository.PricedToken BlockchainTask.SchedulerJob.Base
open BlockchainTask.SchedulerJob.TokenPrice BlockchainTask.SchedulerJob.PriceTemplate

/-! ## One chunk -/

/-- The updates of one chunk. -/
def applied (params : List UpdateParam) (t : PricedTokens) : PricedTokens :=
  params.foldl (fun t param =>
    updateToken param.id (written param.price_value) (written param.total_supply) t) t

section
variable {L : Type} {s : Session (Db PricedTokens) L}

theorem wp_updates {faults : Faults} {params : List UpdateParam} (hpending : s.pending = some id) :
    Eff.wp (Eff.forEach params fun param => updateTokenWith (faults.updateToken param.id) param)
      (fun _ u => u.db = s.db ∧ u.log = s.log ∧
        ∃ p, u.pending = some p ∧ p s.db = s.db.setTables (applied params))
      (fun _ u => u.db = s.db ∧ u.log = s.log) s := by
  refine Eff.wp_forEach (fun done (u : Session (Db PricedTokens) L) => u.db = s.db ∧
    u.log = s.log ∧ ∃ p, u.pending = some p ∧ p s.db = s.db.setTables (applied done))
    (fun done param rest _ u hu => ?_) ⟨rfl, rfl, id, hpending, rfl⟩
  obtain ⟨hdb, hlog, p, hp, hdone⟩ := hu
  refine wp_managerWrite_pending hp (fun _ _ v hvdb hvlog hvp => ?_) fun _ _ => ⟨hdb, hlog⟩
  refine ⟨hvdb.trans hdb, hvlog.trans hlog, _, hvp, ?_⟩
  rw [Function.comp, hdone]
  simp only [Db.setTables, applied, List.foldl_append, List.foldl_cons, List.foldl_nil]

/-- **All or nothing.** A chunk's update is applied as a whole, or it throws and
the table is as it was. -/
theorem wp_bulkUpdate (faults : Faults) (params : List UpdateParam) :
    Eff.wp (bulkUpdate faults params)
      (fun _ u => u.db = s.db.setTables (applied params) ∧ u.log = s.log)
      (fun _ u => u.db = s.db ∧ u.log = s.log) s := by
  refine wp_opened (fun _ _ u hudb hulog hup => ?_) fun _ _ u hudb hulog _ => ⟨hudb, hulog⟩
  refine wp_finallyRelease (P := fun _ d l => d = s.db.setTables (applied params) ∧ l = s.log)
    (F := fun d l => d = s.db ∧ l = s.log) ?_
  rw [Eff.wp_tryCatch, Eff.wp_bind]
  refine Eff.wp_mono (wp_updates hup) (fun _ v hv => ?_) fun e v hv => ?_
  · obtain ⟨hvdb, hvlog, p, hp, happlied⟩ := hv
    rw [hudb] at hvdb happlied
    refine wp_commitTransaction_pending hp (fun _ w hwdb hwlog _ => ?_) fun e _ => ?_
    · exact ⟨by rw [hwdb, hvdb, happlied], hwlog.trans (hvlog.trans hulog)⟩
    · exact wp_rollbackAndThrow (P := fun d l => d = s.db ∧ l = s.log) ⟨hvdb, hvlog.trans hulog⟩
  · exact wp_rollbackAndThrow (P := fun d l => d = s.db ∧ l = s.log)
      ⟨hv.1.trans hudb, hv.2.trans hulog⟩

end

/-! ## The chunks of a refresh -/

section
variable {T : Type} (chain_id : T → ℕ) (tokens : List T)

def grouped : Groups T := groupBy tokens fun token => (chain_id token).repr

/-- The chain and the tokens of each chunk, in the order of the loops. -/
def plan : List (ℕ × List T) :=
  (objectKeys (grouped chain_id tokens)).flatMap fun chainId =>
    (toSplitWithChunkSize ((grouped chain_id tokens).property (number chainId).repr) chunkSize).map
      fun targetTokens => (number chainId, targetTokens)

/-- The two loops are one, over the plan. -/
theorem refresh_eq {L : Type} (crawl : Crawl L T) (faults : L → ℕ → List T → Faults)
    (s : Session (Db PricedTokens) L) :
    refresh crawl faults chain_id tokens s =
      Eff.forEach (plan chain_id tokens) (fun call => refreshChunk crawl faults call.1 call.2) s := by
  have hplan : plan chain_id tokens = ((objectKeys (grouped chain_id tokens)).flatMap fun chainId =>
      (toSplitWithChunkSize ((grouped chain_id tokens).property (number chainId).repr)
        chunkSize).map fun targetTokens => (chainId, targetTokens)).map
          fun call => (number call.1, call.2) := by
    simp only [plan, List.map_flatMap, List.map_map]
    rfl
  rw [hplan, Eff.forEach_map]
  exact Eff.forEach_forEach _ (fun chainId => refreshChunk crawl faults (number chainId)) _ s

variable {chain_id tokens}

/-- A name of the groups is the text of a chain id. -/
theorem repr_number {chainId : String} (h : chainId ∈ objectKeys (grouped chain_id tokens)) :
    (number chainId).repr = chainId := by
  have hname := (objectKeys_perm _).mem_iff.mp h
  obtain ⟨token, _, rfl⟩ := ((grouped_groupBy tokens _).names chainId).mp hname
  rw [number_repr]

theorem property_grouped {chainId : String} (h : chainId ∈ objectKeys (grouped chain_id tokens)) :
    (grouped chain_id tokens).property (number chainId).repr =
      tokens.filter fun token => (chain_id token).repr = chainId := by
  rw [repr_number h]
  exact property_groupBy ((objectKeys_perm _).mem_iff.mp h)

/-- The calls of a complete refresh: each token once, within the size of a chunk,
with its own chain. -/
structure Covers (chain_id : T → ℕ) (tokens : List T) (calls : List (ℕ × List T)) : Prop where
  once : (calls.flatMap Prod.snd).Perm tokens
  within : ∀ call ∈ calls, call.2.length ≤ chunkSize
  ownChain : ∀ call ∈ calls, ∀ token ∈ call.2, chain_id token = call.1

theorem chunkSize_pos : 0 < chunkSize := by decide

theorem plan_covers (chain_id : T → ℕ) (tokens : List T) :
    Covers chain_id tokens (plan chain_id tokens) := by
  have hcall : ∀ call ∈ plan chain_id tokens, ∃ chainId ∈ objectKeys (grouped chain_id tokens),
      call.1 = number chainId ∧ call.2 ∈ toSplitWithChunkSize
        ((grouped chain_id tokens).property (number chainId).repr) chunkSize := by
    intro call hmem
    obtain ⟨chainId, hchainId, hmem⟩ := List.mem_flatMap.mp hmem
    obtain ⟨targetTokens, htokens, rfl⟩ := List.mem_map.mp hmem
    exact ⟨chainId, hchainId, rfl, htokens⟩
  refine ⟨?_, fun call hmem => ?_, fun call hmem token htoken => ?_⟩
  · have hgroups : (plan chain_id tokens).flatMap Prod.snd =
        (objectKeys (grouped chain_id tokens)).flatMap (grouped chain_id tokens).property := by
      unfold plan
      rw [List.flatMap_assoc]
      refine List.flatMap_congr fun chainId hchainId => ?_
      rw [List.flatMap_map, repr_number hchainId]
      show List.flatMap id _ = _
      rw [List.flatMap_id]
      exact flatten_toSplitWithChunkSize chunkSize_pos _
    rw [hgroups]
    exact groups_perm tokens _
  · obtain ⟨chainId, _, _, hsplit⟩ := hcall call hmem
    exact length_of_mem_toSplitWithChunkSize hsplit
  · obtain ⟨chainId, hchainId, hchain, hsplit⟩ := hcall call hmem
    have hproperty : token ∈ (grouped chain_id tokens).property (number chainId).repr := by
      rw [← flatten_toSplitWithChunkSize chunkSize_pos
        ((grouped chain_id tokens).property (number chainId).repr)]
      exact List.mem_flatten.mpr ⟨call.2, hsplit, htoken⟩
    rw [property_grouped hchainId] at hproperty
    obtain ⟨_, hkey⟩ := List.mem_filter.mp hproperty
    rw [hchain, ← number_repr (chain_id token), of_decide_eq_true hkey]

end

/-! ## What an update changes -/

/-- The second row is the first one, but for its prices if it is named. -/
structure Repriced (ids : List ℕ) (s s' : Stored PricedRow) : Prop where
  id : s'.id = s.id
  token : s'.row.token = s.row.token
  price_address : s'.row.price_address = s.row.price_address
  unnamed : s.id ∉ ids → s' = s

/-- The tables have the same rows, but for the prices of named ones. -/
def OnlyPriced (ids : List ℕ) (t t' : PricedTokens) : Prop :=
  ∃ f, t'.rows = t.rows.map f ∧ ∀ s, Repriced ids s (f s)

theorem OnlyPriced.refl (ids : List ℕ) (t : PricedTokens) : OnlyPriced ids t t :=
  ⟨fun s => s, (List.map_id _).symm, fun _ => ⟨rfl, rfl, rfl, fun _ => rfl⟩⟩

theorem OnlyPriced.trans {ids ids' : List ℕ} {t t' t'' : PricedTokens} (h : OnlyPriced ids t t')
    (h' : OnlyPriced ids' t' t'') : OnlyPriced (ids ++ ids') t t'' := by
  obtain ⟨f, hrows, hf⟩ := h
  obtain ⟨g, hrows', hg⟩ := h'
  refine ⟨g ∘ f, by rw [hrows', hrows, List.map_map], fun s => ?_⟩
  refine ⟨(hg _).id.trans (hf s).id, (hg _).token.trans (hf s).token,
    (hg _).price_address.trans (hf s).price_address, fun hunnamed => ?_⟩
  rw [List.mem_append, not_or] at hunnamed
  have hsame := (hf s).unnamed hunnamed.1
  show g (f s) = s
  rw [hsame]
  exact (hg s).unnamed hunnamed.2

theorem onlyPriced_updateToken (id : ℕ) (price_value total_supply : Number) (t : PricedTokens) :
    OnlyPriced [id] t (updateToken id price_value total_supply t) := by
  refine ⟨Stored.updated id (PricedRow.priced price_value total_supply), rfl, fun s => ?_⟩
  by_cases hid : s.id = id
  · rw [Stored.updated, if_pos hid]
    exact ⟨rfl, rfl, rfl, fun h => absurd (List.mem_singleton.mpr hid) h⟩
  · rw [Stored.updated, if_neg hid]
    exact ⟨rfl, rfl, rfl, fun _ => rfl⟩

theorem onlyPriced_applied (params : List UpdateParam) (t : PricedTokens) :
    OnlyPriced (params.map UpdateParam.id) t (applied params t) := by
  induction params generalizing t with
  | nil => exact OnlyPriced.refl [] t
  | cons param params ih => exact (onlyPriced_updateToken _ _ _ t).trans (ih _)

/-- The updates of several chunks. -/
def appliedAll (updates : List (List UpdateParam)) (t : PricedTokens) : PricedTokens :=
  updates.foldl (fun t params => applied params t) t

theorem appliedAll_concat (updates : List (List UpdateParam)) (params : List UpdateParam)
    (t : PricedTokens) :
    appliedAll (updates ++ [params]) t = applied params (appliedAll updates t) := by
  simp only [appliedAll, List.foldl_append, List.foldl_cons, List.foldl_nil]

theorem onlyPriced_appliedAll (updates : List (List UpdateParam)) (t : PricedTokens) :
    OnlyPriced (updates.flatten.map UpdateParam.id) t (appliedAll updates t) := by
  induction updates generalizing t with
  | nil => exact OnlyPriced.refl [] t
  | cons params updates ih =>
    rw [List.flatten_cons, List.map_append]
    exact (onlyPriced_applied params t).trans (ih _)

/-! ## A refresh that is watched -/

/-- The calls of a crawl, and what the ones that returned have given. -/
structure Trace (T : Type) where
  calls : List (ℕ × List T)
  returned : List (List UpdateParam)

section
variable {T : Type}

/-- A crawl with its calls and results on the record. Its answers may depend on
all that was called before, and on the table. -/
def recorded (answer : Trace T → Db PricedTokens → ℕ → List T → Except Thrown (List UpdateParam)) :
    Crawl (Trace T) T where
  crawlTokenSupplyAndPrice chainId targetTokens := do
    let answered ← .read fun s => answer s.log s.db chainId targetTokens
    writeLog fun l => { l with calls := l.calls ++ [(chainId, targetTokens)] }
    let params ← .await answered
    writeLog fun l => { l with returned := l.returned ++ [params] }
    pure params
  writesNothing chainId targetTokens s := by
    simp only [writeLog, Eff.wp_bind, Eff.wp_read, Eff.wp_update, Eff.wp_await, Eff.wp_pure]
    exact ⟨fun _ _ => trivial, fun _ _ => trivial⟩

/-- The committed data are the initial ones with the first `k` updates applied. -/
def Applied (k : ℕ) (db : Db PricedTokens) (s : Session (Db PricedTokens) (Trace T)) : Prop :=
  s.db = db.setTables (appliedAll (s.log.returned.take k))

variable {answer : Trace T → Db PricedTokens → ℕ → List T → Except Thrown (List UpdateParam)}
  {faults : Trace T → ℕ → List T → Faults} {db : Db PricedTokens}
  {s : Session (Db PricedTokens) (Trace T)}

/-- One chunk after some: it is called, and applied unless it throws. -/
theorem wp_refreshChunk {done : List (ℕ × List T)} (call : ℕ × List T) (hcalls : s.log.calls = done)
    (hreturned : s.log.returned.length = done.length) (happlied : Applied done.length db s) :
    Eff.wp (refreshChunk (recorded answer) faults call.1 call.2)
      (fun _ u => u.log.calls = done ++ [call] ∧
        u.log.returned.length = (done ++ [call]).length ∧ Applied (done ++ [call]).length db u)
      (fun _ u => u.log.calls = done ++ [call] ∧ done.length ≤ u.log.returned.length ∧
        Applied done.length db u) s := by
  have hdb : s.db = db.setTables (appliedAll s.log.returned) := by
    rw [Applied, ← hreturned, List.take_length] at happlied
    exact happlied
  simp only [refreshChunk, recorded, writeLog, Eff.wp_bind, Eff.wp_read, Eff.wp_update,
    Eff.wp_await, Eff.wp_pure]
  refine ⟨fun params _ => ?_, fun e _ => ⟨by rw [hcalls], hreturned.ge, happlied⟩⟩
  refine Eff.wp_mono (wp_bulkUpdate _ params) (fun _ u hu => ?_) fun e u hu => ?_
  · obtain ⟨hudb, hulog⟩ := hu
    rw [hulog]
    refine ⟨by rw [hcalls], by simp [hreturned], ?_⟩
    have hlength : (done ++ [call]).length = (s.log.returned ++ [params]).length := by
      simp [hreturned]
    rw [Applied, hudb, hulog, hlength, List.take_length]
    show Db.setTables (applied params) s.db = _
    rw [hdb]
    simp only [Db.setTables, appliedAll_concat]
  · obtain ⟨hudb, hulog⟩ := hu
    rw [hulog]
    refine ⟨by rw [hcalls], ?_, ?_⟩
    · simp [hreturned]
    · rw [Applied, hudb, hulog, ← hreturned]
      show s.db = db.setTables (appliedAll ((s.log.returned ++ [params]).take s.log.returned.length))
      rw [List.take_left]
      exact hdb

/-- A refresh gets through its plan, or stops in a chunk of it. -/
theorem wp_refresh (chain_id : T → ℕ) (tokens : List T) (hcalls : s.log.calls = [])
    (hreturned : s.log.returned = []) (hdb : s.db = db) :
    Eff.wp (refresh (recorded answer) faults chain_id tokens)
      (fun _ u => u.log.calls = plan chain_id tokens ∧
        u.log.returned.length = (plan chain_id tokens).length ∧
        Applied (plan chain_id tokens).length db u)
      (fun _ u => ∃ done call rest, plan chain_id tokens = done ++ call :: rest ∧
        u.log.calls = done ++ [call] ∧ done.length ≤ u.log.returned.length ∧
        Applied done.length db u) s := by
  rw [Eff.wp_congr (refresh_eq chain_id tokens (recorded answer) faults s)]
  refine Eff.wp_forEach (fun done (u : Session (Db PricedTokens) (Trace T)) =>
    u.log.calls = done ∧ u.log.returned.length = done.length ∧ Applied done.length db u)
    (fun done call rest hplan u hu => ?_) ⟨hcalls, by rw [hreturned]; rfl, ?_⟩
  · refine Eff.wp_mono (wp_refreshChunk call hu.1 hu.2.1 hu.2.2) (fun _ _ h => h) fun _ v hv => ?_
    exact ⟨done, call, rest, hplan, hv⟩
  · rw [Applied, hreturned, hdb]
    rfl

def traceSession (db : Db PricedTokens) : Session (Db PricedTokens) (Trace T) :=
  ⟨db, none, 0, ⟨[], []⟩⟩

/-- The table is the initial one with the updates of the first `k` chunks, and
of the rows only the prices of those named there have changed. -/
structure Refreshed (k : ℕ) (db : Db PricedTokens) (s : Session (Db PricedTokens) (Trace T)) :
    Prop where
  applied : Applied k db s
  onlyPriced :
    OnlyPriced ((s.log.returned.take k).flatten.map UpdateParam.id) db.tables s.db.tables

theorem refreshed_of_applied {k : ℕ} (h : Applied k db s) : Refreshed k db s := by
  refine ⟨h, ?_⟩
  rw [h]
  exact onlyPriced_appliedAll _ _

/-- **Prefixes.** A refresh that returns has crawled and applied each chunk; one
that throws in its `k + 1`st chunk has called the chunks up to it and applied
those before it. -/
theorem refresh_applies_chunks
    (answer : Trace T → Db PricedTokens → ℕ → List T → Except Thrown (List UpdateParam))
    (faults : Trace T → ℕ → List T → Faults) (chain_id : T → ℕ) (tokens : List T)
    (db : Db PricedTokens) :
    ∃ calls, Covers chain_id tokens calls ∧
      match refresh (recorded answer) faults chain_id tokens (traceSession db) with
      | (.ok (), s) => s.log.calls = calls ∧ s.log.returned.length = calls.length ∧
        Refreshed calls.length db s
      | (.error _, s) => ∃ k < calls.length, s.log.calls = calls.take (k + 1) ∧
        k ≤ s.log.returned.length ∧ Refreshed k db s := by
  refine ⟨plan chain_id tokens, plan_covers chain_id tokens, ?_⟩
  have hwp : Eff.wp (refresh (recorded answer) faults chain_id tokens) _ _ (traceSession db) :=
    wp_refresh chain_id tokens rfl rfl rfl
  unfold Eff.wp at hwp
  generalize refresh (recorded answer) faults chain_id tokens (traceSession db) = final at hwp ⊢
  obtain ⟨outcome, u⟩ := final
  cases outcome with
  | ok _ => exact ⟨hwp.1, hwp.2.1, refreshed_of_applied hwp.2.2⟩
  | error e =>
    obtain ⟨done, call, rest, hplan, hcalls, hreturned, happlied⟩ := hwp
    refine ⟨done.length, ?_, ?_, hreturned, refreshed_of_applied happlied⟩
    · rw [hplan, List.length_append, List.length_cons]
      omega
    · rw [hplan, hcalls, List.take_append]
      simp

end

end BlockchainTask.SchedulerJob.PriceRefresh

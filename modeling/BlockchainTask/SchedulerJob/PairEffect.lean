import BlockchainTask.SchedulerJob.PairTemplate

/-! # What the pair job writes

The rows a task appends to the token table, and what is known of each: the
single tokens first, then the pairs whose constituents were registered, then
the deferred ones. From it, what a whole run leaves: nothing, or the rows of
one window together with its end. -/
namespace BlockchainTask.SchedulerJob.PairEffect
open BlockchainTask.Helper BlockchainTask.Common.Exception
open BlockchainTask.Library.Effect BlockchainTask.Library.Transaction BlockchainTask.Library.Store
open BlockchainTask.Repository.Token BlockchainTask.SchedulerJob.Base
open BlockchainTask.SchedulerJob.PairTemplate

variable {context : Context} {faults : Faults} {d : Db Tokens}

/-- A pair's row as the job makes it, on a table with its constituents. -/
structure PairRow (context : Context) (composed : List PairInfo) (t : Tokens) (r : TokenRow) :
    Prop where
  type : r.type = .MULTI
  network : r.network = context.network
  constituents : ∃ info token0 token1, composedOf composed r.address = some info ∧
    findOne context.network info.token0 t = some token0 ∧
    findOne context.network info.token1 t = some token1 ∧
    token0.row.status = true ∧ token1.row.status = true ∧
    r.pair0 = some token0.id ∧ r.pair1 = some token1.id

/-- The rows of a task: on the table it starts with, on that table with the
single tokens, and on that table with the first pairs. -/
structure TaskRows (context : Context) (composed : List PairInfo) (t : Tokens)
    (singles pairs sameChunk : List TokenRow) : Prop where
  single : ∀ r ∈ singles, r.type = .SINGLE
  pair : ∀ r ∈ pairs, PairRow context composed (t.insertAll singles) r
  later : ∀ r ∈ sameChunk, PairRow context composed ((t.insertAll singles).insertAll pairs) r

/-- What is left of a task on data `v`. -/
def TaskEffect (context : Context) (composed : List PairInfo) (v w : Db Tokens) : Prop :=
  ∃ singles pairs sameChunk, TaskRows context composed v.tables singles pairs sameChunk ∧
    w = v.setTables fun t => t.insertAll (singles ++ (pairs ++ sameChunk))

/-! ## Single tokens -/

theorem infoAt_stages (infos : List InfoEntry) (index : Nat) :
    Stages d (infoAt infos index) fun v info w => w = v ∧ infos[index]? = some (.ok info) := by
  unfold infoAt
  cases h : infos[index]? with
  | none => exact Stages.throw _
  | some entry => exact Stages.await _ fun _ info hread => ⟨rfl, by rw [hread]⟩

/-- Every result of a mapped read is sound. -/
theorem forall_of_results {α β : Type} {P : β → Prop} {xs : List α} {ys : List β}
    (h : List.Forall₂ (fun _ y => P y) xs ys) : ∀ y ∈ ys, P y := by
  intro y hy
  obtain ⟨i, hi, rfl⟩ := List.getElem_of_mem hy
  exact h.get (h.length_eq ▸ hi) hi

theorem createTokensIfNotExist_stages (fault : Option Thrown) (params : List TokenRow) :
    Stages d (createTokensIfNotExist fault params) fun v _ w =>
      w = v.setTables fun t => t.insertAll (params.map TokenRow.kept) :=
  (Stages.managerWrite _ _ _).mono fun _ _ _ h => h.2

theorem createSingleTokens_stages (addresses : List String) (infos : List InfoEntry) :
    Stages d (createSingleTokens context faults addresses infos) fun v _ w =>
      ∃ singles, (∀ r ∈ singles, r.type = .SINGLE) ∧
        w = v.setTables fun t => t.insertAll singles := by
  have hrow : ∀ p ∈ addresses.zipIdx, Stages d
      (infoAt infos p.2 >>= fun info => pure
        { network := context.network, type := .SINGLE, address := p.1, name := info.name,
          symbol := info.symbol, decimals := info.decimals, pair0 := none, pair1 := none,
          status := knownStatus info } : JobEff Tokens TokenRow)
      (fun v r w => w = v ∧ r.type = .SINGLE) := by
    intro p _
    refine Stages.bind (fun _ v r w => w = v ∧ r.type = .SINGLE) (infoAt_stages infos p.2)
      (fun _ => Stages.pure _ fun _ => ⟨rfl, rfl⟩) ?_
    intro v _ w r x hfirst hr
    obtain ⟨rfl, _⟩ := hfirst
    exact hr
  refine Stages.bind
    (fun singles v _ w => w = v.setTables fun t => t.insertAll (singles.map TokenRow.kept))
    (Stages.mapEach hrow) (fun singles => createTokensIfNotExist_stages _ singles) ?_
  intro v singles w _ x hfirst hw
  obtain ⟨rfl, hsingles⟩ := hfirst
  refine ⟨singles.map TokenRow.kept, fun r hr => ?_, hw⟩
  obtain ⟨single, hsingle, rfl⟩ := List.mem_map.mp hr
  exact forall_of_results hsingles single hsingle

/-! ## Pairs -/

theorem findToken_stages (fault : Option Thrown) (address : Option String) :
    Stages d (findToken context fault address) fun v s w =>
      w = v ∧ s = findOne context.network address v.tables :=
  Stages.managerRead fault _

theorem multiRow_pairRow {composed : List PairInfo} {t : Tokens} {pair : Deferred}
    {info : PairInfo} {token0 token1 : Stored TokenRow}
    (hinfo : composedOf composed pair.address = some info)
    (h0 : findOne context.network info.token0 t = some token0)
    (h1 : findOne context.network info.token1 t = some token1)
    (hs0 : token0.row.status = true) (hs1 : token1.row.status = true) :
    PairRow context composed t (multiRow context pair token0 token1) :=
  ⟨rfl, rfl, info, token0, token1, hinfo, h0, h1, hs0, hs1, rfl, rfl⟩

/-- The columns that are cut or brought down say nothing of what a pair is made of. -/
theorem PairRow.kept {composed : List PairInfo} {t : Tokens} {rows : List TokenRow}
    (h : ∀ r ∈ rows, PairRow context composed t r) :
    ∀ r ∈ rows.map TokenRow.kept, PairRow context composed t r := by
  intro r hr
  obtain ⟨row, hrow, rfl⟩ := List.mem_map.mp hr
  exact ⟨(h row hrow).type, (h row hrow).network, (h row hrow).constituents⟩

/-- What the first pass makes of a pair is sound on the table it reads. -/
def SoundDecision (context : Context) (composed : List PairInfo) (t : Tokens) : Decision → Prop
  | .skip => True
  | .defer pair => ∃ info, composedOf composed pair.address = some info ∧
      pair.token0 = info.token0 ∧ pair.token1 = info.token1
  | .push row => PairRow context composed t row

theorem firstPass_stages (infos : List InfoEntry) (composed : List PairInfo)
    (invalid : List String) (p : String × Nat) :
    Stages d (firstPass context faults infos composed invalid p) fun v decision w =>
      w = v ∧ SoundDecision context composed v.tables decision := by
  refine Stages.bind (fun _ v decision w => w = v ∧ SoundDecision context composed v.tables decision)
    (infoAt_stages infos p.2) (fun info => ?_) ?_
  · cases hinfo : composedOf composed p.1 with
    | none => exact Stages.throw _
    | some found =>
      refine Stages.ite (fun _ => Stages.pure _ fun _ => ⟨rfl, trivial⟩) (fun _ => ?_)
      refine Stages.bind (fun r0 v decision w => w = v ∧
          (r0 = findOne context.network found.token0 v.tables →
            SoundDecision context composed v.tables decision))
        (findToken_stages _ _) (fun r0 => ?_) ?_
      · refine Stages.bind (fun r1 v decision w => w = v ∧
            decision = decide₁ context ⟨p.1, info, found.token0, found.token1⟩ r0 r1)
          (findToken_stages _ _) (fun r1 => Stages.pure _ fun _ => ⟨rfl, rfl⟩) ?_
        intro v r1 w decision x hfirst hnext
        obtain ⟨rfl, hr1⟩ := hfirst
        obtain ⟨rfl, rfl⟩ := hnext
        refine ⟨rfl, fun hr0 => ?_⟩
        cases r0 with
        | none => exact ⟨found, hinfo, rfl, rfl⟩
        | some token0 =>
          cases r1 with
          | none => exact ⟨found, hinfo, rfl, rfl⟩
          | some token1 =>
            simp only [decide₁]
            split
            · rename_i hstatus
              obtain ⟨hs0, hs1⟩ := Bool.and_eq_true_iff.mp hstatus
              have hrow : PairRow context composed _
                  (multiRow context ⟨p.1, info, found.token0, found.token1⟩ token0 token1) :=
                multiRow_pairRow hinfo hr0.symm hr1.symm hs0 hs1
              exact hrow
            · trivial
      · intro v r0 w decision x hfirst hnext
        obtain ⟨rfl, hr0⟩ := hfirst
        obtain ⟨hx, hsound⟩ := hnext
        exact ⟨hx, hsound hr0⟩
  · intro v _ w decision x hfirst h
    obtain ⟨rfl, _⟩ := hfirst
    exact h

theorem secondPass_stages {composed : List PairInfo} (p : Deferred × Nat)
    (hp : ∃ info, composedOf composed p.1.address = some info ∧
      p.1.token0 = info.token0 ∧ p.1.token1 = info.token1) :
    Stages d (secondPass context faults p) fun v row w =>
      w = v ∧ ∀ r, row = some r → PairRow context composed v.tables r := by
  obtain ⟨info, hinfo, ht0, ht1⟩ := hp
  refine Stages.bind (fun r0 v row w => w = v ∧
      (r0 = findOne context.network info.token0 v.tables →
        ∀ r, row = some r → PairRow context composed v.tables r))
    (findToken_stages _ _) (fun r0 => ?_) ?_
  · refine Stages.bind (fun r1 v row w => w = v ∧
        (r1 = findOne context.network info.token1 v.tables →
          r0 = findOne context.network info.token0 v.tables →
            ∀ r, row = some r → PairRow context composed v.tables r))
      (findToken_stages _ _) (fun r1 => ?_) ?_
    · cases r0 with
      | none => exact Stages.throw _
      | some token0 =>
        refine Stages.ite (fun _ => Stages.pure _ fun v => ⟨rfl, fun _ _ r hr => by cases hr⟩)
          (fun hs0 => ?_)
        cases r1 with
        | none => exact Stages.throw _
        | some token1 =>
          refine Stages.pure _ fun v => ⟨rfl, fun hr1 hr0 r hr => ?_⟩
          split at hr
          · rename_i hs1
            cases hr
            exact multiRow_pairRow hinfo hr0.symm hr1.symm (by simpa using hs0) hs1
          · cases hr
    · intro v r1 w row x hfirst hnext
      obtain ⟨rfl, hr1⟩ := hfirst
      obtain ⟨hx, hrow⟩ := hnext
      exact ⟨hx, fun hr0 => hrow (ht1 ▸ hr1) hr0⟩
  · intro v r0 w row x hfirst hnext
    obtain ⟨rfl, hr0⟩ := hfirst
    obtain ⟨hx, hrow⟩ := hnext
    exact ⟨hx, hrow (ht0 ▸ hr0)⟩

theorem pushed_sound {composed : List PairInfo} {t : Tokens} {decisions : List Decision}
    (h : ∀ decision ∈ decisions, SoundDecision context composed t decision) :
    ∀ r ∈ pushed decisions, PairRow context composed t r := by
  intro r hr
  obtain ⟨decision, hmem, heq⟩ := List.mem_filterMap.mp hr
  have hsound := h decision hmem
  cases decision with
  | skip => cases heq
  | defer pair => cases heq
  | push row =>
    cases heq
    exact hsound

theorem deferred_sound {composed : List PairInfo} {t : Tokens} {decisions : List Decision}
    (h : ∀ decision ∈ decisions, SoundDecision context composed t decision) :
    ∀ pair ∈ deferred decisions, ∃ info, composedOf composed pair.address = some info ∧
      pair.token0 = info.token0 ∧ pair.token1 = info.token1 := by
  intro pair hpair
  obtain ⟨decision, hmem, heq⟩ := List.mem_filterMap.mp hpair
  have hsound := h decision hmem
  cases decision with
  | skip => cases heq
  | push row => cases heq
  | defer pair' =>
    cases heq
    exact hsound

theorem createMultiTokens_stages (addresses : List String) (infos : List InfoEntry)
    (composed : List PairInfo) (invalid : List String) :
    Stages d (createMultiTokens context faults addresses infos composed invalid) fun v _ w =>
      ∃ pairs sameChunk, (∀ r ∈ pairs, PairRow context composed v.tables r) ∧
        (∀ r ∈ sameChunk, PairRow context composed (v.tables.insertAll pairs) r) ∧
        w = v.setTables fun t => t.insertAll (pairs ++ sameChunk) := by
  refine Stages.bindOf (fun decisions v _ w => ∃ sameChunk,
      (∀ r ∈ sameChunk, PairRow context composed
          (v.tables.insertAll ((pushed decisions).map TokenRow.kept)) r) ∧
        w = v.setTables fun t =>
          t.insertAll ((pushed decisions).map TokenRow.kept ++ sameChunk))
    (Stages.mapEach fun p _ => firstPass_stages infos composed invalid p)
    (fun v decisions w hrel => ?_) ?_
  · have hsound := deferred_sound (forall_of_results hrel.2)
    have hpairs : ∀ p ∈ (deferred decisions).zipIdx, ∃ info,
        composedOf composed p.1.address = some info ∧
          p.1.token0 = info.token0 ∧ p.1.token1 = info.token1 :=
      fun p hp => hsound p.1 (List.fst_mem_of_mem_zipIdx hp)
    refine Stages.bind (fun _ v _ w => ∃ sameChunk,
        (∀ r ∈ sameChunk, PairRow context composed v.tables r) ∧
          w = v.setTables fun t => t.insertAll sameChunk)
      (createTokensIfNotExist_stages _ (pushed decisions)) (fun _ => ?_) ?_
    · refine Stages.when (fun _ => ?_) fun v => ⟨[], by simp, rfl⟩
      refine Stages.bind (fun rows v _ w =>
          w = v.setTables fun t => t.insertAll ((rows.filterMap id).map TokenRow.kept))
        (Stages.mapEach fun p hp => secondPass_stages p (hpairs p hp))
        (fun rows => createTokensIfNotExist_stages _ _) ?_
      intro v rows w _ x hfirst hx
      obtain ⟨rfl, hrows⟩ := hfirst
      refine ⟨(rows.filterMap id).map TokenRow.kept, PairRow.kept fun r hr => ?_, hx⟩
      obtain ⟨row, hrow, heq⟩ := List.mem_filterMap.mp hr
      exact forall_of_results hrows row hrow r heq
    · intro v _ w _ x hfirst hnext
      subst hfirst
      obtain ⟨sameChunk, hlater, rfl⟩ := hnext
      refine ⟨sameChunk, hlater, ?_⟩
      simp only [Db.setTables, Table.insertAll_append]
  · intro v decisions w _ x hfirst hnext
    obtain ⟨rfl, hdecisions⟩ := hfirst
    obtain ⟨sameChunk, hlater, hw⟩ := hnext
    exact ⟨(pushed decisions).map TokenRow.kept, sameChunk,
      PairRow.kept (pushed_sound (forall_of_results hdecisions)), hlater, hw⟩

/-! ## The task -/

/-- A part of the task that reads only. -/
abbrev Reads {α : Type} (d : Db Tokens) (m : JobEff Tokens α) : Prop :=
  Stages d m fun v _ w => w = v

theorem Reads.bind {α β : Type} {m : JobEff Tokens α} {f : α → JobEff Tokens β}
    (hm : Reads d m) (hf : ∀ a, Reads d (f a)) : Reads d (m >>= f) :=
  Stages.bind (fun _ v _ w => w = v) hm hf fun _ _ _ _ _ h h' => h'.trans h

theorem removeRegisteredTokens_reads (multi : List String) (single : List (Option String)) :
    Reads d (removeRegisteredTokens context faults multi single) :=
  Reads.bind ((Stages.connectionRead _ _).mono fun _ _ _ h => h.1) fun _ =>
    Reads.bind ((Stages.connectionRead _ _).mono fun _ _ _ h => h.1) fun _ =>
      Stages.pure _ fun _ => rfl

theorem toCheckSumAddress_reads (address : Option String) :
    Reads d (toCheckSumAddress context address) := by
  unfold toCheckSumAddress
  split
  · exact Stages.pure _ fun _ => rfl
  · exact Stages.throw _

theorem mapEach_reads {α β : Type} {f : α → JobEff Tokens β} {xs : List α}
    (h : ∀ x, Reads d (f x)) : Reads d (.mapEach xs f) :=
  (Stages.mapEach (P := fun _ _ _ => True) fun x _ => (h x).mono fun _ _ _ hw => ⟨hw, trivial⟩).mono
    fun _ _ _ hw => hw.1

theorem removeInvalidTokens_reads (multi single : List (Option String)) :
    Reads d (removeInvalidTokens context multi single) :=
  Reads.bind (mapEach_reads toCheckSumAddress_reads) fun _ =>
    Reads.bind (Stages.await _ fun _ _ _ => rfl) fun _ => Stages.pure _ fun _ => rfl

theorem safePairInfos_reads (address : String) : Reads d (safePairInfos context address) := by
  unfold safePairInfos
  split
  · exact Stages.pure _ fun _ => rfl
  · exact Stages.throw _
  · exact Stages.pure _ fun _ => rfl

theorem checkMultiTokenInSinglePosition_reads (single invalid : List String) :
    Reads d (checkMultiTokenInSinglePosition context single invalid) := by
  refine Reads.bind ?_ fun _ => Stages.pure _ fun _ => rfl
  intro s hd ha
  cases h : context.getBatchPairInfos single with
  | ok infos => exact ⟨hd, ha, rfl, rfl⟩
  | error e => exact mapEach_reads safePairInfos_reads s hd ha

theorem settledInfo_reads (address : String) : Reads d (settledInfo context address) := by
  unfold settledInfo
  split
  · exact Reads.bind (Stages.await _ fun _ _ _ => rfl) fun _ => Stages.pure _ fun _ => rfl
  · exact Stages.pure _ fun _ => rfl

theorem getTokenInfos_reads (addresses : List String) :
    Reads d (getTokenInfos context addresses) := by
  intro s hd ha
  unfold getTokenInfos
  cases context.getBatchERC20TokenInfos addresses with
  | ok infos => exact ⟨hd, ha, rfl, rfl⟩
  | error e => exact mapEach_reads settledInfo_reads s hd ha

theorem getPairsInfo_stages (multiTokens : List (Option String)) :
    Stages d (getPairsInfo context multiTokens) fun v composed w =>
      w = v ∧ ∃ addresses, multiTokens.mapM id = some addresses ∧
        context.getPairsInfo addresses = .ok composed := by
  unfold getPairsInfo
  cases h : multiTokens.mapM id with
  | none => exact Stages.throw _
  | some addresses => exact Stages.await _ fun _ composed hc => ⟨rfl, addresses, rfl, hc⟩

/-- The compositions a task works on. -/
def Reported (context : Context) (multiTokens : List (Option String)) (composed : List PairInfo) :
    Prop :=
  ∃ addresses, multiTokens.mapM id = some addresses ∧ context.getPairsInfo addresses = .ok composed

theorem doTask_stages (multiTokens : List (Option String)) :
    Stages d (doTask context faults multiTokens) fun v _ w =>
      ∃ composed, Reported context multiTokens composed ∧ TaskEffect context composed v w := by
  refine Stages.bind (fun composed v _ w => TaskEffect context composed v w)
    (getPairsInfo_stages multiTokens) (fun composed => ?_) ?_
  · -- the reads in between leave the data alone
    have hreads : ∀ {α : Type} {m : JobEff Tokens α} {f : α → JobEff Tokens Unit}, Reads d m →
        (∀ a, Stages d (f a) fun v _ w => TaskEffect context composed v w) →
          Stages d (m >>= f) fun v _ w => TaskEffect context composed v w :=
      fun hm hf => Stages.bind (fun _ v _ w => TaskEffect context composed v w) hm hf
        (by rintro v _ w _ x rfl h; exact h)
    refine hreads (removeRegisteredTokens_reads _ _) fun new => ?_
    refine hreads (removeInvalidTokens_reads _ _) fun valid => ?_
    refine hreads (checkMultiTokenInSinglePosition_reads _ _) fun checked => ?_
    refine hreads (getTokenInfos_reads _) fun multiInfos => ?_
    refine hreads (getTokenInfos_reads _) fun singleInfos => ?_
    refine Stages.bind (fun _ v _ w => ∃ pairs sameChunk,
        (∀ r ∈ pairs, PairRow context composed v.tables r) ∧
          (∀ r ∈ sameChunk, PairRow context composed (v.tables.insertAll pairs) r) ∧
          w = v.setTables fun t => t.insertAll (pairs ++ sameChunk))
      (Stages.when (fun _ => createSingleTokens_stages _ _) fun v => ⟨[], by simp, rfl⟩)
      (fun _ => ?_) ?_
    · exact Stages.when (fun _ => createMultiTokens_stages _ _ _ _)
        fun v => ⟨[], [], by simp, by simp, rfl⟩
    · intro v _ w _ x hfirst hnext
      obtain ⟨singles, hsingle, rfl⟩ := hfirst
      obtain ⟨pairs, sameChunk, hpair, hlater, rfl⟩ := hnext
      refine ⟨singles, pairs, sameChunk, ⟨hsingle, hpair, hlater⟩, ?_⟩
      simp only [Db.setTables, Table.insertAll_append]
  · intro v composed w _ x hfirst heffect
    obtain ⟨rfl, hreported⟩ := hfirst
    exact ⟨composed, hreported, heffect⟩

/-! ## The run -/

/-- The effect of a committed run: the task's rows, and the end of its window. -/
def Committed (context : Context) (sPid ePid : Nat) (d d' : Db Tokens) : Prop :=
  ∃ multiTokens composed w,
    context.getAMMFactoryInfos (fillSequenceNumber (ePid - sPid) sPid) = .ok multiTokens ∧
    Reported context multiTokens composed ∧ TaskEffect context composed d w ∧
    d' = w.setScheduler fun r => { r with pid := some ePid }

abbrev cursor (d : Db Tokens) : Nat := d.cursor Scheduler.pid

/-- What a run that returns leaves: the data as they were and no window in its
log, or the window of the log, committed. -/
def RunEffect (context : Context) (d d' : Db Tokens) (log : LoggerData) : Prop :=
  (d' = d ∧ log.start = none) ∨
    ∃ total, context.getAMMFactoryTotalLength = .ok total ∧ d.scheduler.isSome = true ∧
      cursor d < total ∧ log.start = some (cursor d) ∧
      log.end_ = some (chunkEnd chunkSize (cursor d) total) ∧
      Committed context (cursor d) (chunkEnd chunkSize (cursor d) total) d d'

theorem register_stages (multiTokens : List (Option String)) (ePid : Nat) :
    Stages d (register context faults multiTokens ePid) fun v _ w =>
      ∃ composed x, Reported context multiTokens composed ∧ TaskEffect context composed v x ∧
        w = x.setScheduler fun r => { r with pid := some ePid } := by
  refine Stages.bind (fun _ v _ w => w = v.setScheduler fun r => { r with pid := some ePid })
    (doTask_stages multiTokens)
    (fun _ => (Stages.managerWrite _ _ _).mono fun _ _ _ h => h.2) ?_
  intro v _ w _ x hfirst hx
  obtain ⟨composed, hreported, htask⟩ := hfirst
  exact ⟨composed, w, hreported, htask, hx⟩

theorem wp_crawl (s : Session (Db Tokens) LoggerData) (hlog : s.log.start = none) :
    Eff.wp (crawl context faults) (fun _ t => RunEffect context s.db t.db t.log)
      (fun _ t => t.db = s.db) s := by
  simp only [crawl, networkPid, schedulerPid]
  rw [Eff.wp_bind, Eff.wp_await]
  refine ⟨fun total htotal => ?_, fun _ _ => rfl⟩
  rw [Eff.wp_bind]
  refine wp_schedulerCursor (fun r _ hr => ?_) (fun _ _ => rfl)
  have hcursor : cursor s.db = r.pid.getD 0 := by simp [cursor, Db.cursor, hr]
  simp only [writeLog]
  rw [Eff.wp_bind, Eff.wp_update, Eff.wp_ite]
  refine ⟨fun _ => Or.inl ⟨rfl, hlog⟩, fun hlt => ?_⟩
  rw [Eff.wp_bind, Eff.wp_update, Eff.wp_bind, Eff.wp_await]
  refine ⟨fun multiTokens htokens => ?_, fun _ _ => rfl⟩
  have hcommit : ∀ w, (∃ composed x, Reported context multiTokens composed ∧
      TaskEffect context composed s.db x ∧
      w = x.setScheduler fun r' => { r' with pid := some (chunkEnd chunkSize (r.pid.getD 0) total) }) →
      Committed context (cursor s.db) (chunkEnd chunkSize (cursor s.db) total) s.db w := by
    intro w hbody
    obtain ⟨composed, x, hreported, htask, hw⟩ := hbody
    rw [hcursor]
    exact ⟨multiTokens, composed, x, htokens, hreported, htask, hw⟩
  rw [Eff.wp_bind, Eff.wp_mayFail]
  refine ⟨fun _ => ?_, fun _ _ => rfl⟩
  refine Eff.wp_mono
    (Stages.transaction _ _ _ (register_stages multiTokens _) (fun _ w => hcommit w) rfl)
    (fun _ t ht => ?_) (fun _ _ h => h)
  obtain ⟨hcommitted, _, hkept⟩ := ht
  refine Or.inr ⟨total, htotal, by rw [hr]; rfl, by omega, ?_, ?_, hcommitted⟩
  · rw [hkept, hcursor]
  · rw [hkept, hcursor]

theorem wp_run (s : Session (Db Tokens) LoggerData) :
    Eff.wp (run context faults) (fun _ t => RunEffect context s.db t.db t.log)
      (fun _ t => t.db = s.db) s := by
  simp only [run, noQueryRunner, writeLog]
  rw [Eff.wp_bind, Eff.wp_update, Eff.wp_bind, Eff.wp_update]
  exact wp_guarded (P := fun d log => RunEffect context s.db d log) (wp_crawl _ rfl)

theorem TaskEffect.scheduler {composed : List PairInfo} {v w : Db Tokens}
    (h : TaskEffect context composed v w) : w.scheduler = v.scheduler := by
  obtain ⟨_, _, _, _, rfl⟩ := h
  rfl

theorem Committed.cursor {sPid ePid : Nat} {d d' : Db Tokens}
    (h : Committed context sPid ePid d d') (hrow : d.scheduler.isSome = true) :
    cursor d' = ePid := by
  obtain ⟨_, _, w, _, _, htask, rfl⟩ := h
  obtain ⟨r, hr⟩ := Option.isSome_iff_exists.mp hrow
  simp [PairEffect.cursor, Db.cursor, htask.scheduler, hr]

theorem RunEffect.flags {d d' : Db Tokens} {log : LoggerData} (h : RunEffect context d d' log) :
    d'.flags = d.flags := by
  rcases h with ⟨rfl, _⟩ | ⟨_, _, _, _, _, _, _, _, w, _, _, htask, rfl⟩
  · rfl
  · simp only [Db.flags, Db.setScheduler_scheduler, htask.scheduler, Option.map_map]
    rfl

/-- The template as a job of the scheduler. -/
def pairJob (context : Context) (faults : Faults) : Job Tokens where
  run := run context faults
  keepsFlags s := Eff.wp_mono (wp_run s) (fun _ _ h => h.flags) (fun _ t h => by rw [h])

end BlockchainTask.SchedulerJob.PairEffect

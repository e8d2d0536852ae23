import BlockchainTask.Library.Frame
import BlockchainTask.Library.Runs
import BlockchainTask.SchedulerJob.Farm2Durable

/-! # One farm for each SmartChef

The key of a farm holds the position of its SmartChef in the subgraph's list. One
that has moved since is not found there: it is registered a second time, and when
it has ended, its first farm is not disabled. -/
namespace BlockchainTask.SchedulerJob.Farm2Rows
open BlockchainTask.Common.Exception BlockchainTask.Helper
open BlockchainTask.Library.Effect BlockchainTask.Library.Frame BlockchainTask.Library.Runs
open BlockchainTask.Library.Store BlockchainTask.Library.Transaction
open BlockchainTask.Repository.Farm BlockchainTask.SchedulerJob.Base
open BlockchainTask.SchedulerJob.FarmDraft
open BlockchainTask.SchedulerJob.Farm2 BlockchainTask.SchedulerJob.Farm2Draft
open BlockchainTask.SchedulerJob.Farm2Durability BlockchainTask.SchedulerJob.Farm2Durable

/-! ## What a turn makes of its row -/

section
variable {env : Farm2.Env} {currentBlockNumber pid : ℕ} {farmInfo : SmartChef}

/-- The name of the row that a draft has. -/
def nameOf (draft : Draft) : Option String := draft.row.map FarmRow.name

theorem keeps_updateFarm (fault : Option Thrown) {set : FarmSet} (hset : set.KeepsPlace) :
    Keeps nameOf (Draft.updateFarm fault set) := by
  refine Keeps.bind (Keeps.mayFail _) fun _ => Keeps.update fun draft => ?_
  cases hrow : draft.row with
  | none => simp only [nameOf, hrow, Option.map_none]
  | some r => simp only [nameOf, hrow, Option.map_some, hset.name]

theorem keeps_refreshDraft (env : Farm2.Env) (pid : ℕ) (farmInfo : SmartChef) :
    Keeps nameOf (refreshDraft env pid farmInfo) := by
  refine Keeps.bind (Keeps.bind (Keeps.mayFail _) fun _ => Keeps.read _) fun found => ?_
  cases found with
  | none => exact Keeps.throw _
  | some row =>
    refine Keeps.ite (Keeps.pure _) ?_
    cases (relation env.tokens row.stake_tokens).head? with
    | none => exact Keeps.throw _
    | some targetStakeToken =>
      refine Keeps.bind (Keeps.await _) fun amount => ?_
      cases (relation env.tokens row.reward_tokens).head? with
      | none => exact Keeps.throw _
      | some targetRewardToken => exact keeps_updateFarm _ (keepsPlace_refreshed _ _ _)

/-- A row that is there keeps its name, and where there is none, a transaction with
statements has made one of the job. -/
theorem wp_liveDraft_name (env : Farm2.Env) (pid : ℕ) (farmInfo : SmartChef)
    (row : Option FarmRow) :
    Eff.wp (liveDraft env pid farmInfo)
      (fun _ draft => ∀ name, nameOf draft = some name ↔ row.map FarmRow.name = some name ∨
        row = none ∧ draft.written = true ∧ env.context.farm2Name = name)
      (fun _ _ => True) (.start row) := by
  refine wp_liveDraft_cases (fun r hfound _ _ => ?_) (fun new hfound hregisters _ _ => ?_)
    (fun hfound _ _ _ name => ⟨Or.inl, fun hname => ?_⟩) fun _ _ _ => trivial
  · refine Eff.wp_mono ((keeps_refreshDraft env pid farmInfo).wp _) (fun _ draft h name => ?_)
      fun _ _ _ => trivial
    rw [h]
    refine ⟨Or.inl, fun hname => hname.resolve_right fun hnew => ?_⟩
    rw [hnew.1] at hfound
    cases hfound
  · obtain ⟨hagain, _⟩ := hregisters.search
    have hfree : row = none := (newRefused_none hregisters.accepted).2
    have hname : new.name = env.context.farm2Name := by
      obtain ⟨_, _, _, _, rfl⟩ := hregisters.known
      rfl
    refine Eff.wp_mono (Eff.wp_and ((keeps_refreshDraft env pid farmInfo).wp _)
      (wp_refreshDraft ⟨some new, true⟩ hagain)) (fun _ draft h name => ?_) fun _ _ _ => trivial
    have hwritten : draft.written = true := by
      rcases h.2 with hdone | hidle
      · exact hdone.2
      · rw [hidle.2]
    have hnow : nameOf draft = some env.context.farm2Name := h.1.trans (congrArg some hname)
    rw [hnow, hfree, hwritten]
    simp
  · exact hname.resolve_right fun hnew => by cases hnew.2.1

/-- Where a key has no row, the turn of a running SmartChef leaves one of the job exactly
when it writes. -/
theorem name_durableRow_live (hlive : currentBlockNumber < farmInfo.endBlock)
    (row : Option FarmRow) (name : String) :
    (durableRow env currentBlockNumber pid farmInfo row).map FarmRow.name = some name ↔
      row.map FarmRow.name = some name ∨
        row = none ∧ Writes env pid farmInfo row ∧ env.context.farm2Name = name := by
  have hwp := Eff.wp_and (wp_liveDraft env pid farmInfo row)
    (wp_liveDraft_name env pid farmInfo row)
  rw [durableRow, if_neg (Nat.not_le.mpr hlive)]
  unfold Eff.wp at hwp
  generalize liveDraft env pid farmInfo (.start row) = outcome at hwp ⊢
  obtain ⟨result, draft⟩ := outcome
  cases result with
  | ok a =>
    rw [← hwp.1]
    exact hwp.2 name
  | error e => exact ⟨Or.inl, fun h => h.resolve_right fun hnew => hwp.1 hnew.2.1⟩

/-- The turn of one that has ended clears the status of its row, if that is one of the
job and the database does not fail. -/
theorem durableRow_ended (hended : currentBlockNumber ≥ farmInfo.endBlock) (row : Option FarmRow) :
    durableRow env currentBlockNumber pid farmInfo row =
      if Disables env pid ∧ (found env.context.farm2Name row).isSome then
        row.map FarmSet.disabled.apply
      else row := by
  rw [durableRow, if_pos hended]
  simp only [endedDraft]
  rcases Option.eq_none_or_eq_some (env.faults pid).findFarm with hfind | ⟨e, hfind⟩
  · rw [hfind, Draft.findFarm_none, Draft.start_row]
    cases found env.context.farm2Name row with
    | none => rw [if_neg fun h => (by cases h.2)]; rfl
    | some r =>
      rcases Option.eq_none_or_eq_some (env.faults pid).disableFarm with hdisable | ⟨e, hdisable⟩
      · rw [if_pos ⟨⟨hfind, hdisable⟩, rfl⟩, hdisable]
        rfl
      · have hfails : ¬ Disables env pid := by
          intro h
          rw [h.2] at hdisable
          cases hdisable
        rw [if_neg fun h => hfails h.1, hdisable]
        rfl
  · have hfails : ¬ Disables env pid := by
      intro h
      rw [h.1] at hfind
      cases hfind
    rw [if_neg fun h => hfails h.1, hfind, Draft.findFarm_some]

theorem name_durableRow (env : Farm2.Env) (currentBlockNumber pid : ℕ) (farmInfo : SmartChef)
    (row : Option FarmRow) (name : String) :
    (durableRow env currentBlockNumber pid farmInfo row).map FarmRow.name = some name ↔
      row.map FarmRow.name = some name ∨
        row = none ∧ HasToCommit env currentBlockNumber pid farmInfo row ∧
          env.context.farm2Name = name := by
  by_cases hended : currentBlockNumber ≥ farmInfo.endBlock
  · have hname : (durableRow env currentBlockNumber pid farmInfo row).map FarmRow.name =
        row.map FarmRow.name := by
      rw [durableRow_ended hended]
      split
      · cases row <;> rfl
      · rfl
    rw [hname]
    refine ⟨Or.inl, fun h => h.resolve_right fun hnew => ?_⟩
    exact Nat.not_lt.mpr hended hnew.2.1.1
  · have hlive := Nat.lt_of_not_le hended
    rw [name_durableRow_live hlive]
    simp only [HasToCommit, hlive, true_and]

/-- The row of an ended SmartChef is active after its turn only where the database
failed. -/
theorem active_durableRow_ended (hended : currentBlockNumber ≥ farmInfo.endBlock)
    (row : Option FarmRow) :
    (∃ r, found env.context.farm2Name (durableRow env currentBlockNumber pid farmInfo row) = some r ∧
        r.status = true) ↔
      ¬ Disables env pid ∧ ∃ r, found env.context.farm2Name row = some r ∧ r.status = true := by
  rw [durableRow_ended hended]
  split
  · rename_i hdisabled
    refine ⟨fun h => ?_, fun h => absurd hdisabled.1 h.1⟩
    obtain ⟨r, hfound, hstatus⟩ := h
    obtain ⟨hrow, _⟩ := Option.filter_eq_some_iff.mp hfound
    obtain ⟨r', _, rfl⟩ := Option.map_eq_some_iff.mp hrow
    cases hstatus
  · rename_i hkept
    refine ⟨fun h => ⟨fun hdisables => hkept ⟨hdisables, ?_⟩, h⟩, fun h => h.2⟩
    obtain ⟨r, hfound, _⟩ := h
    rw [hfound]
    rfl

end

/-! ## The rows of a SmartChef -/

section
variable (context : Context)

def keyOf (address : String) (pid : ℕ) : FarmKey := (context.protocol, toLowerCase address, pid)

/-- The row is one of the job, for the SmartChef at an address and at a position. -/
def IsRowOf (address : String) (pid : ℕ) (r : FarmRow) : Prop :=
  r.key = some (keyOf context address pid) ∧ sameText r.name context.farm2Name

/-- At most one row of the job for each address. -/
def OneRow (t : Farms) : Prop :=
  ∀ address pid pid', ∀ s ∈ t.rows, ∀ s' ∈ t.rows, IsRowOf context address pid s.row →
    IsRowOf context address pid' s'.row → s = s'

def HasRow (t : Farms) (address : String) (pid : ℕ) : Prop :=
  ∃ s ∈ t.rows, IsRowOf context address pid s.row

def HasActiveRow (t : Farms) (address : String) (pid : ℕ) : Prop :=
  ∃ s ∈ t.rows, IsRowOf context address pid s.row ∧ s.row.status = true

variable {context} {t : Farms} {address : String} {pid : ℕ}

theorem exists_row_iff {P : FarmRow → Prop} {key : FarmKey} :
    (∃ s ∈ t.rows, s.row.key = some key ∧ P s.row) ↔ ∃ r, t.content key = some r ∧ P r := by
  constructor
  · intro h
    obtain ⟨s, hmem, hkey, hP⟩ := h
    refine ⟨s.row, ?_, hP⟩
    rw [Table.content, Table.lookup_iff.mpr ⟨hmem, hkey⟩]
    rfl
  · intro h
    obtain ⟨r, hcontent, hP⟩ := h
    obtain ⟨s, hlookup, rfl⟩ := Option.map_eq_some_iff.mp hcontent
    obtain ⟨hmem, hkey⟩ := Table.lookup_some hlookup
    exact ⟨s, hmem, hkey, hP⟩

theorem hasRow_iff : HasRow context t address pid ↔
    ∃ name, (t.content (keyOf context address pid)).map FarmRow.name = some name ∧
      sameText name context.farm2Name := by
  refine (exists_row_iff (P := fun r => sameText r.name context.farm2Name)).trans ?_
  constructor
  · intro h
    obtain ⟨r, hcontent, hname⟩ := h
    exact ⟨r.name, by rw [hcontent]; rfl, hname⟩
  · intro h
    obtain ⟨name, hmap, hname⟩ := h
    obtain ⟨r, hcontent, rfl⟩ := Option.map_eq_some_iff.mp hmap
    exact ⟨r, hcontent, hname⟩

theorem hasActiveRow_iff : HasActiveRow context t address pid ↔
    ∃ r, found context.farm2Name (t.content (keyOf context address pid)) = some r ∧
      r.status = true := by
  have hassoc : HasActiveRow context t address pid ↔ ∃ s ∈ t.rows,
      s.row.key = some (keyOf context address pid) ∧ sameText s.row.name context.farm2Name ∧
        s.row.status = true := by
    simp only [HasActiveRow, IsRowOf, and_assoc]
  rw [hassoc, exists_row_iff
    (P := fun r => sameText r.name context.farm2Name ∧ r.status = true)]
  simp only [found, Option.filter_eq_some_iff, decide_eq_true_eq, and_assoc]

theorem oneRow_iff : OneRow context t ↔ ∀ address pid pid', HasRow context t address pid →
    HasRow context t address pid' → pid = pid' := by
  constructor
  · intro h address pid pid' hpid hpid'
    obtain ⟨s, hmem, hrow⟩ := hpid
    obtain ⟨s', hmem', hrow'⟩ := hpid'
    have hsame := h address pid pid' s hmem s' hmem' hrow hrow'
    have hkeys := hrow.1.symm.trans (hsame ▸ hrow'.1)
    exact congrArg (fun key : FarmKey => key.2.2) (Option.some.inj hkeys)
  · intro h address pid pid' s hmem s' hmem' hrow hrow'
    have hpids := h address pid pid' ⟨s, hmem, hrow⟩ ⟨s', hmem', hrow'⟩
    subst hpids
    exact Table.key_inj hmem hmem' hrow.1 hrow'.1

end

/-! ## Runs -/

/-- The subgraph lists a SmartChef once. -/
def ListedOnce (farmInfos : List (Option SmartChef)) : Prop :=
  ∀ pid pid' farmInfo farmInfo', entry farmInfos pid = some farmInfo →
    entry farmInfos pid' = some farmInfo' → sameText farmInfo.id farmInfo'.id → pid = pid'

/-- The answers of a run of the job, in which the writes of each pid become durable. -/
structure ChefRun (context : Context) where
  env : Farm2.Env
  ofContext : env.context = context
  listedOnce : ∀ networkPid farmInfos, env.getFarm2Infos networkPid = .ok farmInfos →
    ListedOnce farmInfos

def ChefRun.apply {context : Context} (r : ChefRun context) (db : Db Farms) : Db Farms :=
  afterRun (durableRun r.env) db

/-- After a run whose list has a SmartChef that has ended, no row of it is active. -/
def EndedInactive {context : Context} (r : ChefRun context) (db : Db Farms) : Prop :=
  ∀ n k infos, Answers r.env n k infos → ∀ pid < k, ∀ farmInfo,
    entry infos pid = some farmInfo → n ≥ farmInfo.endBlock →
      ∀ pid', ¬ HasActiveRow context (r.apply db).tables farmInfo.id pid'

/-- The turn of the pid registers a farm: the key has no row, and the turn has something
to commit. -/
def Adds (env : Farm2.Env) (n pid : ℕ) (farmInfo : SmartChef) (db : Db Farms) : Prop :=
  rowOf env pid farmInfo db = none ∧ HasToCommit env n pid farmInfo (rowOf env pid farmInfo db)

/-- A SmartChef has not moved since its farm was registered, where that matters: one that
is registered has no farm at another position, and one that has ended has no active
farm at another position, and its turn comes and does not fail if it has one. -/
structure InPlace (env : Farm2.Env) (n : ℕ) (infos : List (Option SmartChef)) (pid : ℕ)
    (farmInfo : SmartChef) (db : Db Farms) : Prop where
  added : Gets env n infos 0 db pid → Adds env n pid farmInfo db →
    ∀ pid', ¬ HasRow env.context db.tables farmInfo.id pid'
  ended : n ≥ farmInfo.endBlock → ∀ pid', HasActiveRow env.context db.tables farmInfo.id pid' →
    pid' = pid ∧ Gets env n infos 0 db pid ∧ Disables env pid

/-- Every SmartChef of the run's list is in place. -/
def ChefRun.Meets {context : Context} (r : ChefRun context) (db : Db Farms) : Prop :=
  ∀ n k infos, Answers r.env n k infos → ∀ pid < k, ∀ farmInfo,
    entry infos pid = some farmInfo → InPlace r.env n infos pid farmInfo db

section
variable {env : Farm2.Env} {n k : ℕ} {infos : List (Option SmartChef)} {d d' : Db Farms}

theorem keyOf_eq {pid : ℕ} {farmInfo : SmartChef} {address : String}
    (h : sameText farmInfo.id address) :
    keyOf env.context address pid = (env.context.farmWhere pid farmInfo).key := by
  have haddress : toLowerCase farmInfo.id = toLowerCase address := h
  rw [keyOf, ← haddress]
  rfl

/-- A key that is not of the list keeps its row. -/
theorem content_after_other (h : Leaves env n infos 0 k d d') (address : String) (pid : ℕ)
    (hother : ∀ farmInfo, pid < k → entry infos pid = some farmInfo →
      ¬ sameText farmInfo.id address) :
    d'.tables.content (keyOf env.context address pid) =
      d.tables.content (keyOf env.context address pid) := by
  refine h.others _ fun pid' _ hpid' farmInfo hentry hkey => ?_
  have hpids : pid = pid' := congrArg (fun key : FarmKey => key.2.2) hkey
  subst hpids
  refine hother farmInfo (by omega) hentry ?_
  exact (congrArg (fun key : FarmKey => key.2.1) hkey).symm

/-- A run keeps the rows of the job, and makes one for each farm that it registers. -/
theorem hasRow_after (h : Leaves env n infos 0 k d d') (address : String) (pid : ℕ) :
    HasRow env.context d'.tables address pid ↔ HasRow env.context d.tables address pid ∨
      ∃ farmInfo, pid < k ∧ entry infos pid = some farmInfo ∧ sameText farmInfo.id address ∧
        Gets env n infos 0 d pid ∧ Adds env n pid farmInfo d := by
  by_cases hturn : ∃ farmInfo, pid < k ∧ entry infos pid = some farmInfo ∧
      sameText farmInfo.id address
  · obtain ⟨farmInfo, hpid, hentry, haddress⟩ := hturn
    have hrow : ∀ e : Db Farms, HasRow env.context e.tables address pid ↔
        ∃ name, (rowOf env pid farmInfo e).map FarmRow.name = some name ∧
          sameText name env.context.farm2Name := by
      intro e
      rw [hasRow_iff, keyOf_eq haddress, rowOf]
    rw [hrow, hrow]
    by_cases hgets : Gets env n infos 0 d pid
    · rw [h.own pid (Nat.zero_le _) (by omega) farmInfo hentry hgets]
      simp only [name_durableRow]
      constructor
      · intro hafter
        obtain ⟨name, hname | ⟨hnone, hcommit, _⟩, hsame⟩ := hafter
        · exact Or.inl ⟨name, hname, hsame⟩
        · exact Or.inr ⟨farmInfo, hpid, hentry, haddress, hgets, hnone, hcommit⟩
      · rintro (⟨name, hname, hsame⟩ | ⟨farmInfo', _, hentry', _, _, hadds⟩)
        · exact ⟨name, Or.inl hname, hsame⟩
        · rw [hentry] at hentry'
          cases hentry'
          exact ⟨_, Or.inr ⟨hadds.1, hadds.2, rfl⟩, rfl⟩
    · rw [h.left pid farmInfo hentry hgets]
      refine ⟨Or.inl, fun hbefore => hbefore.resolve_right fun hnew => ?_⟩
      obtain ⟨_, _, _, _, hgets', _⟩ := hnew
      exact hgets hgets'
  · have hkept := content_after_other h address pid fun farmInfo hpid hentry haddress =>
      hturn ⟨farmInfo, hpid, hentry, haddress⟩
    rw [hasRow_iff, hasRow_iff, hkept]
    refine ⟨Or.inl, fun hbefore => hbefore.resolve_right fun hnew => ?_⟩
    obtain ⟨farmInfo, hpid, hentry, haddress, _⟩ := hnew
    exact hturn ⟨farmInfo, hpid, hentry, haddress⟩

/-- A row of an ended SmartChef is active after the run when it was before, unless it is
at the position that the SmartChef has now, the run gets there, and the database does
not fail. -/
theorem hasActiveRow_after (h : Leaves env n infos 0 k d d') (hlisted : ListedOnce infos) {pid : ℕ}
    {farmInfo : SmartChef} (hpid : pid < k) (hentry : entry infos pid = some farmInfo)
    (hended : n ≥ farmInfo.endBlock) (pid' : ℕ) :
    HasActiveRow env.context d'.tables farmInfo.id pid' ↔
      HasActiveRow env.context d.tables farmInfo.id pid' ∧
        ¬ (pid' = pid ∧ Gets env n infos 0 d pid ∧ Disables env pid) := by
  by_cases hplace : pid' = pid
  · subst hplace
    have hrow : ∀ e : Db Farms, HasActiveRow env.context e.tables farmInfo.id pid' ↔
        ∃ r, found env.context.farm2Name (rowOf env pid' farmInfo e) = some r ∧ r.status = true :=
      fun e => hasActiveRow_iff
    rw [hrow, hrow]
    by_cases hgets : Gets env n infos 0 d pid'
    · rw [h.own pid' (Nat.zero_le _) (by omega) farmInfo hentry hgets,
        active_durableRow_ended hended]
      constructor
      · intro hafter
        exact ⟨hafter.2, fun hdone => hafter.1 hdone.2.2⟩
      · intro hbefore
        exact ⟨fun hdisables => hbefore.2 ⟨rfl, hgets, hdisables⟩, hbefore.1⟩
    · rw [h.left pid' farmInfo hentry hgets]
      exact ⟨fun hafter => ⟨hafter, fun hdone => hgets hdone.2.1⟩, fun hbefore => hbefore.1⟩
  · -- the list has the address nowhere else
    have hkept := content_after_other h farmInfo.id pid' fun farmInfo' _ hentry' haddress =>
      hplace (hlisted pid' pid farmInfo' farmInfo hentry' hentry haddress)
    rw [hasActiveRow_iff, hasActiveRow_iff, hkept]
    exact ⟨fun hafter => ⟨hafter, fun hdone => hplace hdone.1⟩, fun hbefore => hbefore.1⟩

/-- One row for each address after the run means one before it, and no farm registered
where there is one. -/
theorem oneRow_after (h : Leaves env n infos 0 k d d') (hlisted : ListedOnce infos) :
    OneRow env.context d'.tables ↔ OneRow env.context d.tables ∧
      ∀ pid < k, ∀ farmInfo, entry infos pid = some farmInfo → Gets env n infos 0 d pid →
        Adds env n pid farmInfo d → ∀ pid', ¬ HasRow env.context d.tables farmInfo.id pid' := by
  rw [oneRow_iff, oneRow_iff]
  constructor
  · intro hafter
    have hkept : ∀ address pid, HasRow env.context d.tables address pid →
        HasRow env.context d'.tables address pid :=
      fun address pid hrow => (hasRow_after h address pid).mpr (Or.inl hrow)
    refine ⟨fun address pid pid' hpid hpid' =>
      hafter address pid pid' (hkept _ _ hpid) (hkept _ _ hpid'), ?_⟩
    intro pid hpid farmInfo hentry hgets hadds pid' hrow
    have hnew := (hasRow_after h farmInfo.id pid).mpr
      (Or.inr ⟨farmInfo, hpid, hentry, rfl, hgets, hadds⟩)
    have hpids := hafter farmInfo.id pid pid' hnew (hkept _ _ hrow)
    subst hpids
    -- the key had no row
    obtain ⟨name, hname, _⟩ := hasRow_iff.mp hrow
    have hnone : d.tables.content (keyOf env.context farmInfo.id pid) = none := hadds.1
    rw [hnone] at hname
    cases hname
  · intro hbefore address pid pid' hpid hpid'
    obtain ⟨hone, hfresh⟩ := hbefore
    have hclash : ∀ q q', HasRow env.context d.tables address q → (∃ farmInfo, q' < k ∧
        entry infos q' = some farmInfo ∧ sameText farmInfo.id address ∧ Gets env n infos 0 d q' ∧
          Adds env n q' farmInfo d) → False := by
      intro q q' hrow hnew
      obtain ⟨farmInfo, hq, hentry, haddress, hgets, hadds⟩ := hnew
      refine hfresh q' hq farmInfo hentry hgets hadds q ?_
      have hself : sameText farmInfo.id farmInfo.id := rfl
      rw [hasRow_iff, keyOf_eq hself, ← keyOf_eq haddress, ← hasRow_iff]
      exact hrow
    rcases (hasRow_after h address pid).mp hpid with hold | hnew
    · rcases (hasRow_after h address pid').mp hpid' with hold' | hnew'
      · exact hone address pid pid' hold hold'
      · exact (hclash pid pid' hold hnew').elim
    · rcases (hasRow_after h address pid').mp hpid' with hold' | hnew'
      · exact (hclash pid' pid hold' hnew).elim
      · obtain ⟨farmInfo, _, hentry, haddress, _⟩ := hnew
        obtain ⟨farmInfo', _, hentry', haddress', _⟩ := hnew'
        exact hlisted pid pid' farmInfo farmInfo' hentry hentry' (haddress.trans haddress'.symm)

end

/-- One run. -/
theorem apply_iff {context : Context} (r : ChefRun context) (db : Db Farms) :
    OneRow context (r.apply db).tables ∧ EndedInactive r db ↔
      OneRow context db.tables ∧ r.Meets db := by
  obtain ⟨env, rfl, hlisted⟩ := r
  rcases afterRun_durableRun env db with ⟨hno, hsame⟩ | ⟨n, k, infos, hanswers, hleaves⟩
  · have hkept : (⟨env, rfl, hlisted⟩ : ChefRun env.context).apply db = db := hsame
    rw [hkept]
    exact ⟨fun h => ⟨h.1, fun n k infos ha => absurd ha (hno n k infos)⟩,
      fun h => ⟨h.1, fun n k infos ha => absurd ha (hno n k infos)⟩⟩
  · have honce := hlisted k infos hanswers.infos
    have hone := oneRow_after hleaves honce
    have hactive := fun pid (hpid : pid < k) farmInfo (hentry : entry infos pid = some farmInfo)
      (hended : n ≥ farmInfo.endBlock) => hasActiveRow_after hleaves honce hpid hentry hended
    constructor
    · intro h
      obtain ⟨hbefore, hfresh⟩ := hone.mp h.1
      refine ⟨hbefore, fun n' k' infos' ha pid hpid farmInfo hentry => ?_⟩
      obtain ⟨rfl, rfl, rfl⟩ := hanswers.unique ha
      refine ⟨hfresh pid hpid farmInfo hentry, fun hended pid' hrow => ?_⟩
      by_contra hmoved
      exact h.2 _ _ _ ha pid hpid farmInfo hentry hended pid'
        ((hactive pid hpid farmInfo hentry hended pid').mpr ⟨hrow, hmoved⟩)
    · intro h
      obtain ⟨hbefore, hmeets⟩ := h
      refine ⟨hone.mpr ⟨hbefore, fun pid hpid farmInfo hentry =>
        (hmeets n k infos hanswers pid hpid farmInfo hentry).added⟩, ?_⟩
      intro n' k' infos' ha pid hpid farmInfo hentry hended pid' hrow
      obtain ⟨rfl, rfl, rfl⟩ := hanswers.unique ha
      obtain ⟨hold, hmoved⟩ := (hactive pid hpid farmInfo hentry hended pid').mp hrow
      exact hmoved ((hmeets _ _ _ ha pid hpid farmInfo hentry).ended hended pid' hold)

/-- **One farm for each SmartChef.** Over any sequence of runs whose writes become
durable, the table has at most one farm for an address, and an ended SmartChef has no
active one after each run that lists it, exactly when the table starts so and every
SmartChef is in place in every run. -/
theorem oneFarm_iff (context : Context) (runs : List (ChefRun context)) (start : Db Farms) :
    (OneRow context (runAll ChefRun.apply runs start).tables ∧
        ∀ p ∈ starts ChefRun.apply runs start, EndedInactive p.1 p.2) ↔
      OneRow context start.tables ∧ ∀ p ∈ starts ChefRun.apply runs start, p.1.Meets p.2 := by
  induction runs generalizing start with
  | nil => simp [starts]
  | cons r runs ih =>
    have hrest := ih (r.apply start)
    have hfirst := apply_iff r start
    simp only [starts, List.forall_mem_cons, runAll_cons]
    constructor
    · intro h
      obtain ⟨hone, hended, hothers⟩ := h
      obtain ⟨hnext, hmeets⟩ := hrest.mp ⟨hone, hothers⟩
      obtain ⟨hstart, hhere⟩ := hfirst.mp ⟨hnext, hended⟩
      exact ⟨hstart, hhere, hmeets⟩
    · intro h
      obtain ⟨hstart, hhere, hmeets⟩ := h
      obtain ⟨hnext, hended⟩ := hfirst.mpr ⟨hstart, hhere⟩
      obtain ⟨hone, hothers⟩ := hrest.mpr ⟨hnext, hmeets⟩
      exact ⟨hone, hended, hothers⟩

/-! ### SmartChefs that keep their places -/

section
variable {context : Context}

/-- The run's list has a SmartChef with the address at a position. -/
def ChefRun.ListsAt (r : ChefRun context) (address : String) (pid : ℕ) : Prop :=
  ∃ n k infos, Answers r.env n k infos ∧ pid < k ∧ ∃ farmInfo, entry infos pid = some farmInfo ∧
    sameText farmInfo.id address

/-- No SmartChef is at two positions in the lists of the runs. -/
def KeepPlaces (runs : List (ChefRun context)) : Prop :=
  ∀ r ∈ runs, ∀ r' ∈ runs, ∀ address pid pid', r.ListsAt address pid → r'.ListsAt address pid' →
    pid = pid'

/-- The list has no holes, and the database disables farms and rolls back. -/
def ChefRun.Undisturbed (r : ChefRun context) : Prop :=
  ∀ n k infos, Answers r.env n k infos → ∀ pid < k, (entry infos pid).isSome = true ∧
    (r.env.faults pid).rollbackTransaction = none ∧ Disables r.env pid

/-- Each farm of the job is where a SmartChef of the lists is. -/
def RowsListed (runs : List (ChefRun context)) (db : Db Farms) : Prop :=
  ∀ address pid, HasRow context db.tables address pid → ∃ r ∈ runs, r.ListsAt address pid

variable {runs : List (ChefRun context)} {db : Db Farms}

theorem rowsListed_apply {r : ChefRun context} (hr : r ∈ runs) (h : RowsListed runs db) :
    RowsListed runs (r.apply db) := by
  obtain ⟨env, rfl, hlisted⟩ := r
  intro address pid hrow
  rcases afterRun_durableRun env db with ⟨_, hsame⟩ | ⟨n, k, infos, hanswers, hleaves⟩
  · refine h address pid ?_
    rw [← hsame]
    exact hrow
  · rcases (hasRow_after hleaves address pid).mp hrow with hold | hnew
    · exact h address pid hold
    · obtain ⟨farmInfo, hpid, hentry, haddress, _⟩ := hnew
      exact ⟨_, hr, n, k, infos, hanswers, hpid, farmInfo, hentry, haddress⟩

theorem meets_of_keepPlaces {r : ChefRun context} (hr : r ∈ runs) (hplaces : KeepPlaces runs)
    (hundisturbed : r.Undisturbed) (h : RowsListed runs db) : r.Meets db := by
  intro n k infos hanswers pid hpid farmInfo hentry
  have hplace : ∀ pid', HasRow r.env.context db.tables farmInfo.id pid' → pid' = pid := by
    intro pid' hrow
    rw [r.ofContext] at hrow
    obtain ⟨r', hr', hlists⟩ := h _ _ hrow
    exact hplaces r' hr' r hr farmInfo.id pid' pid hlists
      ⟨n, k, infos, hanswers, hpid, farmInfo, hentry, rfl⟩
  have hgets : Gets r.env n infos 0 db pid := by
    intro q _ hq hstops
    obtain ⟨hsome, hrollback, _⟩ := hundisturbed n k infos hanswers q (by omega)
    obtain ⟨farmInfo', hentry'⟩ := Option.isSome_iff_exists.mp hsome
    have hstuck := (hstops.stuckOf hentry').rollback
    rw [hrollback] at hstuck
    cases hstuck
  refine ⟨fun _ hadds pid' hrow => ?_, fun _ pid' hrow => ?_⟩
  · have hsame := hplace pid' hrow
    subst hsame
    -- the key had no row
    obtain ⟨name, hname, _⟩ := hasRow_iff.mp hrow
    have hnone : db.tables.content (keyOf r.env.context farmInfo.id pid') = none := hadds.1
    rw [hnone] at hname
    cases hname
  · obtain ⟨s, hmem, hs, _⟩ := hrow
    exact ⟨hplace pid' ⟨s, hmem, hs⟩, hgets, (hundisturbed n k infos hanswers pid hpid).2.2⟩

/-- From a table without farms of the job, runs whose lists keep every SmartChef at its
position have one farm for each, and none active that has ended. -/
theorem oneFarm_of_keepPlaces (runs : List (ChefRun context)) (hplaces : KeepPlaces runs)
    (hundisturbed : ∀ r ∈ runs, r.Undisturbed) (start : Db Farms)
    (hstart : ∀ address pid, ¬ HasRow context start.tables address pid) :
    OneRow context (runAll ChefRun.apply runs start).tables ∧
      ∀ p ∈ starts ChefRun.apply runs start, EndedInactive p.1 p.2 := by
  have hinvariant : ∀ r t, (r, t) ∈ starts ChefRun.apply runs start →
      OneRow context t.tables ∧ RowsListed runs t →
      OneRow context (r.apply t).tables ∧ RowsListed runs (r.apply t) := by
    intro r t hmem h
    have hr := env_mem_of_starts hmem
    have hmeets := meets_of_keepPlaces hr hplaces (hundisturbed r hr) h.2
    exact ⟨((apply_iff r t).mpr ⟨h.1, hmeets⟩).1, rowsListed_apply hr h.2⟩
  have hfirst : OneRow context start.tables ∧ RowsListed runs start :=
    ⟨oneRow_iff.mpr fun address pid _ hrow => absurd hrow (hstart address pid),
      fun address pid hrow => absurd hrow (hstart address pid)⟩
  refine ⟨(runAll_invariant _ hinvariant hfirst).1, fun p hp => ?_⟩
  obtain ⟨hone, hlisted⟩ := starts_invariant _ hinvariant hfirst p hp
  have hr := env_mem_of_starts hp
  exact ((apply_iff p.1 p.2).mpr
    ⟨hone, meets_of_keepPlaces hr hplaces (hundisturbed p.1 hr) hlisted⟩).2

end

/-! ### A SmartChef that moves -/

/-- The ids of the list that the run gets, a hole being none. -/
def ChefRun.Lists {context : Context} (r : ChefRun context) (ids : List (Option String)) : Prop :=
  ∃ n k infos, Answers r.env n k infos ∧ ids = infos.map (Option.map SmartChef.id)

/-- The list only grows, at any position. -/
def Grows {context : Context} (runs : List (ChefRun context)) : Prop :=
  runs.Pairwise fun r r' => ∀ ids ids', r.Lists ids → r'.Lists ids' → ids.Sublist ids'

theorem listedOnce_of_lt {infos : List (Option SmartChef)}
    (h : ∀ pid < infos.length, ∀ pid' < infos.length,
      (entry infos pid).map (fun farmInfo => toLowerCase farmInfo.id) =
        (entry infos pid').map (fun farmInfo => toLowerCase farmInfo.id) → pid = pid') :
    ListedOnce infos := by
  have hlength : ∀ pid farmInfo, entry infos pid = some farmInfo → pid < infos.length := by
    intro pid farmInfo hentry
    by_contra hout
    rw [entry, List.getElem?_eq_none (Nat.le_of_not_lt hout)] at hentry
    cases hentry
  intro pid pid' farmInfo farmInfo' hentry hentry' hsame
  refine h pid (hlength _ _ hentry) pid' (hlength _ _ hentry') ?_
  rw [hentry, hentry']
  exact congrArg some hsame

def exampleContext : Context := ⟨1, 56, 3, "PancakeSwap Farm2"⟩

def cakeToken : FarmToken :=
  ⟨1, "CAKE", "0x1111111111111111111111111111111111111111", 18, 20, true, 56, true⟩

def earnToken : FarmToken :=
  ⟨2, "EARN", "0x2222222222222222222222222222222222222222", 18, 3, true, 56, true⟩

/-- A run at block 100 in which nothing fails. -/
def exampleRun (infos : List (Option SmartChef)) (h : ListedOnce infos) :
    ChefRun exampleContext where
  env := {
    context := exampleContext
    tokens := [cakeToken, earnToken]
    getBlockNumber := .ok 100
    networkPid := .ok infos.length
    getFarm2Infos := fun _ => .ok infos
    getSafeERC20BalanceOf := fun _ _ _ => .ok (5 * 10 ^ 18)
    faults := fun _ => .none }
  ofContext := rfl
  listedOnce _ _ hinfos := Except.ok.inj hinfos ▸ h

def firstChef : SmartChef where
  id := "0x4444444444444444444444444444444444444444"
  stakeToken := cakeToken.address
  earnToken := earnToken.address
  reward := .finite 1
  endBlock := 200

/-- A SmartChef that is deployed after the other one, and listed before it. -/
def newChef : SmartChef :=
  { firstChef with id := "0x3333333333333333333333333333333333333333" }

/-- The first run gets the one SmartChef, the second one the new one before it. -/
def exampleRuns : List (ChefRun exampleContext) :=
  [exampleRun [some firstChef] (listedOnce_of_lt (by decide +kernel)),
    exampleRun [some newChef, some firstChef] (listedOnce_of_lt (by decide +kernel))]

theorem exampleRuns_grow : Grows exampleRuns := by
  refine List.pairwise_pair.mpr fun ids ids' hfirst hsecond => ?_
  obtain ⟨_, _, _, hanswers, rfl⟩ := hfirst
  obtain ⟨_, _, _, hanswers', rfl⟩ := hsecond
  cases hanswers.infos
  cases hanswers'.infos
  exact List.Sublist.cons _ (List.Sublist.refl _)

/-- The SmartChef is registered again where it is now, and its first farm stays. -/
theorem moved_chef_registered_again : ¬ ∀ (context : Context) (runs : List (ChefRun context))
    (start : Db Farms), Grows runs → OneRow context start.tables →
      OneRow context (runAll ChefRun.apply runs start).tables ∧
        ∀ p ∈ starts ChefRun.apply runs start, EndedInactive p.1 p.2 := by
  intro hall
  have hone := (hall _ exampleRuns ⟨none, Table.empty⟩ exampleRuns_grow ?_).1
  · have hrow : ∀ pid, ((runAll ChefRun.apply exampleRuns ⟨none, Table.empty⟩).tables.content
        (1, firstChef.id, pid)).map FarmRow.name = some "PancakeSwap Farm2" →
        HasRow exampleContext (runAll ChefRun.apply exampleRuns ⟨none, Table.empty⟩).tables
          firstChef.id pid :=
      fun pid hname => hasRow_iff.mpr ⟨_, hname, rfl⟩
    have hpids := oneRow_iff.mp hone firstChef.id 0 1 (hrow 0 (by decide +kernel))
      (hrow 1 (by decide +kernel))
    cases hpids
  · intro address pid pid' s hmem
    cases hmem

end BlockchainTask.SchedulerJob.Farm2Rows

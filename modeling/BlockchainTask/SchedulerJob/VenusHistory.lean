import BlockchainTask.Library.Runs
import BlockchainTask.SchedulerJob.VenusLending

/-! # The lendings over a history of runs

After a run, a market should have an active lending exactly while it is listed.
The turn of a market that is not listed disables a lending that is known, but
registers one that is not, as if the market were listed. -/
namespace BlockchainTask.SchedulerJob.VenusHistory
open BlockchainTask.Common.Exception BlockchainTask.Helper
open BlockchainTask.Library.Effect BlockchainTask.Library.Transaction
open BlockchainTask.Library.Store BlockchainTask.Library.Runs
open BlockchainTask.Repository.Lending BlockchainTask.SchedulerJob.Base
open BlockchainTask.SchedulerJob.VenusLending

/-- The infos of the market are readable and its underlying token is registered
and active. -/
structure Registered (env : Env) (market : String) (infos : MarketInfos) (status : MarketStatus)
    (token : LendingToken) : Prop where
  readable : env.getLendingMarketInfos market = .ok infos
  known : infos.market = some status
  active : findToken env.tokens env.context.network infos.underlying = some token

theorem Registered.eq {env : Env} {market : String} {infos infos' : MarketInfos}
    {status status' : MarketStatus} {token token' : LendingToken}
    (h : Registered env market infos status token)
    (h' : Registered env market infos' status' token') :
    infos' = infos ∧ status' = status ∧ token' = token := by
  have hinfos : infos' = infos := Except.ok.inj (h'.readable.symm.trans h.readable)
  subst hinfos
  exact ⟨rfl, Option.some.inj (h'.known.symm.trans h.known),
    Option.some.inj (h'.active.symm.trans h.active)⟩

/-! ## A turn -/

/-- A set that leaves a lending active. -/
def Activates (set : LendingSet) : Prop := ∀ r, (set.apply r).status = true

/-- What the turn of a market makes of the table if its step does not fail. -/
inductive Moves (env : Env) (market : String) (t : Lendings) : Lendings → Prop where
  | passed : (∀ infos status token, ¬ Registered env market infos status token) →
      Moves env market t t
  | disabled {infos : MarketInfos} {status : MarketStatus} {token : LendingToken} :
      Registered env market infos status token → status.isListed = false →
      (findOne (lendingWhere env market token) t).isSome = true →
      Moves env market t (updateOne (lendingWhere env market token) .disabled t)
  | refreshed {infos : MarketInfos} {status : MarketStatus} {token : LendingToken}
      {set : LendingSet} :
      Registered env market infos status token →
      (status.isListed = false → (findOne (lendingWhere env market token) t).isSome = false) →
      Activates set →
      Moves env market t (updateOne (lendingWhere env market token) set
        (if (findOne (lendingWhere env market token) t).isNone then
          t.insertIgnore (.new (lendingWhere env market token)) else t))

section
variable (env : Env) {d : Db Lendings} (market : String)

theorem stages_register (token : LendingToken) :
    Stages d (registerLendingMarket env market (some token))
      (fun v a w => a = true ∧
        w.tables = v.tables.insertIgnore (.new (lendingWhere env market token))) := by
  refine Stages.bind (fun _ v a w => a = true ∧ w = v) (Stages.managerWrite _ _ _)
    (fun _ => Stages.pure true fun _ => ⟨rfl, rfl⟩) fun v _ w a x hwrite hpure => ?_
  obtain ⟨ha, rfl⟩ := hpure
  rw [hwrite.2]
  exact ⟨ha, rfl⟩

theorem stages_refresh (infos : MarketInfos) (status : MarketStatus) (token : LendingToken) :
    Stages d (refreshLendingMarket env market infos status token)
      (fun v _ w => ∃ set, Activates set ∧
        w.tables = updateOne (lendingWhere env market token) set v.tables) := by
  refine Stages.bind (fun _ v _ w => ∃ set, Activates set ∧
      w.tables = updateOne (lendingWhere env market token) set v.tables)
    (Stages.await _ fun _ _ _ => rfl)
    (fun liquidity => (Stages.managerWrite _ _ _).mono fun v _ w h => ?_)
    fun v _ w _ x (hsame : v = w) h => ?_
  · rw [h.2]
    exact ⟨refreshed env infos status.collateralFactorMantissa token liquidity, fun _ => rfl, rfl⟩
  · rw [hsame]
    exact h

theorem stages_registerAndRefresh (infos : MarketInfos) (status : MarketStatus)
    (token : LendingToken) (lending : Option (Stored LendingRow)) :
    Stages d (registerAndRefresh env market infos status token lending)
      (fun v _ w => ∃ set, Activates set ∧
        w.tables = updateOne (lendingWhere env market token) set
          (if lending.isNone then v.tables.insertIgnore (.new (lendingWhere env market token))
            else v.tables)) := by
  have hinitialized : Stages d
      (if lending.isNone then registerLendingMarket env market (some token) else pure true)
      (fun v a w => a = true ∧ w.tables =
        if lending.isNone then v.tables.insertIgnore (.new (lendingWhere env market token))
        else v.tables) := by
    refine Stages.ite (fun hnone => ?_) (fun hsome => ?_)
    · refine (stages_register env market token).mono fun v a w h => ?_
      rw [if_pos hnone]
      exact h
    · refine Stages.pure true fun v => ⟨rfl, ?_⟩
      rw [if_neg hsome]
  refine Stages.bindOf (fun _ v _ w => ∃ set, Activates set ∧
      w.tables = updateOne (lendingWhere env market token) set v.tables) hinitialized
    (fun v a w h => ?_) fun v a w _ x h hrefresh => ?_
  · rw [h.1]
    exact stages_refresh env market infos status token
  · rw [← h.2]
    exact hrefresh

variable {s : Session (Db Lendings) LoggerData}

/-- A step that fails leaves the committed data as they were. -/
theorem wp_attempt :
    Eff.wp (attempt env market) (fun _ u => Moves env market s.db.tables u.db.tables)
      (fun _ u => u.db = s.db) s := by
  simp only [attempt, Eff.wp_bind, Eff.wp_await]
  refine ⟨fun infos hinfos => ?_, fun _ _ => trivial⟩
  cases hstatus : infos.market with
  | none => exact rfl
  | some status =>
    simp only [Eff.wp_bind, Eff.wp_mayFail]
    refine ⟨fun _ => ?_, fun _ _ => trivial⟩
    cases htoken : findToken env.tokens env.context.network infos.underlying with
    | none =>
      refine Moves.passed fun infos' status' token' h => ?_
      have hsame : infos' = infos := Except.ok.inj (h.readable.symm.trans hinfos)
      rw [hsame] at h
      have hsome := h.active
      rw [htoken] at hsome
      cases hsome
    | some token =>
      have hregistered : Registered env market infos status token := ⟨hinfos, hstatus, htoken⟩
      rw [Eff.wp_bind]
      refine wp_connectionRead (fun _ => ?_) (fun _ _ => rfl)
      rw [Eff.wp_ite]
      refine ⟨fun hknown => ?_, fun hother => ?_⟩
      · rw [Bool.and_eq_true, Bool.not_eq_true'] at hknown
        exact wp_connectionWrite (fun _ => Moves.disabled hregistered hknown.1 hknown.2)
          fun _ _ => rfl
      · have hlisted : status.isListed = false →
            (findOne (lendingWhere env market token) s.db.tables).isSome = false := by
          intro hnot
          rw [hnot, Bool.not_false, Bool.true_and] at hother
          exact Bool.not_eq_true _ ▸ hother
        have hcommitted := Stages.transaction (P := fun w : Db Lendings =>
            Moves env market s.db.tables w.tables) (env.faults market).connect
          (env.faults market).startTransaction (env.faults market).commitTransaction
          (stages_registerAndRefresh env market infos status token
            (findOne (lendingWhere env market token) s.db.tables))
          (fun _ w h => by
            obtain ⟨set, hset, hw⟩ := h
            rw [hw]
            exact Moves.refreshed hregistered hlisted hset) rfl
        exact Eff.wp_mono hcommitted (fun _ _ hu => hu.1) (fun _ _ hu => hu)

/-- The step of a turn does not fail: its try block returns. -/
def Returns (v : String × Session (Db Lendings) LoggerData) : Prop :=
  (attempt env v.1 { v.2 with runner := none }).1 = .ok ()

theorem returns_of_isOk {v : String × Session (Db Lendings) LoggerData}
    (h : (attempt env v.1 { v.2 with runner := none }).1.isOk = true) : Returns env v := by
  unfold Returns
  cases hresult : (attempt env v.1 { v.2 with runner := none }).1 with
  | ok a => rfl
  | error e =>
    rw [hresult] at h
    cases h

theorem turn_moves :
    (Returns env (market, s) → Moves env market s.db.tables (turn env market s).2.db.tables) ∧
      (¬ Returns env (market, s) → (turn env market s).2.db = s.db) := by
  have hattempt := wp_attempt env market (s := { s with runner := none })
  have hturn : ∀ P : Db Lendings → Prop,
      Eff.wp (attempt env market) (fun _ u => P u.db) (fun _ u => P u.db) { s with runner := none } →
        P (turn env market s).2.db := by
    intro P hP
    refine Eff.wp_final (P := fun u : Session (Db Lendings) LoggerData => P u.db) ?_
    rw [turn, Eff.wp_bind]
    refine wp_finallyRelease (P := fun _ d _ => P d) (F := fun d _ => P d) ?_
    rw [Eff.wp_tryCatch]
    refine Eff.wp_mono hP (fun _ _ hu => hu) (fun _ u hu => ?_)
    exact Eff.wp_mono wp_rollbackIfActive_db (fun _ v hv => hv ▸ hu) (fun _ v hv => hv ▸ hu)
  unfold Returns
  unfold Eff.wp at hattempt hturn
  generalize attempt env market { s with runner := none } = outcome at hattempt hturn ⊢
  obtain ⟨result, u⟩ := outcome
  cases result with
  | ok a =>
    refine ⟨fun _ => ?_, fun hnot => absurd rfl hnot⟩
    exact hturn (fun d => Moves env market s.db.tables d.tables) hattempt
  | error e =>
    refine ⟨fun h => (by cases h), fun _ => ?_⟩
    exact hturn (fun d => d = s.db) hattempt

end

/-! ## The rows of a market -/

section
variable {env : Env} {market : String} {t t' : Lendings}

def marketRows (env : Env) (market : String) (t : Lendings) : List LendingRow :=
  rowsOf env.context.protocol market t

/-- The market has an active row exactly if it is listed. -/
def FollowsListing (env : Env) (market : String) (rows : List LendingRow) : Prop :=
  ∀ infos status token, Registered env market infos status token →
    ((∃ r ∈ rows, r.status = true) ↔ status.isListed = true)

/-- A market that is not listed has a row under its token, and no active one under
another. -/
def KnownIfUnlisted (env : Env) (market : String) (rows : List LendingRow) : Prop :=
  ∀ infos status token, Registered env market infos status token → status.isListed = false →
    (∃ r ∈ rows, r.token = token.id) ∧ ∀ r ∈ rows, r.token ≠ token.id → r.status = false

/-- The turn of a market leaves the rows of any other address alone. -/
theorem Moves.others (h : Moves env market t t') {address : String}
    (hother : ¬ sameText address market) : marketRows env address t' = marketRows env address t := by
  unfold marketRows
  cases h with
  | passed => rfl
  | @disabled infos status token _ _ _ =>
    exact rowsOf_updateOne_other (lendingWhere env market token) .disabled hother _ t
  | @refreshed infos status token set _ _ _ =>
    rw [rowsOf_updateOne_other (lendingWhere env market token) set hother]
    split
    · exact rowsOf_insert_other (conflicts_new (lendingWhere env market token) t) hother _
    · rfl

theorem mem_updated {token : ℕ} {set : LendingSet} {rows : List LendingRow} {r' : LendingRow} :
    r' ∈ updated token set rows ↔
      ∃ r ∈ rows, (r.token = token ∧ r' = set.apply r) ∨ (r.token ≠ token ∧ r' = r) := by
  rw [updated, List.mem_map]
  constructor
  · intro h
    obtain ⟨r, hr, hr'⟩ := h
    refine ⟨r, hr, ?_⟩
    split at hr'
    · rename_i htoken
      exact Or.inl ⟨beq_iff_eq.mp htoken, hr'.symm⟩
    · rename_i htoken
      exact Or.inr ⟨fun he => htoken (beq_iff_eq.mpr he), hr'.symm⟩
  · intro h
    obtain ⟨r, hr, ⟨htoken, hr'⟩ | ⟨htoken, hr'⟩⟩ := h
    · exact ⟨r, hr, by rw [if_pos (beq_iff_eq.mpr htoken), hr']⟩
    · exact ⟨r, hr, by rw [if_neg (fun he => htoken (beq_iff_eq.mp he)), hr']⟩

/-- After a refresh there is an active row under the token. -/
theorem active_of_refresh {w : LendingWhere} {set : LendingSet} (hset : Activates set) :
    ∃ r ∈ rowsOf w.protocol w.address
      (updateOne w set (if (findOne w t).isNone then t.insertIgnore (.new w) else t)),
      r.status = true := by
  rw [rowsOf_updateOne_own]
  have hrow : ∃ r ∈ rowsOf w.protocol w.address
      (if (findOne w t).isNone then t.insertIgnore (.new w) else t), r.token = w.token := by
    split
    · rw [rowsOf_insert_own (conflicts_new w t)]
      exact ⟨.new w, List.mem_append_right _ List.mem_cons_self, rfl⟩
    · rename_i hknown
      rw [Option.isNone_iff_eq_none] at hknown
      exact findOne_isSome.mp (Option.isSome_iff_ne_none.mpr hknown)
  obtain ⟨r, hr, htoken⟩ := hrow
  exact ⟨set.apply r, mem_updated.mpr ⟨r, hr, Or.inl ⟨htoken, rfl⟩⟩, hset r⟩

/-- A turn ends as it should exactly if it starts with a market that is listed or
known. -/
theorem Moves.follows_iff (h : Moves env market t t') :
    FollowsListing env market (marketRows env market t') ↔
      KnownIfUnlisted env market (marketRows env market t) := by
  cases h with
  | passed hnone =>
    exact ⟨fun _ infos status token hr => absurd hr (hnone infos status token),
      fun _ infos status token hr => absurd hr (hnone infos status token)⟩
  | @disabled infos status token hregistered hunlisted hfound =>
    have hrows : marketRows env market
        (updateOne (lendingWhere env market token) .disabled t) =
          updated token.id .disabled (marketRows env market t) :=
      rowsOf_updateOne_own (lendingWhere env market token) .disabled t
    have hknown : ∃ r ∈ marketRows env market t, r.token = token.id := findOne_isSome.mp hfound
    rw [hrows]
    constructor
    · intro hfollows infos' status' token' hregistered' _
      obtain ⟨rfl, rfl, rfl⟩ := hregistered.eq hregistered'
      refine ⟨hknown, fun r hr htoken => ?_⟩
      by_contra hactive
      rw [Bool.not_eq_false] at hactive
      have hlisted := (hfollows _ _ _ hregistered).mp
        ⟨r, mem_updated.mpr ⟨r, hr, Or.inr ⟨htoken, rfl⟩⟩, hactive⟩
      rw [hunlisted] at hlisted
      cases hlisted
    · intro hknownif infos' status' token' hregistered'
      obtain ⟨rfl, rfl, rfl⟩ := hregistered.eq hregistered'
      rw [hunlisted]
      refine ⟨fun hactive => ?_, fun hlisted => (by cases hlisted)⟩
      obtain ⟨r', hr', hactive⟩ := hactive
      obtain ⟨r, hr, ⟨_, rfl⟩ | ⟨htoken, rfl⟩⟩ := mem_updated.mp hr'
      · cases hactive
      · rw [(hknownif _ _ _ hregistered hunlisted).2 _ hr htoken] at hactive
        cases hactive
  | @refreshed infos status token set hregistered hlisted hset =>
    have hactive := active_of_refresh (w := lendingWhere env market token) (t := t) hset
    constructor
    · intro hfollows infos' status' token' hregistered' hunlisted
      obtain ⟨rfl, rfl, rfl⟩ := hregistered.eq hregistered'
      have hlisted' := (hfollows _ _ _ hregistered).mp hactive
      rw [hunlisted] at hlisted'
      cases hlisted'
    · intro hknownif infos' status' token' hregistered'
      obtain ⟨rfl, rfl, rfl⟩ := hregistered.eq hregistered'
      refine ⟨fun _ => ?_, fun _ => hactive⟩
      by_contra hunlisted
      rw [Bool.not_eq_true] at hunlisted
      have hfound := findOne_isSome (w := lendingWhere env market _).mpr
        (hknownif _ _ _ hregistered hunlisted).1
      exact absurd (hfound.symm.trans (hlisted hunlisted)) Bool.false_ne_true.symm

/-- What a turn needs is still there for a second turn of the market. -/
theorem Moves.known (h : Moves env market t t')
    (hknown : KnownIfUnlisted env market (marketRows env market t)) :
    KnownIfUnlisted env market (marketRows env market t') := by
  cases h with
  | passed => exact hknown
  | @disabled infos status token hregistered hunlisted _ =>
    have hrows : marketRows env market
        (updateOne (lendingWhere env market token) .disabled t) =
          updated token.id .disabled (marketRows env market t) :=
      rowsOf_updateOne_own (lendingWhere env market token) .disabled t
    rw [hrows]
    intro infos' status' token' hregistered' _
    obtain ⟨rfl, rfl, rfl⟩ := hregistered.eq hregistered'
    obtain ⟨⟨r, hr, htoken⟩, hothers⟩ := hknown _ _ _ hregistered hunlisted
    refine ⟨⟨LendingSet.disabled.apply r, mem_updated.mpr ⟨r, hr, Or.inl ⟨htoken, rfl⟩⟩, htoken⟩,
      fun r' hr' htoken' => ?_⟩
    obtain ⟨r₁, hr₁, ⟨_, rfl⟩ | ⟨hne, rfl⟩⟩ := mem_updated.mp hr'
    · rfl
    · exact hothers _ hr₁ hne
  | @refreshed infos status token set hregistered hlisted hset =>
    intro infos' status' token' hregistered' hunlisted
    obtain ⟨rfl, rfl, rfl⟩ := hregistered.eq hregistered'
    have hfound := findOne_isSome (w := lendingWhere env market _).mpr
      (hknown _ _ _ hregistered hunlisted).1
    exact absurd (hfound.symm.trans (hlisted hunlisted)) Bool.false_ne_true.symm

end

/-! ## Histories -/

/-- The session that the loop of a run starts in. -/
def loopStart (markets : List String) (db : Db Lendings) : Session (Db Lendings) LoggerData :=
  { startSession db with log := { LoggerData.empty with total := some markets.length } }

/-- The markets that a run gets to, each with the session its turn starts in. -/
def visited (env : Env) (db : Db Lendings) : List (String × Session (Db Lendings) LoggerData) :=
  match env.getLendingAllMarkets with
  | .ok markets => Eff.visits (turn env) markets (loopStart markets db)
  | .error _ => []

def step (env : Env) (db : Db Lendings) : Db Lendings := afterRun (VenusJobBSCLendingService.run env) db

/-- After the run, every market that had its turn without a failing step has an
active row exactly if it is listed, as far as its infos were readable and its
underlying token is registered and active. -/
def Tracks (env : Env) (db : Db Lendings) : Prop :=
  ∀ market ∈ (visited env db).map Prod.fst,
    (∀ v ∈ visited env db, v.1 = market → Returns env v) →
      FollowsListing env market (marketRows env market (step env db).tables)

/-- The run starts with a row, under its token alone, for each market that is not
listed and has its turn without a failing step. -/
def StartsKnown (env : Env) (db : Db Lendings) : Prop :=
  ∀ market ∈ (visited env db).map Prod.fst,
    (∀ v ∈ visited env db, v.1 = market → Returns env v) →
      KnownIfUnlisted env market (marketRows env market db.tables)

theorem step_db {env : Env} {markets : List String} (h : env.getLendingAllMarkets = .ok markets)
    (db : Db Lendings) :
    step env db = (Eff.forEach markets (turn env) (loopStart markets db)).2.db := by
  have hstart : (writeLog (fun _ => .empty) : JobEff Lendings Unit) (startSession db) =
      (.ok (), startSession db) := rfl
  rw [step, afterRun, VenusJobBSCLendingService.run, Eff.bind_of_ok hstart,
    Eff.tryCatch_rethrow_snd]
  simp only [h, Eff.bind_eq, Eff.await, writeLog, Eff.update]
  rfl

theorem visited_subset {env : Env} {markets : List String}
    (h : env.getLendingAllMarkets = .ok markets) {db : Db Lendings} {market : String}
    (hmarket : market ∈ (visited env db).map Prod.fst) : market ∈ markets := by
  obtain ⟨v, hv, rfl⟩ := List.mem_map.mp hmarket
  rw [visited, h] at hv
  exact Eff.mem_of_visits hv

theorem tracks_of_startsKnown {env : Env} {db : Db Lendings} (h : StartsKnown env db) :
    Tracks env db := by
  intro market hmarket hreturns
  have hknown := h market hmarket hreturns
  cases hmarkets : env.getLendingAllMarkets with
  | error e =>
    rw [visited, hmarkets] at hmarket
    cases hmarket
  | ok markets =>
    have hmem := visited_subset hmarkets hmarket
    rw [step_db hmarkets]
    have hvisited : visited env db = Eff.visits (turn env) markets (loopStart markets db) := by
      rw [visited, hmarkets]
    rw [hvisited] at hmarket hreturns
    refine Eff.forEach_visits (f := turn env) (x := market) (Returns env)
      (I := fun s => KnownIfUnlisted env market (marketRows env market s.db.tables))
      (J := fun s => FollowsListing env market (marketRows env market s.db.tables))
      (fun s hs hI => ?_) (fun other hother hne s => ?_) hreturns hknown (Or.inl hmarket)
    · have hmoves := (turn_moves env market).1 hs
      exact ⟨hmoves.known hI, hmoves.follows_iff.mpr hI⟩
    · -- the other market is another address
      have hdiffer : ¬ sameText market other := fun hsame =>
        hne (env.checksummed markets hmarkets market hmem other hother hsame).symm
      have hkept : marketRows env market (turn env other s).2.db.tables =
          marketRows env market s.db.tables := by
        by_cases hs : Returns env (other, s)
        · exact ((turn_moves env other).1 hs).others hdiffer
        · rw [(turn_moves env other).2 hs]
      rw [hkept]
      exact ⟨id, id⟩

/-- **Listing.** In every history whose runs start with known lendings for the
markets that are not listed, the lendings follow the listings after each run. -/
theorem lendings_follow_listings (history : List Env) (db : Db Lendings)
    (h : ∀ p ∈ starts step history db, StartsKnown p.1 p.2) :
    ∀ p ∈ starts step history db, Tracks p.1 p.2 := by
  intro p hp
  exact tracks_of_startsKnown (h p hp)

/-! ### One market -/

def marketToken : LendingToken := ⟨1, "0xba", 18, 3, true, 1⟩

def marketInfos (isListed : Bool) : MarketInfos :=
  ⟨"0xba", 10 ^ 9, 10 ^ 9, 10 ^ 18, 10 ^ 17, 10 ^ 17, some ⟨isListed, 10 ^ 17⟩⟩

/-- The comptroller has one market, listed or not. -/
def marketRun (isListed : Bool) : Env where
  context := ⟨1, 1, 3⟩
  tokens := [marketToken]
  getLendingAllMarkets := .ok ["0x5a"]
  getLendingMarketInfos _ := .ok (marketInfos isListed)
  getBalance _ := .ok 0
  getSafeERC20BalanceOf _ _ := .ok (10 ^ 18)
  faults _ := .none
  checksummed := by
    intro markets h m hm m' hm' _
    cases h
    rw [List.mem_singleton.mp hm, List.mem_singleton.mp hm']

def emptyDb : Db Lendings := ⟨none, Table.empty⟩

theorem visited_marketRun (isListed : Bool) (db : Db Lendings) :
    visited (marketRun isListed) db = [("0x5a", loopStart ["0x5a"] db)] :=
  Eff.visits_singleton _ _ _

theorem marketRun_visited {isListed : Bool} {db : Db Lendings} {market : String}
    (h : market ∈ (visited (marketRun isListed) db).map Prod.fst) : market = "0x5a" := by
  have hmarkets : (marketRun isListed).getLendingAllMarkets = .ok ["0x5a"] := rfl
  exact List.mem_singleton.mp (visited_subset hmarkets h)

theorem marketRun_registered {isListed : Bool} {infos : MarketInfos} {status : MarketStatus}
    {token : LendingToken} (h : Registered (marketRun isListed) "0x5a" infos status token) :
    status = ⟨isListed, 10 ^ 17⟩ ∧ token = marketToken := by
  have hown : Registered (marketRun isListed) "0x5a" (marketInfos isListed) ⟨isListed, 10 ^ 17⟩
      marketToken := ⟨rfl, rfl, by cases isListed <;> rfl⟩
  exact (hown.eq h).2

/-- Listed, not listed, and listed again. -/
theorem relisted_market_tracked :
    Tracks (marketRun true) emptyDb ∧ Tracks (marketRun false) (step (marketRun true) emptyDb) ∧
      Tracks (marketRun true) (step (marketRun false) (step (marketRun true) emptyDb)) := by
  have htracks : ∀ p ∈ starts step [marketRun true, marketRun false, marketRun true] emptyDb,
      Tracks p.1 p.2 := by
    refine lendings_follow_listings _ _ fun p hp => ?_
    simp only [starts, List.mem_cons, List.not_mem_nil, or_false] at hp
    rcases hp with rfl | rfl | rfl
    · intro market hmarket _ infos status token hregistered hunlisted
      rw [marketRun_visited hmarket] at hregistered
      rw [(marketRun_registered hregistered).1] at hunlisted
      cases hunlisted
    · intro market hmarket _ infos status token hregistered _
      rw [marketRun_visited hmarket] at hregistered ⊢
      rw [(marketRun_registered hregistered).2]
      have hknown : (∃ r ∈ marketRows (marketRun false) "0x5a"
            (step (marketRun true) emptyDb).tables, r.token = 1) ∧
          ∀ r ∈ marketRows (marketRun false) "0x5a" (step (marketRun true) emptyDb).tables,
            r.token ≠ 1 → r.status = false := by decide +kernel
      exact hknown
    · intro market hmarket _ infos status token hregistered hunlisted
      rw [marketRun_visited hmarket] at hregistered
      rw [(marketRun_registered hregistered).1] at hunlisted
      cases hunlisted
  simp only [starts, List.forall_mem_cons] at htracks
  exact ⟨htracks.1, htracks.2.1, htracks.2.2.1⟩

/-- A market that is not listed and has no lending gets an active one. -/
theorem unlisted_market_registered :
    ¬ ∀ history db, ∀ p ∈ starts step history db, Tracks p.1 p.2 := by
  intro hall
  have htracks := hall [marketRun false] emptyDb (marketRun false, emptyDb) List.mem_cons_self
  have hmarket : "0x5a" ∈ (visited (marketRun false) emptyDb).map Prod.fst := by decide
  have hreturns : ∀ v ∈ visited (marketRun false) emptyDb, v.1 = "0x5a" →
      Returns (marketRun false) v := by
    intro v hv _
    rw [visited_marketRun] at hv
    rw [List.mem_singleton.mp hv]
    exact returns_of_isOk _ (by decide +kernel)
  have hactive : ∃ r ∈ marketRows (marketRun false) "0x5a"
      (step (marketRun false) emptyDb).tables, r.status = true := by decide +kernel
  have hlisted := (htracks "0x5a" hmarket hreturns (marketInfos false) ⟨false, 10 ^ 17⟩ marketToken
    ⟨rfl, rfl, rfl⟩).mp hactive
  cases hlisted

end BlockchainTask.SchedulerJob.VenusHistory

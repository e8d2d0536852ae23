import BlockchainTask.SchedulerJob.PairWindows

/-! # The token table over the runs of the pair job

Each run keeps a record of the pairs it has written: the row, what the node
reported of the pair, and the rows of the two constituents at that time. The
invariant is about a table together with such records: the constituents are
rows of the same network, with the reported addresses, active when the pair was
written; no two rows of a network share an address; and no recorded pair is a
constituent of itself, directly or through other recorded pairs. -/
namespace BlockchainTask.SchedulerJob.TokenInvariant
open BlockchainTask.Helper BlockchainTask.Common.Exception
open BlockchainTask.Library.Effect BlockchainTask.Library.Runs BlockchainTask.Library.Store
open BlockchainTask.Repository.Token BlockchainTask.SchedulerJob.Base
open BlockchainTask.SchedulerJob.PairTemplate BlockchainTask.SchedulerJob.PairEffect
open BlockchainTask.SchedulerJob.PairWindows

/-! ## Records and the invariant -/

structure WrittenPair where
  row : Stored TokenRow
  info : PairInfo
  token0 : Stored TokenRow
  token1 : Stored TokenRow
  deriving DecidableEq

/-- A token row of the network, with the address reported, and active. -/
structure Fits (network : Nat) (reported : Option String) (token : Stored TokenRow) : Prop where
  network : token.row.network = network
  address : ∃ a, reported = some a ∧ sameText token.row.address a
  active : token.row.status = true

structure WrittenPair.Sound (w : WrittenPair) : Prop where
  type : w.row.row.type = .MULTI
  reported : sameText w.info.pair w.row.row.address
  pair0 : w.row.row.pair0 = some w.token0.id
  pair1 : w.row.row.pair1 = some w.token1.id
  fits0 : Fits w.row.row.network w.info.token0 w.token0
  fits1 : Fits w.row.row.network w.info.token1 w.token1

/-- The table has the row, up to columns that other jobs write. -/
def Kept (t : Tokens) (s : Stored TokenRow) : Prop :=
  ∃ s' ∈ t.rows, s'.id = s.id ∧ s'.row.network = s.row.network ∧ s'.row.address = s.row.address

/-- Among recorded pairs, the pair `a` is a constituent of the pair `b`. -/
def Constituent (written : List WrittenPair) (a b : Nat) : Prop :=
  ∃ w ∈ written, w.row.id = b ∧ (w.token0.id = a ∨ w.token1.id = a) ∧
    ∃ w' ∈ written, w'.row.id = a

structure PairInvariant (t : Tokens) (written : List WrittenPair) : Prop where
  sound : ∀ w ∈ written, w.Sound
  row : ∀ w ∈ written, Kept t w.row
  token0 : ∀ w ∈ written, Kept t w.token0
  token1 : ∀ w ∈ written, Kept t w.token1
  unique : ∀ a ∈ t.rows, ∀ b ∈ t.rows, a.row.network = b.row.network →
    sameText a.row.address b.row.address → a = b
  wellFounded : WellFounded (Constituent written)

/-- What the node reported to the run that handed over these pids. -/
def reportedTo (env : Env) (pids : List Nat) : List PairInfo :=
  match env.context.getAMMFactoryInfos pids with
  | .error _ => []
  | .ok multiTokens =>
    match multiTokens.mapM id with
    | none => []
    | some addresses =>
      match env.context.getPairsInfo addresses with
      | .ok composed => composed
      | .error _ => []

/-- The record of a row, if all of it is there. -/
def recordOf (reported : List PairInfo) (t : Tokens) (s : Stored TokenRow) : Option WrittenPair := do
  let info ← composedOf reported s.row.address
  let token0 ← s.row.pair0.bind t.byId
  let token1 ← s.row.pair1.bind t.byId
  pure ⟨s, info, token0, token1⟩

/-- The rows of pairs that a run has appended. -/
def newPairs (d d' : Db Tokens) : List (Stored TokenRow) :=
  d'.tables.rows.filter fun s => decide (d.tables.nextId ≤ s.id) && decide (s.row.type = .MULTI)

/-- One run, with its records. -/
def record (env : Env) (p : Db Tokens × List WrittenPair) : Db Tokens × List WrittenPair :=
  (step env p.1, p.2 ++ (newPairs p.1 (step env p.1)).filterMap
    (recordOf (reportedTo env (handed env p.1)) (step env p.1).tables))

/-- The records change nothing of what the runs do. -/
theorem record_fst (envs : List Env) (p : Db Tokens × List WrittenPair) :
    (runAll record envs p).1 = runAll step envs p.1 := by
  induction envs generalizing p with
  | nil => rfl
  | cons env envs ih => exact ih (record env p)

/-! ## The rows of one run -/

/-- A pair that a task has appended is made on a table that the new one extends
and whose ids are all below it. -/
theorem new_pair_row {context : Context} {composed : List PairInfo} {t : Tokens}
    {singles pairs sameChunk : List TokenRow} {s : Stored TokenRow}
    (h : TaskRows context composed t singles pairs sameChunk)
    (hs : s ∈ (t.insertAll (singles ++ (pairs ++ sameChunk))).rows) (hnew : t.nextId ≤ s.id)
    (htype : s.row.type = .MULTI) :
    ∃ u : Tokens, u.rows <+: (t.insertAll (singles ++ (pairs ++ sameChunk))).rows ∧
      u.nextId ≤ s.id ∧ PairRow context composed u s.row := by
  have hgrows : ∀ (u : Tokens) (rs : List TokenRow), u.rows <+: (u.insertAll rs).rows :=
    fun u rs => Table.rows_prefix_insertAll u rs
  rw [Table.insertAll_append, Table.insertAll_append] at hs ⊢
  rcases Table.mem_insertAll hs with hs | ⟨hrow, hid⟩
  · rcases Table.mem_insertAll hs with hs | ⟨hrow, hid⟩
    · -- the row of a single token, or one that was there before
      rcases Table.mem_insertAll hs with hs | ⟨hrow, _⟩
      · have hbelow := t.idsBelow s hs
        omega
      · rw [h.single s.row hrow] at htype
        cases htype
    · exact ⟨t.insertAll singles, (hgrows _ pairs).trans (hgrows _ sameChunk), hid,
        h.pair s.row hrow⟩
  · exact ⟨(t.insertAll singles).insertAll pairs, hgrows _ sameChunk, hid, h.later s.row hrow⟩

/-- A record of a run is sound, is of a row the run has appended, and its
constituents were there before. -/
structure NewRecord (base : Nat) (t : Tokens) (w : WrittenPair) : Prop where
  sound : w.Sound
  row : w.row ∈ t.rows
  fresh : base ≤ w.row.id
  token0 : w.token0 ∈ t.rows ∧ w.token0.id < w.row.id
  token1 : w.token1 ∈ t.rows ∧ w.token1.id < w.row.id

theorem fits_of_findOne {network : Nat} {reported : Option String} {t : Tokens}
    {token : Stored TokenRow} (h : findOne network reported t = some token)
    (hactive : token.row.status = true) : Fits network reported token := by
  obtain ⟨_, hnetwork, a, ha, hsame⟩ := findOne_some h
  exact ⟨hnetwork, ⟨a, ha, hsame⟩, hactive⟩

theorem composedOf_some {composed : List PairInfo} {address : String} {info : PairInfo}
    (h : composedOf composed address = some info) : sameText info.pair address := by
  have hfound := List.find?_some h
  simpa [sameText] using hfound

/-- Every pair that a task has appended has its record. -/
theorem recordOf_new {context : Context} {composed : List PairInfo} {t : Tokens}
    {singles pairs sameChunk : List TokenRow} {s : Stored TokenRow}
    (h : TaskRows context composed t singles pairs sameChunk)
    (hs : s ∈ (t.insertAll (singles ++ (pairs ++ sameChunk))).rows) (hnew : t.nextId ≤ s.id)
    (htype : s.row.type = .MULTI) :
    ∃ w, recordOf composed (t.insertAll (singles ++ (pairs ++ sameChunk))) s = some w ∧
      w.row = s ∧ NewRecord t.nextId (t.insertAll (singles ++ (pairs ++ sameChunk))) w := by
  obtain ⟨u, hext, hbelow, hrow⟩ := new_pair_row h hs hnew htype
  obtain ⟨info, token0, token1, hinfo, h0, h1, hs0, hs1, hp0, hp1⟩ := hrow.constituents
  have hmem0 := (findOne_some h0).1
  have hmem1 := (findOne_some h1).1
  have hid0 := u.idsBelow token0 hmem0
  have hid1 := u.idsBelow token1 hmem1
  refine ⟨⟨s, info, token0, token1⟩, ?_, rfl, ?_⟩
  · rw [recordOf, hinfo, hp0, hp1]
    simp only [Option.bind_eq_bind, Option.bind_some, Table.byId_of_mem (hext.subset hmem0),
      Table.byId_of_mem (hext.subset hmem1)]
    rfl
  · refine ⟨⟨htype, composedOf_some hinfo, hp0, hp1, ?_, ?_⟩, hs, hnew,
      ⟨hext.subset hmem0, Nat.lt_of_lt_of_le hid0 hbelow⟩,
      ⟨hext.subset hmem1, Nat.lt_of_lt_of_le hid1 hbelow⟩⟩
    · rw [hrow.network]
      exact fits_of_findOne h0 hs0
    · rw [hrow.network]
      exact fits_of_findOne h1 hs1

/-- What one run adds to the table and to the records. -/
theorem record_cases (env : Env) (d : Db Tokens) (written : List WrittenPair) :
    ∃ new, (record env (d, written)).2 = written ++ new ∧
      d.tables.rows <+: (step env d).tables.rows ∧
      d.tables.nextId ≤ (step env d).tables.nextId ∧
      (∀ s ∈ (step env d).tables.rows, s ∈ d.tables.rows ∨ d.tables.nextId ≤ s.id) ∧
      (∀ w ∈ new, NewRecord d.tables.nextId (step env d).tables w) ∧
      ∀ s ∈ (step env d).tables.rows, d.tables.nextId ≤ s.id → s.row.type = .MULTI →
        ∃ w ∈ new, w.row = s := by
  refine ⟨_, rfl, ?_⟩
  rcases step_cases env d with ⟨_, hsame⟩ | ⟨total, _, _, _, hhanded, hcommit⟩
  · -- nothing was appended
    have hnone : ∀ s ∈ (step env d).tables.rows, ¬ d.tables.nextId ≤ s.id := by
      intro s hs
      rw [hsame] at hs
      have hbelow := d.tables.idsBelow s hs
      omega
    refine ⟨⟨[], by rw [List.append_nil, hsame]⟩, Nat.le_of_eq (by rw [hsame]),
      fun s hs => Or.inl (hsame ▸ hs), fun w hw => ?_, fun s hs hnew => absurd hnew (hnone s hs)⟩
    obtain ⟨s, hs, _⟩ := List.mem_filterMap.mp hw
    simp only [newPairs, List.mem_filter, Bool.and_eq_true, decide_eq_true_eq] at hs
    exact absurd hs.2.1 (hnone s hs.1)
  · obtain ⟨multiTokens, composed, x, htokens, ⟨addresses, haddresses, hpairs⟩,
      ⟨singles, pairs, sameChunk, hrows, rfl⟩, hend⟩ := hcommit
    have hreported : reportedTo env (handed env d) = composed := by
      rw [hhanded]
      simp only [reportedTo, htokens, haddresses, hpairs]
    have htables : (step env d).tables =
        d.tables.insertAll (singles ++ (pairs ++ sameChunk)) := by rw [hend]; rfl
    rw [hreported]
    simp only [newPairs, htables]
    refine ⟨Table.rows_prefix_insertAll _ _, Table.insertAll_nextId _ _,
      fun s hs => (Table.mem_insertAll hs).imp id And.right, fun w hw => ?_,
      fun s hs hnew htype => ?_⟩
    · obtain ⟨s, hs, hrecord⟩ := List.mem_filterMap.mp hw
      simp only [List.mem_filter, Bool.and_eq_true, decide_eq_true_eq] at hs
      obtain ⟨w', hw', _, hnewRecord⟩ := recordOf_new hrows hs.1 hs.2.1 hs.2.2
      rw [hrecord] at hw'
      cases hw'
      exact hnewRecord
    · obtain ⟨w, hw, hws, _⟩ := recordOf_new hrows hs hnew htype
      refine ⟨w, List.mem_filterMap.mpr ⟨s, ?_, hw⟩, hws⟩
      simp only [List.mem_filter, Bool.and_eq_true, decide_eq_true_eq]
      exact ⟨hs, hnew, htype⟩

/-! ## The invariant -/

theorem Kept.below {t : Tokens} {s : Stored TokenRow} (h : Kept t s) : s.id < t.nextId := by
  obtain ⟨s', hs', hid, _⟩ := h
  rw [← hid]
  exact t.idsBelow s' hs'

theorem Kept.extend {t u : Tokens} {s : Stored TokenRow} (h : Kept t s) (hext : t.rows <+: u.rows) :
    Kept u s := by
  obtain ⟨s', hs', hkept⟩ := h
  exact ⟨s', hext.subset hs', hkept⟩

theorem Kept.of_mem {t : Tokens} {s : Stored TokenRow} (h : s ∈ t.rows) : Kept t s :=
  ⟨s, h, rfl, rfl, rfl⟩

/-- New pairs are made of rows below them, and no old pair is made of a new one,
so no circle can close. -/
theorem wellFounded_append {base : Nat} {written new : List WrittenPair}
    (hwf : WellFounded (Constituent written))
    (hold : ∀ w ∈ written, w.row.id < base ∧ w.token0.id < base ∧ w.token1.id < base)
    (hnew : ∀ w ∈ new, base ≤ w.row.id ∧ w.token0.id < w.row.id ∧ w.token1.id < w.row.id) :
    WellFounded (Constituent (written ++ new)) := by
  -- below `base` the relation is the old one
  have hback : ∀ a b, b < base → Constituent (written ++ new) a b →
      Constituent written a b ∧ a < base := by
    intro a b hb hab
    obtain ⟨w, hw, hrow, htoken, w', hw', hrow'⟩ := hab
    have hw : w ∈ written := by
      rcases List.mem_append.mp hw with hw | hw
      · exact hw
      · have hge := (hnew w hw).1
        omega
    have ha : a < base := by
      obtain ⟨_, h0, h1⟩ := hold w hw
      rcases htoken with htoken | htoken <;> omega
    have hw' : w' ∈ written := by
      rcases List.mem_append.mp hw' with hw' | hw'
      · exact hw'
      · have hge := (hnew w' hw').1
        omega
    exact ⟨⟨w, hw, hrow, htoken, w', hw', hrow'⟩, ha⟩
  have hlow : ∀ b, b < base → Acc (Constituent (written ++ new)) b := by
    intro b
    induction b using hwf.induction with
    | _ b ih =>
      intro hb
      refine Acc.intro b fun a hab => ?_
      obtain ⟨hab, ha⟩ := hback a b hb hab
      exact ih a hab ha
  refine ⟨fun b => ?_⟩
  induction b using Nat.strong_induction_on with
  | _ b ih =>
    by_cases hb : b < base
    · exact hlow b hb
    · refine Acc.intro b fun a hab => ?_
      obtain ⟨w, hw, hrow, htoken, _⟩ := hab
      have ha : a < b := by
        rcases List.mem_append.mp hw with hw | hw
        · have hlt := (hold w hw).1
          omega
        · obtain ⟨_, h0, h1⟩ := hnew w hw
          rcases htoken with htoken | htoken <;> omega
      exact ih a ha

theorem PairInvariant.record {env : Env} {d : Db Tokens} {written : List WrittenPair}
    (h : PairInvariant d.tables written) :
    PairInvariant (record env (d, written)).1.tables (record env (d, written)).2 := by
  obtain ⟨new, hwritten, hext, _, _, hnew, _⟩ := record_cases env d written
  have hfirst : (TokenInvariant.record env (d, written)).1 = step env d := rfl
  rw [hwritten, hfirst]
  refine ⟨fun w hw => ?_, fun w hw => ?_, fun w hw => ?_, fun w hw => ?_,
    fun a ha b hb => row_unique ha hb, ?_⟩
  · rcases List.mem_append.mp hw with hw | hw
    · exact h.sound w hw
    · exact (hnew w hw).sound
  · rcases List.mem_append.mp hw with hw | hw
    · exact (h.row w hw).extend hext
    · exact .of_mem (hnew w hw).row
  · rcases List.mem_append.mp hw with hw | hw
    · exact (h.token0 w hw).extend hext
    · exact .of_mem (hnew w hw).token0.1
  · rcases List.mem_append.mp hw with hw | hw
    · exact (h.token1 w hw).extend hext
    · exact .of_mem (hnew w hw).token1.1
  · refine wellFounded_append h.wellFounded (fun w hw => ?_)
      (fun w hw => ⟨(hnew w hw).fresh, (hnew w hw).token0.2, (hnew w hw).token1.2⟩)
    exact ⟨(h.row w hw).below, (h.token0 w hw).below, (h.token1 w hw).below⟩

/-- The pairs with an id from `base` on are recorded. -/
def RecordedFrom (base : Nat) (p : Db Tokens × List WrittenPair) : Prop :=
  base ≤ p.1.tables.nextId ∧
    ∀ s ∈ p.1.tables.rows, base ≤ s.id → s.row.type = .MULTI → ∃ w ∈ p.2, w.row = s

theorem RecordedFrom.record {base : Nat} {p : Db Tokens × List WrittenPair}
    (h : RecordedFrom base p) (env : Env) : RecordedFrom base (record env p) := by
  obtain ⟨hbase, hrecorded⟩ := h
  obtain ⟨new, hwritten, _, hids, hsplit, _, hnew⟩ := record_cases env p.1 p.2
  refine ⟨Nat.le_trans hbase hids, fun s hs hid htype => ?_⟩
  have hsecond : (TokenInvariant.record env p).2 = p.2 ++ new := hwritten
  rw [hsecond]
  rcases hsplit s hs with hold | hfresh
  · obtain ⟨w, hw, hws⟩ := hrecorded s hold hid htype
    exact ⟨w, List.mem_append_left _ hw, hws⟩
  · obtain ⟨w, hw, hws⟩ := hnew s hs hfresh htype
    exact ⟨w, List.mem_append_right _ hw, hws⟩

/-- **The invariant over all runs.** From a table and records that satisfy it,
after every sequence of runs the table and the records satisfy it again, and
every pair that the runs have written is recorded. -/
theorem pair_invariant_runs (envs : List Env) {d : Db Tokens} {written : List WrittenPair}
    (h : PairInvariant d.tables written) :
    PairInvariant (runAll step envs d).tables (runAll record envs (d, written)).2 ∧
      ∀ s ∈ (runAll step envs d).tables.rows, d.tables.nextId ≤ s.id → s.row.type = .MULTI →
        ∃ w ∈ (runAll record envs (d, written)).2, w.row = s := by
  have hinv : PairInvariant (runAll record envs (d, written)).1.tables
      (runAll record envs (d, written)).2 :=
    runAll_invariant (fun p : Db Tokens × List WrittenPair => PairInvariant p.1.tables p.2)
      (fun env p _ hp => hp.record) h
  -- at the start there is no row with a later id
  have hstart : RecordedFrom d.tables.nextId (d, written) := by
    refine ⟨Nat.le_refl _, fun s hs hnew => ?_⟩
    have hbelow := d.tables.idsBelow s hs
    omega
  have hcomplete : RecordedFrom d.tables.nextId (runAll record envs (d, written)) :=
    runAll_invariant (RecordedFrom d.tables.nextId) (fun env _ _ hp => hp.record env) hstart
  have hfirst := record_fst envs (d, written)
  rw [hfirst] at hinv
  refine ⟨hinv, ?_⟩
  have hrows := hcomplete.2
  rw [hfirst] at hrows
  exact hrows

/-! ## A factory with one pair -/

def exampleEnv : Env := ⟨.steady [⟨"0xAB", some "0xA", some "0xB", false⟩], .none⟩

def exampleDb : Db Tokens :=
  ⟨some ⟨"EVERY_SECOND", none, none, false, true, true⟩, Table.empty⟩

theorem pairInvariant_empty : PairInvariant (Table.empty : Tokens) [] := by
  refine ⟨by simp, by simp, by simp, by simp, fun a ha => absurd ha (by simp [Table.empty]),
    ⟨fun b => Acc.intro b ?_⟩⟩
  intro a ha
  obtain ⟨w, hw, _⟩ := ha
  cases hw

/-- From an empty table the run writes both tokens and, recorded, the pair. -/
theorem one_pair_invariant :
    PairInvariant (runAll step [exampleEnv] exampleDb).tables
        (runAll record [exampleEnv] (exampleDb, [])).2 ∧
      ((runAll record [exampleEnv] (exampleDb, [])).2.map fun w => (w.token0.id, w.token1.id, w.row.id)) =
        [(0, 1, 2)] :=
  ⟨(pair_invariant_runs [exampleEnv] (d := exampleDb) pairInvariant_empty).1, by decide⟩

end BlockchainTask.SchedulerJob.TokenInvariant

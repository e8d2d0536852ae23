import BlockchainTask.SchedulerJob.PriceRange
import BlockchainTask.SchedulerJob.TokenInvariant

/-! # The token table under all jobs

The pair jobs of all protocols and the price jobs write to one table of tokens, in any
order. A pair job inserts rows, whose prices are the defaults of their columns. A price
job loads tokens once, and writes chunk by chunk while others go on. -/
namespace BlockchainTask.SchedulerJob.TokenTable
open BlockchainTask.Common.Exception BlockchainTask.Helper BlockchainTask.Helper.Decimals
open BlockchainTask.Library.Runs BlockchainTask.Library.Store
open BlockchainTask.Repository.PricedToken BlockchainTask.Repository.Token
open BlockchainTask.SchedulerJob.Base
open BlockchainTask.SchedulerJob.PairEffect (cursor)
open BlockchainTask.SchedulerJob.PairWindows (Env handed handed_eq_window cursor_le_step)
open BlockchainTask.SchedulerJob.PriceRange (InRangeRow Job NonnegPrices inRange_zero loaded
  loadedPair loadedToken nonnegPrices_loaded inRange_applied)
open BlockchainTask.SchedulerJob.PriceRefresh (OnlyPriced applied onlyPriced_applied)
open BlockchainTask.SchedulerJob.TokenInvariant (PairInvariant WrittenPair record record_cases)
open BlockchainTask.SchedulerJob.TokenPrice (PairEntity TokenEntity UpdateParam)

/-! ## One table, seen by both kinds of jobs -/

/-- The columns that the pair jobs know. -/
def tokensOf (t : PricedTokens) : Tokens where
  rows := t.rows.map fun s => ⟨s.id, s.row.token⟩
  nextId := t.nextId
  idsIncrease := by
    rw [List.map_map]
    exact t.idsIncrease
  idsBelow := by
    intro s hs
    obtain ⟨s', hs', rfl⟩ := List.mem_map.mp hs
    exact t.idsBelow s' hs'
  keysDiffer := by
    rw [List.filterMap_map]
    exact t.keysDiffer

/-- A row of the pair jobs, with the other columns as they are or by default. -/
def pricedRow (t : PricedTokens) (s : Stored TokenRow) : Stored PricedRow :=
  ⟨s.id, match t.byId s.id with
    | some old => { old.row with token := s.row }
    | none => ⟨s.row, none, ZERO, ZERO⟩⟩

@[simp] theorem pricedRow_token (t : PricedTokens) (s : Stored TokenRow) :
    (pricedRow t s).row.token = s.row := by
  unfold pricedRow
  simp only
  split <;> rfl

def withTokens (t : PricedTokens) (u : Tokens) : PricedTokens where
  rows := u.rows.map (pricedRow t)
  nextId := u.nextId
  idsIncrease := by
    rw [List.map_map]
    exact u.idsIncrease
  idsBelow := by
    intro s hs
    obtain ⟨s', hs', rfl⟩ := List.mem_map.mp hs
    exact u.idsBelow s' hs'
  keysDiffer := by
    have hkeys : (fun s : Stored PricedRow => s.row.key) ∘ pricedRow t =
        fun s : Stored TokenRow => s.row.key := by
      funext s
      rw [Function.comp, PricedRow.key, pricedRow_token]
    rw [List.filterMap_map, hkeys]
    exact u.keysDiffer

theorem tokensOf_withTokens (t : PricedTokens) (u : Tokens) : tokensOf (withTokens t u) = u := by
  obtain ⟨rows, nextId, _, _, _⟩ := u
  have hrows : (rows.map (pricedRow t)).map (fun s => (⟨s.id, s.row.token⟩ : Stored TokenRow)) =
      rows := by
    rw [List.map_map]
    refine (List.map_congr_left fun s _ => ?_).trans (List.map_id rows)
    rw [Function.comp, pricedRow_token]
    rfl
  simp only [tokensOf, withTokens, hrows]

/-- A row that the pair jobs see is a row of the table. -/
theorem mem_tokensOf {t : PricedTokens} {s : Stored TokenRow} :
    s ∈ (tokensOf t).rows ↔ ∃ row ∈ t.rows, row.id = s.id ∧ row.row.token = s.row := by
  refine List.mem_map.trans (exists_congr fun row => and_congr_right fun _ => ?_)
  constructor
  · intro h
    rw [← h]
    exact ⟨rfl, rfl⟩
  · intro h
    rw [h.1, h.2]

theorem inRange_withTokens {t : PricedTokens} (h : ∀ row ∈ t.rows, InRangeRow row.row)
    (u : Tokens) : ∀ row ∈ (withTokens t u).rows, InRangeRow row.row := by
  intro row hrow
  obtain ⟨s, _, rfl⟩ := List.mem_map.mp hrow
  unfold pricedRow
  simp only
  split
  · rename_i old hold
    have hin := h old (List.mem_of_find?_eq_some hold)
    exact ⟨hin.price_value, hin.total_supply⟩
  · exact ⟨inRange_zero, inRange_zero⟩

/-- The price jobs leave what the pair jobs know. -/
theorem tokensOf_applied (params : List UpdateParam) (t : PricedTokens) :
    tokensOf (applied params t) = tokensOf t := by
  have hids : ∀ params (t : PricedTokens), (applied params t).nextId = t.nextId := by
    intro params
    induction params with
    | nil => exact fun _ => rfl
    | cons param params ih => exact fun t => ih _
  obtain ⟨f, hrows, hf⟩ := onlyPriced_applied params t
  have hsame : (applied params t).rows.map (fun s => (⟨s.id, s.row.token⟩ : Stored TokenRow)) =
      t.rows.map fun s => ⟨s.id, s.row.token⟩ := by
    rw [hrows, List.map_map]
    refine List.map_congr_left fun s _ => ?_
    rw [Function.comp, (hf s).id, (hf s).token]
  simp only [tokensOf, hsame, hids]

/-! ## The jobs -/

/-- The table, the scheduler's row of each pair job, the tokens that the price jobs have
loaded so far, and the records of the pairs that were written. -/
structure World where
  table : PricedTokens
  schedulers : ℕ → Option Scheduler
  tokens : List PairEntity
  written : List WrittenPair

inductive Action where
  /-- A run of the pair job with this number. -/
  | pair (job : ℕ) (env : Env)
  /-- A price job asks for its tokens. -/
  | load (network_status : ℕ → Bool)
  /-- A price job gets to a chunk. -/
  | chunk (job : Job) (targetTokens : List PairEntity)

def World.db (w : World) (job : ℕ) : Db Tokens := ⟨w.schedulers job, tokensOf w.table⟩

def World.ran (w : World) (job : ℕ) (p : Db Tokens × List WrittenPair) : World :=
  { w with
    table := withTokens w.table p.1.tables
    schedulers := Function.update w.schedulers job p.1.scheduler
    written := p.2 }

def step (act : Action) (w : World) : World :=
  match act with
  | .pair job env => w.ran job (record env (w.db job, w.written))
  | .load network_status => { w with tokens := w.tokens ++ loaded network_status w.table }
  | .chunk job targetTokens =>
    match job.crawlTokenSupplyAndPrice w.table targetTokens with
    | .ok params => { w with table := applied params w.table }
    | .error _ => w

/-- A chunk holds tokens that were loaded, however long ago. -/
def Loaded (act : Action) (w : World) : Prop :=
  match act with
  | .chunk _ targetTokens => ∀ token ∈ targetTokens, token ∈ w.tokens
  | _ => True

/-! ## What one step does to the tokens -/

theorem db_ran (w : World) (job : ℕ) (p : Db Tokens × List WrittenPair) :
    (w.ran job p).db job = p.1 := by
  simp only [World.db, World.ran, Function.update_self, tokensOf_withTokens]

theorem db_step_other {act : Action} {job : ℕ} (h : ∀ env, act ≠ .pair job env) (w : World) :
    ((step act w).db job).scheduler = (w.db job).scheduler := by
  cases act with
  | pair other env =>
    have hne : job ≠ other := fun he => h env (he ▸ rfl)
    exact Function.update_of_ne hne _ _
  | load network_status => rfl
  | chunk priceJob targetTokens =>
    unfold step
    simp only
    split <;> rfl

/-- Rows are only added to the tokens, whichever job goes on. -/
theorem tokens_extended (act : Action) (w : World) :
    (tokensOf w.table).rows <+: (tokensOf (step act w).table).rows := by
  cases act with
  | pair job env =>
    obtain ⟨_, _, hext, _⟩ := record_cases env (w.db job) w.written
    have htable : tokensOf (step (.pair job env) w).table =
        (PairWindows.step env (w.db job)).tables := tokensOf_withTokens _ _
    rw [htable]
    exact hext
  | load network_status => exact List.prefix_refl _
  | chunk job targetTokens =>
    unfold step
    simp only
    split
    · rw [tokensOf_applied]
    · exact List.prefix_refl _

/-- The rows stay, but for their prices. -/
theorem row_stays (act : Action) (w : World) {row : Stored PricedRow} (hrow : row ∈ w.table.rows) :
    ∃ row' ∈ (step act w).table.rows, row'.id = row.id ∧ row'.row.token = row.row.token ∧
      row'.row.price_address = row.row.price_address := by
  cases act with
  | pair job env =>
    have hseen : (⟨row.id, row.row.token⟩ : Stored TokenRow) ∈ (tokensOf w.table).rows :=
      mem_tokensOf.mpr ⟨row, hrow, rfl, rfl⟩
    have hmem := (tokens_extended (.pair job env) w).subset hseen
    rw [show tokensOf (step (.pair job env) w).table =
      (record env (w.db job, w.written)).1.tables from tokensOf_withTokens _ _] at hmem
    refine ⟨_, List.mem_map_of_mem hmem, rfl, pricedRow_token _ _, ?_⟩
    rw [pricedRow, Table.byId_of_mem hrow]
  | load network_status => exact ⟨row, hrow, rfl, rfl, rfl⟩
  | chunk job targetTokens =>
    unfold step
    simp only
    split
    · rename_i params _
      obtain ⟨f, hrows, hf⟩ := onlyPriced_applied params w.table
      refine ⟨f row, ?_, (hf row).id, (hf row).token, (hf row).price_address⟩
      rw [hrows]
      exact List.mem_map_of_mem hrow
    · exact ⟨row, hrow, rfl, rfl, rfl⟩

/-! ## The invariant -/

/-- The row that a token was loaded from is still that token's. -/
def Current (t : PricedTokens) (token : TokenEntity) : Prop :=
  ∃ row ∈ t.rows, row.id = token.id ∧ row.row.price_address = token.price_address ∧
    row.row.token.type = token.type ∧ row.row.token.address = token.address ∧
      row.row.token.decimals = token.decimals ∧ row.row.token.status = token.status

structure Sound (w : World) : Prop where
  pairs : PairInvariant (tokensOf w.table) w.written
  prices : ∀ row ∈ w.table.rows, InRangeRow row.row
  constituents : ∀ token ∈ w.tokens, NonnegPrices token
  current : ∀ token ∈ w.tokens, Current w.table token.toTokenEntity

theorem Current.step {w : World} {token : TokenEntity} (h : Current w.table token)
    (act : Action) : Current (step act w).table token := by
  obtain ⟨row, hrow, hid, hfeed, hcolumns⟩ := h
  obtain ⟨row', hrow', hid', htoken, hfeed'⟩ := row_stays act w hrow
  refine ⟨row', hrow', hid'.trans hid, hfeed'.trans hfeed, ?_⟩
  rw [htoken]
  exact hcolumns

theorem current_loaded (network_status : ℕ → Bool) (t : PricedTokens) :
    ∀ token ∈ loaded network_status t, Current t token.toTokenEntity := by
  intro token htoken
  obtain ⟨row, hrow, rfl⟩ := List.mem_map.mp htoken
  exact ⟨row, hrow, rfl, rfl, rfl, rfl, rfl, rfl⟩

theorem Sound.step {act : Action} {w : World} (h : Sound w) (hloaded : Loaded act w) :
    Sound (step act w) := by
  have hcurrent : ∀ token ∈ w.tokens, Current (TokenTable.step act w).table token.toTokenEntity :=
    fun token htoken => (h.current token htoken).step act
  cases act with
  | pair job env =>
    have hpairs : PairInvariant (w.db job).tables w.written := h.pairs
    refine ⟨?_, inRange_withTokens h.prices _, h.constituents, hcurrent⟩
    rw [show tokensOf (TokenTable.step (.pair job env) w).table =
      (record env (w.db job, w.written)).1.tables from tokensOf_withTokens _ _]
    exact hpairs.record
  | load network_status =>
    refine ⟨h.pairs, h.prices, fun token htoken => ?_, fun token htoken => ?_⟩
    · rcases List.mem_append.mp htoken with hold | hnew
      · exact h.constituents token hold
      · exact nonnegPrices_loaded h.prices network_status token hnew
    · rcases List.mem_append.mp htoken with hold | hnew
      · exact h.current token hold
      · exact current_loaded network_status w.table token hnew
  | chunk job targetTokens =>
    unfold TokenTable.step at hcurrent ⊢
    simp only at hcurrent ⊢
    split
    · rename_i params hcrawl
      rw [hcrawl] at hcurrent
      have hsane := PriceRange.job_sane (s := ⟨w.table, w.tokens⟩) ⟨h.prices, h.constituents⟩
        hloaded hcrawl
      refine ⟨?_, inRange_applied hsane h.prices, h.constituents, hcurrent⟩
      show PairInvariant (tokensOf (applied params w.table)) w.written
      rw [tokensOf_applied]
      exact h.pairs
    · exact h

/-! ## All runs -/

/-- The pids that a step handed over for a pair job. -/
def handedBy (job : ℕ) (p : Action × World) : List ℕ :=
  match p.1 with
  | .pair other env => if other = job then handed env (p.2.db job) else []
  | _ => []

theorem window_idle {act : Action} {w : World} {job : ℕ} (h : ∀ env, act ≠ .pair job env) :
    (crossing step (fun w => cursor (w.db job)) act w).window = [] := by
  have hsame : cursor ((step act w).db job) = cursor (w.db job) := by
    rw [cursor, Db.cursor, db_step_other h]
    rfl
  simp only [Crossing.window, crossing, hsame, Nat.sub_self, List.range'_zero]

/-- Only its own runs move the cursor of a job, over what they hand over. -/
theorem handedBy_eq_window (job : ℕ) (act : Action) (w : World) :
    handedBy job (act, w) = (crossing step (fun w => cursor (w.db job)) act w).window := by
  cases act with
  | pair other env =>
    unfold handedBy
    simp only
    by_cases hjob : other = job
    · subst hjob
      have hdb : (step (.pair other env) w).db other = PairWindows.step env (w.db other) :=
        db_ran w other _
      rw [if_pos rfl, handed_eq_window, crossing, crossing, hdb]
      rfl
    · rw [if_neg hjob, window_idle]
      intro env' he
      cases he
      exact hjob rfl
  | load network_status =>
    refine (window_idle fun _ he => ?_).symm
    cases he
  | chunk priceJob targetTokens =>
    refine (window_idle fun _ he => ?_).symm
    cases he

theorem cursor_le (job : ℕ) (act : Action) (w : World) :
    cursor (w.db job) ≤ cursor ((step act w).db job) := by
  by_cases hown : ∃ env, act = .pair job env
  · obtain ⟨env, rfl⟩ := hown
    have hdb : (step (.pair job env) w).db job = PairWindows.step env (w.db job) := db_ran w job _
    rw [hdb]
    exact cursor_le_step env (w.db job)
  · have hsame : ((step act w).db job).scheduler = (w.db job).scheduler :=
      db_step_other (fun env he => hown ⟨env, he⟩) w
    exact Nat.le_of_eq (by rw [cursor, Db.cursor, ← hsame]; rfl)

/-- The pairs with an id from `base` on are recorded. -/
def RecordedFrom (base : ℕ) (w : World) : Prop :=
  TokenInvariant.RecordedFrom base (w.db 0, w.written)

theorem RecordedFrom.step {base : ℕ} {w : World} (h : RecordedFrom base w) (act : Action) :
    RecordedFrom base (step act w) := by
  cases act with
  | pair job env =>
    have hbefore : TokenInvariant.RecordedFrom base (w.db job, w.written) := h
    have hafter := hbefore.record env
    have htables : ((TokenTable.step (.pair job env) w).db 0).tables =
        (record env (w.db job, w.written)).1.tables := tokensOf_withTokens _ _
    unfold RecordedFrom TokenInvariant.RecordedFrom
    rw [htables]
    exact hafter
  | load network_status => exact h
  | chunk job targetTokens =>
    unfold TokenTable.step
    simp only
    split
    · rename_i params _
      have htables : (World.db { w with table := applied params w.table } 0).tables =
          (w.db 0).tables := tokensOf_applied params w.table
      unfold RecordedFrom TokenInvariant.RecordedFrom
      rw [htables]
      exact h
    · exact h

/-- **The token table under all jobs.** However the runs of all pair jobs, the loads of
the price jobs and their chunks follow one another: no row is deleted and no column but
the prices ever changes, the pairs keep their invariant and each written pair is recorded,
the prices stay in range, a chunk writes to the tokens it was loaded for, and the runs of
each pair job hand over the pids that its own cursor passes, each once and in order. -/
theorem token_table_sound (acts : List Action) {w : World} (h : Sound w)
    (hloaded : ∀ p ∈ starts step acts w, Loaded p.1 p.2) :
    Sound (runAll step acts w) ∧
      (tokensOf w.table).rows <+: (tokensOf (runAll step acts w).table).rows ∧
      (∀ s ∈ (tokensOf (runAll step acts w).table).rows, w.table.nextId ≤ s.id →
        s.row.type = .MULTI → ∃ pair ∈ (runAll step acts w).written, pair.row = s) ∧
      ∀ job, (starts step acts w).flatMap (handedBy job) =
        List.range' (cursor (w.db job))
          (cursor ((runAll step acts w).db job) - cursor (w.db job)) := by
  have hstart : RecordedFrom w.table.nextId w := by
    refine ⟨Nat.le_refl _, fun s hs hnew => ?_⟩
    have hbelow := (tokensOf w.table).idsBelow s hs
    have hsame : (tokensOf w.table).nextId = w.table.nextId := rfl
    omega
  have hrecorded : RecordedFrom w.table.nextId (runAll step acts w) :=
    runAll_invariant (RecordedFrom w.table.nextId) (fun act u _ hu => hu.step act) hstart
  refine ⟨?_, ?_, hrecorded.2, fun job => ?_⟩
  · exact runAll_invariant Sound (fun act u hmem hu => hu.step (hloaded (act, u) hmem)) h
  · exact runAll_rel (r := fun u v => (tokensOf u.table).rows <+: (tokensOf v.table).rows)
      (fun u => List.prefix_refl _) (fun _ _ _ => List.IsPrefix.trans)
      fun act u _ => tokens_extended act u
  · have htile : (crossings step (fun u => cursor (u.db job)) acts w).flatMap Crossing.window =
        List.range' (cursor (w.db job))
          (cursor ((runAll step acts w).db job) - cursor (w.db job)) :=
      crossings_tile fun act u _ => cursor_le job act u
    rw [← htile, crossings, List.flatMap_map]
    refine congrArg (fun f => (starts step acts w).flatMap f) (funext fun p => ?_)
    exact handedBy_eq_window job p.1 p.2

/-! ### Two factories and a price job

The second pair has a token of the first one. The chunk is of tokens that were loaded
before it was written. -/

def exampleWorld : World where
  table := Table.empty
  schedulers := fun _ => some ⟨"EVERY_SECOND", none, none, false, true, true⟩
  tokens := []
  written := []

def secondEnv : Env := ⟨.steady [⟨"0xCA", some "0xC", some "0xA", false⟩], .none⟩

def loadedFirst : List PairEntity :=
  loaded (fun _ => true) (step (.pair 0 TokenInvariant.exampleEnv) exampleWorld).table

def exampleActions : List Action :=
  [.pair 0 TokenInvariant.exampleEnv, .load fun _ => true, .pair 1 secondEnv,
    .chunk (.chainLink (fun _ => .ok [1, 1, 1]) fun _ => .ok [⟨5, 1⟩, ⟨7, 1⟩, ⟨9, 1⟩]) loadedFirst]

theorem sound_exampleWorld : Sound exampleWorld where
  pairs := TokenInvariant.pairInvariant_empty
  prices _ hrow := absurd hrow List.not_mem_nil
  constituents _ htoken := absurd htoken List.not_mem_nil
  current _ htoken := absurd htoken List.not_mem_nil

theorem two_factories_sound :
    Sound (runAll step exampleActions exampleWorld) ∧
      (runAll step exampleActions exampleWorld).written.map
        (fun pair => (pair.token0.id, pair.token1.id, pair.row.id)) = [(0, 1, 2), (3, 0, 4)] := by
  have hloaded : ∀ p ∈ starts step exampleActions exampleWorld, Loaded p.1 p.2 := by
    refine List.forall_mem_cons.mpr ⟨trivial, List.forall_mem_cons.mpr ⟨trivial,
      List.forall_mem_cons.mpr ⟨trivial, List.forall_mem_singleton.mpr ?_⟩⟩⟩
    exact fun token htoken => htoken
  exact ⟨(token_table_sound exampleActions sound_exampleWorld hloaded).1, by decide⟩

end BlockchainTask.SchedulerJob.TokenTable

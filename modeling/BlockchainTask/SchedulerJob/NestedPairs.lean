import BlockchainTask.SchedulerJob.MultiTokens
import Mathlib.Data.List.Find

/-! # Nesting of pairs

Which pairs of a chunk are registrable, by the tokens they are made of down to
the registered ones, and on which chunks the two passes register all of them.
-/
namespace BlockchainTask.SchedulerJob.NestedPairs
open BlockchainTask.Helper BlockchainTask.Common.Exception
open BlockchainTask.Library.Effect BlockchainTask.Library.Transaction BlockchainTask.Library.Store
open BlockchainTask.Repository.Token BlockchainTask.SchedulerJob.Base
open BlockchainTask.SchedulerJob.PairTemplate BlockchainTask.SchedulerJob.MultiTokens

/-! ## Registrable pairs -/

/-- The pair of the chunk that an address stands for. -/
def pairOf (pairs : List Deferred) (address : Option String) : Option Deferred :=
  address.bind fun a => pairs.find? fun p => toLowerCase p.address == toLowerCase a

/-- A constituent that a pair can be registered with: a registered active token,
or else a pair of the chunk that is created active, from such constituents. -/
inductive Usable (context : Context) (chunk : Chunk) (t : Tokens) : Option String → Prop
  | registered {a : Option String} (token : Stored TokenRow)
      (found : findOne context.network a t = some token) (active : token.row.status = true) :
      Usable context chunk t a
  | created {a : Option String} (unregistered : findOne context.network a t = none)
      (pair : Deferred) (found : pairOf chunk.pairs a = some pair)
      (active : knownStatus pair.info = true) (valid : Valid chunk.invalid pair)
      (left : Usable context chunk t pair.token0) (right : Usable context chunk t pair.token1) :
      Usable context chunk t a

structure Registrable (context : Context) (chunk : Chunk) (t : Tokens) (pair : Deferred) :
    Prop where
  valid : Valid chunk.invalid pair
  left : Usable context chunk t pair.token0
  right : Usable context chunk t pair.token1

def IsStored (context : Context) (t : Tokens) (pair : Deferred) : Prop :=
  (findOne context.network (some pair.address) t).isSome = true

/-- The call does not throw, and afterwards every registrable pair is stored. -/
def RegistersAll (context : Context) (chunk : Chunk) (s : Session (Db Tokens) LoggerData) : Prop :=
  ∃ s', createMultiTokens context .none chunk.addresses chunk.infos chunk.composed chunk.invalid s =
      (.ok (), s') ∧
    ∀ pair ∈ chunk.pairs, Registrable context chunk s.view.tables pair →
      IsStored context s'.view.tables pair

/-! ## The condition on the chunk -/

section
variable (context : Context) (chunk : Chunk) (t : Tokens) (a : Option String)

/-- Registered and active when the call starts. -/
def ActiveIn : Prop :=
  ∃ token, findOne context.network a t = some token ∧ token.row.status = true

/-- A pair of the chunk that the first pass creates: not invalid, and made of
registered active tokens. -/
def CreatedFirst : Prop :=
  ∃ address, a = some address ∧ ∃ pair ∈ chunk.pairs, sameText pair.address address ∧
    Valid chunk.invalid pair ∧ ActiveIn context t pair.token0 ∧ ActiveIn context t pair.token1

/-- Registered when the call starts, or created by the first pass. -/
def KnownAfterFirst : Prop :=
  (findOne context.network a t).isSome = true ∨ CreatedFirst context chunk t a

/-- The status such a constituent has. -/
def activeAfterFirst : Bool :=
  match findOne context.network a t with
  | some token => token.row.status
  | none =>
    match pairOf chunk.pairs a with
    | some pair => knownStatus pair.info
    | none => false

end

/-- Every pair that the first pass leaves has its first constituent registered
by then, and the second one too unless the first is inactive. -/
def DeferredReady (context : Context) (chunk : Chunk) (t : Tokens) : Prop :=
  ∀ pair ∈ chunk.pairs, IsDeferred context chunk.invalid t pair →
    KnownAfterFirst context chunk t pair.token0 ∧
      (activeAfterFirst context chunk t pair.token0 = true →
        KnownAfterFirst context chunk t pair.token1)

/-! ## The table between the passes -/

variable {context : Context} {chunk : Chunk} {t : Tokens}

theorem findOne_insertAll_of_some {network : Nat} {a : Option String} {token : Stored TokenRow}
    (h : findOne network a t = some token) (rows : List TokenRow) :
    findOne network a (t.insertAll rows) = some token := by
  obtain ⟨address, rfl, hlookup⟩ := Option.bind_eq_some_iff.mp h
  exact Table.lookup_insertAll_of_some hlookup rows

theorem findOne_insertAll_isSome {context : Context} {pair : Deferred} {token0 token1 : Stored TokenRow}
    {rows : List TokenRow} (h : (multiRow context pair token0 token1).kept ∈ rows) :
    (findOne context.network (some pair.address) (t.insertAll rows)).isSome = true :=
  Table.lookup_insertAll_isSome h rfl

/-- The first pass creates a pair exactly when its constituents are registered
and active and none is invalid. -/
theorem firstRow_isSome {pair : Deferred} :
    (firstRow context chunk.invalid t pair).isSome = true ↔
      Valid chunk.invalid pair ∧ ActiveIn context t pair.token0 ∧ ActiveIn context t pair.token1 := by
  constructor
  · intro h
    obtain ⟨row, hrow⟩ := Option.isSome_iff_exists.mp h
    obtain ⟨hvalid, token0, token1, h0, h1, hs0, hs1, _⟩ := firstRow_some.mp hrow
    exact ⟨hvalid, ⟨token0, h0, hs0⟩, ⟨token1, h1, hs1⟩⟩
  · intro h
    obtain ⟨hvalid, ⟨token0, h0, hs0⟩, ⟨token1, h1, hs1⟩⟩ := h
    have hrow := firstRow_some.mpr ⟨hvalid, token0, token1, h0, h1, hs0, hs1, rfl⟩
    rw [hrow]
    rfl

theorem firstRow_key {pair : Deferred} {row : TokenRow}
    (h : firstRow context chunk.invalid t pair = some row) :
    row.key = some (context.network, toLowerCase pair.address) ∧
      row.status = knownStatus pair.info := by
  obtain ⟨_, token0, token1, _, _, _, _, rfl⟩ := firstRow_some.mp h
  exact ⟨rfl, rfl⟩

/-- Whether the first pass creates a pair is decided by what it is made of. -/
theorem firstRow_isSome_congr {p q : Deferred} (h : p.token0 = q.token0 ∧ p.token1 = q.token1) :
    (firstRow context chunk.invalid t p).isSome = (firstRow context chunk.invalid t q).isSome := by
  rw [Bool.eq_iff_iff, firstRow_isSome, firstRow_isSome, Valid, Valid, h.1, h.2]

/-- For an unregistered address, the row after the first pass is that of the
pair it stands for, if the first pass creates one with that address. -/
theorem content_afterFirst (chunk : Chunk) {address : String}
    (hnone : findOne context.network (some address) t = none) :
    (afterFirst context chunk.invalid t chunk.pairs).content (context.network, toLowerCase address) =
      ((pairOf chunk.pairs (some address)).bind (firstRow context chunk.invalid t)).map
        TokenRow.kept := by
  have hlookup : t.lookup (context.network, toLowerCase address) = none := hnone
  rw [afterFirst, Table.content_insertAll_of_none hlookup, List.find?_map, pairOf,
    Option.bind_some]
  congr 1
  change ((chunk.pairs.filterMap (firstRow context chunk.invalid t)).find? fun row =>
    decide (row.key = some (context.network, toLowerCase address))) = _
  rw [List.find?_filterMap]
  have hmatch : ∀ pair, ((firstRow context chunk.invalid t pair).any fun row =>
      decide (row.key = some (context.network, toLowerCase address))) =
        ((toLowerCase pair.address == toLowerCase address) &&
          (firstRow context chunk.invalid t pair).isSome) := by
    intro pair
    cases hrow : firstRow context chunk.invalid t pair with
    | none => simp
    | some row =>
      rw [Option.any_some, (firstRow_key hrow).1, Option.isSome_some, Bool.and_true]
      simp [beq_eq_decide]
  simp only [hmatch]
  cases hfind : chunk.pairs.find? fun p => toLowerCase p.address == toLowerCase address with
  | none =>
    have hno := List.find?_eq_none.mp hfind
    have hnone' : chunk.pairs.find? (fun pair =>
        (toLowerCase pair.address == toLowerCase address) &&
          (firstRow context chunk.invalid t pair).isSome) = none := by
      rw [List.find?_eq_none]
      intro pair hpair hboth
      exact hno pair hpair (Bool.and_eq_true_iff.mp hboth).1
    rw [hnone', Option.bind_none]
  | some q =>
    have hq := List.mem_of_find?_eq_some hfind
    have hqa : toLowerCase q.address = toLowerCase address := by simpa using List.find?_some hfind
    -- a pair of the same address is made of the same tokens as `q`
    have hsame : ∀ pair ∈ chunk.pairs, ((toLowerCase pair.address == toLowerCase address) &&
        (firstRow context chunk.invalid t pair).isSome) =
          ((toLowerCase pair.address == toLowerCase address) &&
            (firstRow context chunk.invalid t q).isSome) := by
      intro pair hpair
      by_cases ha : toLowerCase pair.address = toLowerCase address
      · rw [firstRow_isSome_congr (same_composition hpair hq (ha.trans hqa.symm))]
      · rw [beq_eq_false_iff_ne.mpr ha]
        rfl
    rw [List.find?_congr hsame, Option.bind_some]
    cases hrow : firstRow context chunk.invalid t q with
    | none =>
      rw [List.find?_eq_none.mpr (by simp)]
      rfl
    | some row =>
      simp only [Option.isSome_some, Bool.and_true, hfind]
      exact hrow

theorem pairOf_some {pair : Deferred} {address : String}
    (h : pairOf chunk.pairs (some address) = some pair) :
    pair ∈ chunk.pairs ∧ sameText pair.address address :=
  ⟨List.mem_of_find?_eq_some h, beq_iff_eq.mp (List.find?_some h :)⟩

theorem createdFirst_iff {address : String} :
    CreatedFirst context chunk t (some address) ↔
      ∃ pair row, pairOf chunk.pairs (some address) = some pair ∧
        firstRow context chunk.invalid t pair = some row := by
  constructor
  · intro hcreated
    obtain ⟨address', heq, pair, hpair, ha, hcreated⟩ := hcreated
    cases heq
    have hsome : (pairOf chunk.pairs (some address)).isSome = true :=
      List.find?_isSome.mpr ⟨pair, hpair, beq_iff_eq.mpr ha⟩
    obtain ⟨q, hq⟩ := Option.isSome_iff_exists.mp hsome
    obtain ⟨hmem, hqa⟩ := pairOf_some hq
    have hrow := firstRow_isSome.mpr hcreated
    rw [firstRow_isSome_congr (same_composition hpair hmem (Eq.trans ha (Eq.symm hqa)))] at hrow
    obtain ⟨row, hrow⟩ := Option.isSome_iff_exists.mp hrow
    exact ⟨q, row, hq, hrow⟩
  · intro h
    obtain ⟨pair, row, hpair, hrow⟩ := h
    obtain ⟨hmem, ha⟩ := pairOf_some hpair
    exact ⟨address, rfl, pair, hmem, ha, firstRow_isSome.mp (by rw [hrow]; rfl)⟩

/-- After the first pass, a constituent that is known is there, with the status
it is known by. -/
theorem findOne_afterFirst {a : Option String} (h : KnownAfterFirst context chunk t a) :
    ∃ token, findOne context.network a (afterFirst context chunk.invalid t chunk.pairs) =
        some token ∧ token.row.status = activeAfterFirst context chunk t a := by
  cases hfound : findOne context.network a t with
  | some token =>
    refine ⟨token, findOne_insertAll_of_some hfound _, ?_⟩
    simp only [activeAfterFirst, hfound]
  | none =>
    rcases h with hsome | hcreated
    · rw [hfound] at hsome
      cases hsome
    · obtain ⟨address, rfl, _⟩ := id hcreated
      obtain ⟨pair, row, hpair, hrow⟩ := createdFirst_iff.mp hcreated
      have hcontent := content_afterFirst chunk hfound
      rw [hpair, Option.bind_some, hrow] at hcontent
      obtain ⟨token, htoken, hkept⟩ := Option.map_eq_some_iff.mp hcontent
      refine ⟨token, htoken, (congrArg TokenRow.status hkept).trans ?_⟩
      rw [TokenRow.kept_status, (firstRow_key hrow).2]
      simp only [activeAfterFirst, hfound, hpair]

theorem known_of_findOne_afterFirst {a : Option String} {token : Stored TokenRow}
    (h : findOne context.network a (afterFirst context chunk.invalid t chunk.pairs) = some token) :
    KnownAfterFirst context chunk t a := by
  obtain ⟨address, rfl, hlookup⟩ := Option.bind_eq_some_iff.mp h
  cases hfound : findOne context.network (some address) t with
  | some token => exact Or.inl (by rw [hfound]; rfl)
  | none =>
    have hcontent := content_afterFirst chunk hfound
    rw [Table.content, hlookup, Option.map_some] at hcontent
    obtain ⟨row, hmade, _⟩ := Option.map_eq_some_iff.mp hcontent.symm
    obtain ⟨pair, hpair, hrow⟩ := Option.bind_eq_some_iff.mp hmade
    exact Or.inr (createdFirst_iff.mpr ⟨pair, row, hpair, hrow⟩)

/-- A usable constituent that is known after the first pass is active. -/
theorem Usable.active {a : Option String} (h : Usable context chunk t a) :
    activeAfterFirst context chunk t a = true := by
  cases h with
  | registered token found active => simpa only [activeAfterFirst, found] using active
  | created unregistered pair found active _ _ _ =>
    simpa only [activeAfterFirst, unregistered, found] using active

/-! ## The condition -/

/-- A deferred pair passes the second pass exactly when it is ready. -/
theorem secondRow_ok_iff_ready {pair : Deferred} :
    (∃ row, secondRow context (afterFirst context chunk.invalid t chunk.pairs) pair = .ok row) ↔
      KnownAfterFirst context chunk t pair.token0 ∧
        (activeAfterFirst context chunk t pair.token0 = true →
          KnownAfterFirst context chunk t pair.token1) := by
  rw [secondRow_ok_iff]
  constructor
  · intro h
    obtain ⟨token0, h0, h1⟩ := h
    have hknown := known_of_findOne_afterFirst h0
    obtain ⟨token, htoken, hstatus⟩ := findOne_afterFirst hknown
    rw [h0, Option.some.injEq] at htoken
    refine ⟨hknown, fun hactive => ?_⟩
    obtain ⟨token1, h1⟩ := Option.isSome_iff_exists.mp (h1 (by rw [htoken, hstatus, hactive]))
    exact known_of_findOne_afterFirst h1
  · intro hknown
    obtain ⟨hknown0, hknown1⟩ := hknown
    obtain ⟨token0, h0, hstatus⟩ := findOne_afterFirst hknown0
    refine ⟨token0, h0, fun hactive => ?_⟩
    obtain ⟨token1, h1, _⟩ := findOne_afterFirst (hknown1 (hstatus.symm.trans hactive))
    rw [h1]
    rfl

/-- A deferred pair that is ready and registrable is pushed by the second pass. -/
theorem secondRow_of_registrable {pair : Deferred}
    (hready : KnownAfterFirst context chunk t pair.token0 ∧
      (activeAfterFirst context chunk t pair.token0 = true →
        KnownAfterFirst context chunk t pair.token1))
    (h : Registrable context chunk t pair) :
    ∃ token0 token1,
      secondRow context (afterFirst context chunk.invalid t chunk.pairs) pair =
        .ok (some (multiRow context pair token0 token1)) := by
  obtain ⟨token0, h0, hs0⟩ := findOne_afterFirst hready.1
  obtain ⟨token1, h1, hs1⟩ := findOne_afterFirst (hready.2 h.left.active)
  rw [h.left.active] at hs0
  rw [h.right.active] at hs1
  exact ⟨token0, token1, by simp only [secondRow, h0, h1, hs0, hs1, Bool.not_true]; rfl⟩

/-- A registrable pair that the first pass does not leave has active registered
constituents, so it is created there. -/
theorem firstRow_of_registrable {pair : Deferred} (h : Registrable context chunk t pair)
    (hleft : ¬ IsDeferred context chunk.invalid t pair) :
    ∃ row, firstRow context chunk.invalid t pair = some row := by
  have hfound : ∀ a, Usable context chunk t a → findOne context.network a t ≠ none →
      ActiveIn context t a := by
    intro a husable hsome
    cases husable with
    | registered token found active => exact ⟨token, found, active⟩
    | created unregistered => exact absurd unregistered hsome
  rw [IsDeferred, not_and_or, not_or] at hleft
  rcases hleft with hinvalid | ⟨h0, h1⟩
  · exact absurd h.valid hinvalid
  · exact Option.isSome_iff_exists.mp
      (firstRow_isSome.mpr ⟨h.valid, hfound _ h.left h0, hfound _ h.right h1⟩)

/-- The call registers every registrable pair of a chunk, without throwing,
exactly when every info can be read and every pair its first pass leaves is ready. -/
theorem registersAll_iff_deferredReady (s : Session (Db Tokens) LoggerData)
    (hactive : s.isTransactionActive = true) :
    RegistersAll context chunk s ↔
      chunk.Readable ∧ DeferredReady context chunk s.view.tables := by
  constructor
  · intro h
    obtain ⟨s', hrun, _⟩ := h
    have hreadable : chunk.Readable := by
      by_contra hunreadable
      obtain ⟨e, hfail⟩ : ∃ e, createMultiTokens context .none chunk.addresses chunk.infos
          chunk.composed chunk.invalid s = (.error e, s) :=
        createMultiTokens_unreadable hunreadable s
      rw [hfail] at hrun
      cases hrun
    refine ⟨hreadable, fun pair hpair hleft => ?_⟩
    by_contra hnot
    rw [← secondRow_ok_iff_ready] at hnot
    cases hrow : secondRow context
        (afterFirst context chunk.invalid s.view.tables chunk.pairs) pair with
    | ok row => exact hnot ⟨row, hrow⟩
    | error e =>
      obtain ⟨e', s'', hfail⟩ := createMultiTokens_error hreadable hactive hpair hleft hrow
      rw [hfail] at hrun
      cases hrun
  · intro ⟨hreadable, hready⟩
    obtain ⟨s', later, hrun, htable, hlater⟩ := createMultiTokens_ok hreadable hactive
      fun pair hpair hleft => secondRow_ok_iff_ready.mpr (hready pair hpair hleft)
    refine ⟨s', hrun, fun pair hpair hregistrable => ?_⟩
    rw [IsStored, htable]
    by_cases hleft : IsDeferred context chunk.invalid s.view.tables pair
    · obtain ⟨token0, token1, hrow⟩ :=
        secondRow_of_registrable (hready pair hpair hleft) hregistrable
      exact findOne_insertAll_isSome (hlater pair hpair hleft _ hrow)
    · obtain ⟨row, hrow⟩ := firstRow_of_registrable hregistrable hleft
      obtain ⟨_, token0, token1, _, _, _, _, rfl⟩ := firstRow_some.mp hrow
      have hstored : (findOne context.network (some pair.address)
          (afterFirst context chunk.invalid s.view.tables chunk.pairs)).isSome = true :=
        findOne_insertAll_isSome
          (List.mem_map_of_mem (List.mem_filterMap.mpr ⟨pair, hpair, hrow⟩))
      obtain ⟨token, htoken⟩ := Option.isSome_iff_exists.mp hstored
      rw [findOne_insertAll_of_some htoken]
      rfl

/-! ## Pairs nested one and two deep -/

/-- A session in the middle of a run, on a table where `0xA` and `0xB` are
registered and active. -/
def exampleSession : Session (Db Tokens) LoggerData :=
  let token (address : String) : TokenRow :=
    ⟨1, .SINGLE, address, address, address, 18, none, none, true⟩
  ⟨⟨none, Table.empty.insertAll [token "0xA", token "0xB"]⟩, some ⟨true, false, some id⟩, 1, .empty⟩

def once : PairInfo := ⟨"0x1", some "0xA", some "0xB", false⟩
def twice : PairInfo := ⟨"0x2", some "0x1", some "0xA", false⟩
def thrice : PairInfo := ⟨"0x3", some "0x2", some "0xA", false⟩

/-- The pair that a composition reports, on infos that are known. -/
def known (info : PairInfo) : Deferred := ⟨info.pair, ⟨"LP", "LP", 18⟩, info.token0, info.token1⟩

def twoDeep : Chunk where
  addresses := ["0x1", "0x2"]
  infos := [.ok ⟨"LP", "LP", 18⟩, .ok ⟨"LP", "LP", 18⟩]
  composed := [once, twice]
  invalid := []
  infos_length := rfl
  reported := by decide
  written := by decide

def threeDeep : Chunk where
  addresses := ["0x1", "0x2", "0x3"]
  infos := [.ok ⟨"LP", "LP", 18⟩, .ok ⟨"LP", "LP", 18⟩, .ok ⟨"LP", "LP", 18⟩]
  composed := [once, twice, thrice]
  invalid := []
  infos_length := rfl
  reported := by decide
  written := by decide

theorem exampleSession_active {address : String} (h : address = "0xA" ∨ address = "0xB") :
    ActiveIn (.steady []) exampleSession.view.tables (some address) := by
  rcases h with rfl | rfl
  · exact ⟨⟨0, ⟨1, .SINGLE, "0xA", "0xA", "0xA", 18, none, none, true⟩⟩, by decide, rfl⟩
  · exact ⟨⟨1, ⟨1, .SINGLE, "0xB", "0xB", "0xB", 18, none, none, true⟩⟩, by decide, rfl⟩

theorem twoDeep_readable : twoDeep.Readable := by
  intro entry hentry
  rcases List.mem_pair.mp hentry with rfl | rfl
  · exact ⟨_, rfl⟩
  · exact ⟨_, rfl⟩

/-- A pair of a pair of registered tokens is registered with it. -/
theorem two_deep_registered : RegistersAll (.steady []) twoDeep exampleSession := by
  refine (registersAll_iff_deferredReady exampleSession rfl).mpr
    ⟨twoDeep_readable, fun pair hpair hleft => ?_⟩
  have hpairs : twoDeep.pairs = [known once, known twice] := by decide
  rw [hpairs] at hpair
  rcases List.mem_pair.mp hpair with rfl | rfl
  · rcases hleft.2 with h | h <;> exact absurd h (by decide)
  · have hcreated : CreatedFirst (.steady []) twoDeep exampleSession.view.tables (some "0x1") := by
      refine ⟨"0x1", rfl, known once, by rw [hpairs]; exact List.mem_cons_self, rfl, by decide, ?_, ?_⟩
      · exact exampleSession_active (Or.inl rfl)
      · exact exampleSession_active (Or.inr rfl)
    exact ⟨Or.inr hcreated, fun _ => Or.inl (by decide)⟩

/-- One level more, and the call throws, although every pair is registrable. -/
theorem three_deep_not_registered :
    (∀ pair ∈ threeDeep.pairs,
      Registrable (.steady []) threeDeep exampleSession.view.tables pair) ∧
      ¬ RegistersAll (.steady []) threeDeep exampleSession := by
  have hpairs : threeDeep.pairs = [known once, known twice, known thrice] := by decide
  have hregistered : ∀ address, address = "0xA" ∨ address = "0xB" →
      Usable (.steady []) threeDeep exampleSession.view.tables (some address) := by
    intro address haddress
    obtain ⟨token, hfound, hactive⟩ := exampleSession_active haddress
    exact .registered token hfound hactive
  have hone : Usable (.steady []) threeDeep exampleSession.view.tables (some "0x1") :=
    .created (by decide) (known once) (by rw [hpairs]; decide) (by decide) (by decide)
      (hregistered _ (Or.inl rfl)) (hregistered _ (Or.inr rfl))
  have htwo : Usable (.steady []) threeDeep exampleSession.view.tables (some "0x2") :=
    .created (by decide) (known twice) (by rw [hpairs]; decide) (by decide) (by decide)
      hone (hregistered _ (Or.inl rfl))
  refine ⟨fun pair hpair => ?_, fun ⟨s', hrun, _⟩ => ?_⟩
  · rw [hpairs] at hpair
    simp only [List.mem_cons, List.not_mem_nil, or_false] at hpair
    rcases hpair with rfl | rfl | rfl
    · exact ⟨by decide, hregistered _ (Or.inl rfl), hregistered _ (Or.inr rfl)⟩
    · exact ⟨by decide, hone, hregistered _ (Or.inl rfl)⟩
    · exact ⟨by decide, htwo, hregistered _ (Or.inl rfl)⟩
  · have hthrows : (createMultiTokens (.steady []) .none threeDeep.addresses threeDeep.infos
        threeDeep.composed threeDeep.invalid exampleSession).1 = .error typeError := rfl
    rw [hrun] at hthrows
    cases hthrows

end BlockchainTask.SchedulerJob.NestedPairs

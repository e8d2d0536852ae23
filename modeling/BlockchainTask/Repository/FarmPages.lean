import BlockchainTask.Library.Effect
import BlockchainTask.Repository.FarmSearch
import Mathlib.Tactic.Linarith

/-! # Pages of farms

What a page of the farm search should be, by the search without pages: the farms at
its places, whole, and every farm on one page. Since the rows are cut before they
are folded this holds of a page exactly when the rows fall that way, and of
consecutive pages exactly when no farm has rows on two of them. -/
namespace BlockchainTask.Repository.FarmPages
open BlockchainTask.Common.Exception BlockchainTask.Library.Distinct
open BlockchainTask.Library.FoldedRows BlockchainTask.Repository.FarmSearch

variable {db : Database} {query : FarmSearchQuery} {rows : List Row} {k l : ℕ}

/-! ## The search without pages -/

def unpaged : RequestWithPagination := transform ⟨none, none⟩

def paged (page limit : ℤ) : RequestWithPagination := transform ⟨some page, some limit⟩

/-- The conditions on a farm: on itself, and on a token of either kind. -/
def Matches (db : Database) (query : FarmSearchQuery) (farm : Farm) : Prop :=
  farmWhere query farm = true ∧
    (∃ stake ∈ farm.stake_tokens, stakeWhere db query (some stake) = true) ∧
      ∃ reward ∈ farm.reward_tokens, rewardWhere db query (some reward) = true

/-- An item has all of a farm, and of its tokens those that match. -/
structure Complete (db : Database) (query : FarmSearchQuery) (farm : Farm) (item : FarmItem) :
    Prop where
  id : item.id = farm.id
  name : item.name = farm.name
  address : item.address = farm.address
  pid : item.pid = farm.pid
  assets : item.assets = farm.assets
  protocol : item.protocol = farm.protocol
  stake_tokens : item.stake_tokens.Perm
    (farm.stake_tokens.filter fun stake => stakeWhere db query (some stake))
  reward_tokens : item.reward_tokens.Perm
    (farm.reward_tokens.filter fun reward => rewardWhere db query (some reward))

theorem mem_leftJoin {α : Type} {joined : List α} {x : α} : some x ∈ leftJoin joined ↔ x ∈ joined := by
  cases joined with
  | nil => simp [leftJoin]
  | cons y ys => simp [leftJoin]

/-- A row that is found is one of a farm, with a matching token of either kind. -/
theorem mem_searchQueryBuilder {row : Row} : row ∈ searchQueryBuilder db query ↔
    row.farm ∈ db.farms ∧ farmWhere query row.farm = true ∧
      (∃ stake ∈ row.farm.stake_tokens, row.stake_tokens = some stake ∧
        stakeWhere db query (some stake) = true) ∧
      ∃ reward ∈ row.farm.reward_tokens, row.reward_tokens = some reward ∧
        rewardWhere db query (some reward) = true := by
  obtain ⟨farm, stake, reward⟩ := row
  rw [searchQueryBuilder, (db.arrange_perm _ _).mem_iff, List.mem_filter, List.mem_flatMap]
  simp only [Bool.and_eq_true]
  constructor
  · rintro ⟨⟨farm', hfarm, hrow⟩, ⟨hwhere, hstake⟩, hreward⟩
    obtain ⟨stake', hstakeMem, hrow⟩ := List.mem_flatMap.mp hrow
    obtain ⟨reward', hrewardMem, hrow⟩ := List.mem_map.mp hrow
    cases hrow
    cases stake with
    | none => cases hstake
    | some stake =>
      cases reward with
      | none => cases hreward
      | some reward =>
        exact ⟨hfarm, hwhere, ⟨stake, mem_leftJoin.mp hstakeMem, rfl, hstake⟩,
          reward, mem_leftJoin.mp hrewardMem, rfl, hreward⟩
  · rintro ⟨hfarm, hwhere, ⟨stake', hstakeMem, hstake, hstakeWhere⟩,
      reward', hrewardMem, hreward, hrewardWhere⟩
    cases hstake
    cases hreward
    refine ⟨⟨farm, hfarm, List.mem_flatMap.mpr ⟨_, mem_leftJoin.mpr hstakeMem, ?_⟩⟩,
      ⟨hwhere, hstakeWhere⟩, hrewardWhere⟩
    exact List.mem_map.mpr ⟨_, mem_leftJoin.mpr hrewardMem, rfl⟩

theorem farm_eq_of_id {farm other : Farm} (hfarm : farm ∈ db.farms) (hother : other ∈ db.farms)
    (h : farm.id = other.id) : farm = other :=
  List.inj_on_of_nodup_map db.distinct hfarm hother h

/-- The tokens that some rows tell of, by what they are. -/
theorem tokens_perm {tokens wanted : List Token} (hwanted : (wanted.map Token.id).Nodup)
    (h : ∀ token, token ∈ tokens ↔ token ∈ wanted) : (distinctOn Token.id tokens).Perm wanted := by
  have hdistinct : ((distinctOn Token.id tokens).map Token.id).Nodup := nodup_map_distinctOn tokens
  refine (List.perm_ext_iff_of_nodup hdistinct.of_map hwanted.of_map).mpr fun token => ?_
  constructor
  · intro hmem
    exact (h token).mp (mem_of_mem_distinctOn hmem)
  · intro hmem
    have hshown : token.id ∈ (distinctOn Token.id tokens).map Token.id :=
      mem_map_distinctOn.mpr (List.mem_map_of_mem ((h token).mpr hmem))
    obtain ⟨other, hother, hid⟩ := List.mem_map.mp hshown
    have hsame : other = token := List.inj_on_of_nodup_map hwanted
      ((h other).mp (mem_of_mem_distinctOn hother)) hmem hid
    exact hsame ▸ hother

/-- The rows of a farm that is found. -/
theorem mem_group {first row : Row} (hfirst : first ∈ searchQueryBuilder db query) :
    row ∈ groupOf farmId (searchQueryBuilder db query) (farmId first) ↔
      row ∈ searchQueryBuilder db query ∧ row.farm = first.farm := by
  rw [groupOf, List.mem_filter, decide_eq_true_eq]
  refine and_congr_right fun hrow => ⟨fun hid => ?_, fun he => congrArg Farm.id he⟩
  exact farm_eq_of_id (mem_searchQueryBuilder.mp hrow).1 (mem_searchQueryBuilder.mp hfirst).1 hid

/-- The rows of a farm tell of each stake token that matches, next to any reward
token that does. -/
theorem stake_tokens_told {first : Row} (hfirst : first ∈ searchQueryBuilder db query)
    (token : Token) :
    token ∈ (groupOf farmId (searchQueryBuilder db query) (farmId first)).filterMap
        Row.stake_tokens ↔
      token ∈ first.farm.stake_tokens ∧ stakeWhere db query (some token) = true := by
  rw [List.mem_filterMap]
  constructor
  · rintro ⟨row, hrow, htoken⟩
    obtain ⟨hrow, hsame⟩ := (mem_group hfirst).mp hrow
    obtain ⟨_, _, ⟨shown, hshown, hcolumn, hmatches⟩, _⟩ := mem_searchQueryBuilder.mp hrow
    obtain rfl : shown = token := Option.some.inj (hcolumn.symm.trans htoken)
    exact ⟨hsame ▸ hshown, hmatches⟩
  · rintro ⟨htoken, hmatches⟩
    obtain ⟨hfarm, hwhere, _, reward, hreward, _, hrewardWhere⟩ := mem_searchQueryBuilder.mp hfirst
    refine ⟨⟨first.farm, some token, some reward⟩, (mem_group hfirst).mpr ⟨?_, rfl⟩, rfl⟩
    exact mem_searchQueryBuilder.mpr ⟨hfarm, hwhere, ⟨token, htoken, rfl, hmatches⟩,
      reward, hreward, rfl, hrewardWhere⟩

theorem reward_tokens_told {first : Row} (hfirst : first ∈ searchQueryBuilder db query)
    (token : Token) :
    token ∈ (groupOf farmId (searchQueryBuilder db query) (farmId first)).filterMap
        Row.reward_tokens ↔
      token ∈ first.farm.reward_tokens ∧ rewardWhere db query (some token) = true := by
  rw [List.mem_filterMap]
  constructor
  · rintro ⟨row, hrow, htoken⟩
    obtain ⟨hrow, hsame⟩ := (mem_group hfirst).mp hrow
    obtain ⟨_, _, _, shown, hshown, hcolumn, hmatches⟩ := mem_searchQueryBuilder.mp hrow
    obtain rfl : shown = token := Option.some.inj (hcolumn.symm.trans htoken)
    exact ⟨hsame ▸ hshown, hmatches⟩
  · rintro ⟨htoken, hmatches⟩
    obtain ⟨hfarm, hwhere, ⟨stake, hstake, _, hstakeWhere⟩, _⟩ := mem_searchQueryBuilder.mp hfirst
    refine ⟨⟨first.farm, some stake, some token⟩, (mem_group hfirst).mpr ⟨?_, rfl⟩, rfl⟩
    exact mem_searchQueryBuilder.mpr ⟨hfarm, hwhere, ⟨stake, hstake, rfl, hstakeWhere⟩,
      token, htoken, rfl, hmatches⟩

/-- An item out of all rows of a farm has all of it. -/
theorem itemOf_complete {first : Row} (hfirst : first ∈ searchQueryBuilder db query) :
    Complete db query first.farm
      (itemOf first (groupOf farmId (searchQueryBuilder db query) (farmId first))) := by
  refine ⟨rfl, rfl, rfl, rfl, rfl, rfl, ?_, ?_⟩
  · refine tokens_perm (first.farm.stake_distinct.sublist (List.filter_sublist.map _)) ?_
    intro token
    rw [stake_tokens_told hfirst, List.mem_filter]
  · refine tokens_perm (first.farm.reward_distinct.sublist (List.filter_sublist.map _)) ?_
    intro token
    rw [reward_tokens_told hfirst, List.mem_filter]

theorem getMany_ids (rows : List Row) :
    (getMany rows).map FarmItem.id = (distinctOn farmId rows).map farmId := by
  rw [getMany, fold, List.map_map]
  rfl

/-- Without pages every farm that matches is listed once, with all of its tokens that
match. -/
structure ListsAll (db : Database) (query : FarmSearchQuery) (whole : List FarmItem) : Prop where
  once : (whole.map FarmItem.id).Nodup
  found : ∀ farm ∈ db.farms, Matches db query farm ↔ farm.id ∈ whole.map FarmItem.id
  complete : ∀ item ∈ whole, ∃ farm ∈ db.farms, Complete db query farm item

theorem getMany_listsAll (db : Database) (query : FarmSearchQuery) :
    ListsAll db query (getMany (searchQueryBuilder db query)) := by
  refine ⟨?_, fun farm hfarm => ?_, fun item hitem => ?_⟩
  · rw [getMany_ids]
    exact nodup_map_distinctOn _
  · rw [getMany_ids, mem_map_distinctOn, List.mem_map]
    constructor
    · rintro ⟨hwhere, ⟨stake, hstake, hstakeWhere⟩, reward, hreward, hrewardWhere⟩
      refine ⟨⟨farm, some stake, some reward⟩, mem_searchQueryBuilder.mpr ?_, rfl⟩
      exact ⟨hfarm, hwhere, ⟨stake, hstake, rfl, hstakeWhere⟩, reward, hreward, rfl, hrewardWhere⟩
    · rintro ⟨row, hrow, hid⟩
      obtain ⟨hmem, hwhere, ⟨stake, hstake, _, hstakeWhere⟩, reward, hreward, _, hrewardWhere⟩ :=
        mem_searchQueryBuilder.mp hrow
      have hsame : row.farm = farm := farm_eq_of_id hmem hfarm hid
      rw [hsame] at hwhere hstake hreward
      exact ⟨hwhere, ⟨stake, hstake, hstakeWhere⟩, reward, hreward, hrewardWhere⟩
  · obtain ⟨first, hfirst, rfl⟩ := List.mem_map.mp hitem
    have hrow := mem_of_mem_distinctOn hfirst
    exact ⟨first.farm, (mem_searchQueryBuilder.mp hrow).1, itemOf_complete hrow⟩

/-! ## A page -/

/-- The rows that a page leaves out before it. -/
def skipped (page limit : ℤ) : ℕ := ((minPage page - 1) * betweenLimits limit).toNat

def pageSize (limit : ℤ) : ℕ := (betweenLimits limit).toNat

theorem one_le_betweenLimits (limit : ℤ) : 1 ≤ betweenLimits limit := by
  unfold betweenLimits
  split
  · omega
  · split <;> omega

theorem pageSize_pos (limit : ℤ) : 0 < pageSize limit := by
  have hlimit := one_le_betweenLimits limit
  unfold pageSize
  omega

theorem truthy_zero : truthy (some 0) = none := rfl

theorem truthy_of_ne {n : ℤ} (h : n ≠ 0) : truthy (some n) = some n.toNat := by
  simp [truthy, Option.filter, h]

/-- A list of no addresses makes the database refuse the statement. -/
theorem not_search_of_empty (h : query.addresses = some []) (params : RequestWithPagination)
    (items : List FarmItem) : search db query params ≠ .ok items := by
  intro hsearch
  unfold search checkSyntax at hsearch
  rw [if_pos h] at hsearch
  cases hsearch

theorem search_unpaged (h : query.addresses ≠ some []) :
    search db query unpaged = .ok (getMany (searchQueryBuilder db query)) := by
  unfold search checkSyntax
  rw [if_neg h]
  rfl

/-- The offset and the limit of a page apply to the rows. -/
theorem search_paged (h : query.addresses ≠ some []) (page limit : ℤ) :
    search db query (paged page limit) =
      .ok (getMany (Library.FoldedRows.page (skipped page limit) (pageSize limit)
        (searchQueryBuilder db query))) := by
  have hlimit : truthy (some (betweenLimits limit)) = some (pageSize limit) := by
    have hpos := one_le_betweenLimits limit
    exact truthy_of_ne (by omega)
  show search db query ⟨some (minPage page), some (betweenLimits limit),
    some ((minPage page - 1) * betweenLimits limit)⟩ = _
  unfold search checkSyntax skipped
  rw [if_neg h]
  simp only [hlimit]
  by_cases hzero : (minPage page - 1) * betweenLimits limit = 0
  · rw [hzero, truthy_zero]
    rfl
  · rw [truthy_of_ne hzero]
    rfl

/-- Without a limit there are no pages. -/
theorem pageOf_unlimited {α : Type} (page : Option ℤ) (rows : List α) :
    pageOf (transform ⟨page, none⟩) rows = .ok rows := by
  cases page <;> rfl

/-- The page is the first one if there is only a limit. -/
theorem pageOf_limited {α : Type} (page : Option ℤ) (limit : ℤ) (rows : List α) :
    pageOf (transform ⟨page, some limit⟩) rows = .ok (Library.FoldedRows.page
      ((page.map fun page => skipped page limit).getD 0) (pageSize limit) rows) := by
  have hlimit : truthy (some (betweenLimits limit)) = some (pageSize limit) := by
    have hpos := one_le_betweenLimits limit
    exact truthy_of_ne (by omega)
  unfold pageOf
  rw [show (transform ⟨page, some limit⟩).limit = some (betweenLimits limit) from rfl, hlimit]
  cases page with
  | none => rfl
  | some page =>
    rw [show (transform ⟨some page, some limit⟩).skipItems =
      some ((minPage page - 1) * betweenLimits limit) from rfl, Option.map_some, Option.getD_some,
      skipped]
    by_cases hzero : (minPage page - 1) * betweenLimits limit = 0
    · rw [hzero, truthy_zero]
      rfl
    · rw [truthy_of_ne hzero]
      rfl

/-- A page is that of the search without pages. -/
def PageRight (db : Database) (query : FarmSearchQuery) (page limit : ℤ) : Prop :=
  ∃ whole part, search db query unpaged = .ok whole ∧ ListsAll db query whole ∧
    search db query (paged page limit) = .ok part ∧
      part = Library.FoldedRows.page (skipped page limit) (pageSize limit) whole

/-- All tokens of the farms on a page are told by its own rows. -/
def Whole (rows : List Row) (k l : ℕ) (column : Row → Option Token) : Prop :=
  ∀ later ∈ rows.drop (k + l), farmId later ∈ (page k l rows).map farmId →
    ∀ token, column later = some token → ∃ shown ∈ page k l rows, farmId shown = farmId later ∧
      (column shown).map Token.id = some token.id

/-- The rows of a query fall on a page as its farms should: those before it are of
different farms that have no row on it, its farms are whole, and there are as many
as fit, or no new farm comes behind it. -/
structure PageFits (rows : List Row) (k l : ℕ) : Prop where
  heads : Heads farmId rows k l
  stake : Whole rows k l Row.stake_tokens
  reward : Whole rows k l Row.reward_tokens

theorem groupOf_behind (hapart : ∀ row ∈ rows.take k, farmId row ∉ (page k l rows).map farmId)
    {x : ℕ} (hx : x ∈ (page k l rows).map farmId) :
    groupOf farmId rows x =
      groupOf farmId (page k l rows) x ++ groupOf farmId (rows.drop (k + l)) x := by
  have hbefore : groupOf farmId (rows.take k) x = [] := by
    refine List.filter_eq_nil_iff.mpr fun row hrow => ?_
    simpa using fun he : farmId row = x => hapart row hrow (he ▸ hx)
  calc groupOf farmId rows x
      = groupOf farmId (rows.take k ++ (page k l rows ++ rows.drop (k + l))) x := by rw [parts]
    _ = groupOf farmId (page k l rows) x ++ groupOf farmId (rows.drop (k + l)) x := by
      rw [groupOf, List.filter_append, List.filter_append]
      show groupOf farmId (rows.take k) x ++ _ = _
      rw [hbefore]
      rfl

/-- Rows that follow add no token exactly when theirs are there. -/
theorem tokens_same_iff {shown later : List Token} :
    distinctOn Token.id (shown ++ later) = distinctOn Token.id shown ↔
      ∀ token ∈ later, token.id ∈ shown.map Token.id := by
  rw [distinctOn_append, List.append_right_eq_self, distinctOn_eq_nil_iff, List.filter_eq_nil_iff]
  simp only [decide_eq_true_eq, not_not]

/-- The tokens of one farm on a page are all of them when its rows behind the page tell
of no others. -/
theorem farm_column_same_iff (column : Row → Option Token)
    (hapart : ∀ row ∈ rows.take k, farmId row ∉ (page k l rows).map farmId) {first : Row}
    (hfirst : first ∈ distinctOn farmId (page k l rows)) :
    distinctOn Token.id ((groupOf farmId (page k l rows) (farmId first)).filterMap column) =
        distinctOn Token.id ((groupOf farmId rows (farmId first)).filterMap column) ↔
      ∀ later ∈ rows.drop (k + l), farmId later = farmId first → ∀ token,
        column later = some token → ∃ shown ∈ page k l rows, farmId shown = farmId later ∧
          (column shown).map Token.id = some token.id := by
  rw [groupOf_behind hapart (List.mem_map_of_mem (mem_of_mem_distinctOn hfirst)),
    List.filterMap_append, eq_comm, tokens_same_iff]
  simp only [List.mem_filterMap, groupOf, List.mem_filter, decide_eq_true_eq, List.mem_map,
    Option.map_eq_some_iff]
  constructor
  · intro h later hlater hid token htoken
    obtain ⟨other, ⟨shown, ⟨hshown, hfarm⟩, hcolumn⟩, he⟩ := h token ⟨later, ⟨hlater, hid⟩, htoken⟩
    exact ⟨shown, hshown, hfarm.trans hid.symm, other, hcolumn, he⟩
  · rintro h token ⟨later, ⟨hlater, hid⟩, htoken⟩
    obtain ⟨shown, hshown, hfarm, other, hcolumn, he⟩ := h later hlater hid token htoken
    exact ⟨other, ⟨shown, ⟨hshown, hfarm.trans hid⟩, hcolumn⟩, he⟩

theorem column_same_iff (column : Row → Option Token)
    (hapart : ∀ row ∈ rows.take k, farmId row ∉ (page k l rows).map farmId) :
    (∀ first ∈ distinctOn farmId (page k l rows),
      distinctOn Token.id ((groupOf farmId (page k l rows) (farmId first)).filterMap column) =
        distinctOn Token.id ((groupOf farmId rows (farmId first)).filterMap column)) ↔
      Whole rows k l column := by
  constructor
  · intro h later hlater hpage
    obtain ⟨first, hfirst, hid⟩ := List.mem_map.mp (mem_map_distinctOn.mpr hpage)
    exact (farm_column_same_iff column hapart hfirst).mp (h first hfirst) later hlater hid.symm
  · intro h first hfirst
    refine (farm_column_same_iff column hapart hfirst).mpr fun later hlater hid => ?_
    exact h later hlater (hid ▸ List.mem_map_of_mem (mem_of_mem_distinctOn hfirst))

theorem getMany_page_iff (rows : List Row) (hl : 0 < l) :
    getMany (page k l rows) = page k l (getMany rows) ↔ rows.length ≤ k ∨ PageFits rows k l := by
  have hkey : ∀ (first : Row) (group : List Row), (itemOf first group).id = farmId first :=
    fun _ _ => rfl
  rw [getMany, getMany, fold_page_iff FarmItem.id hkey rows hl]
  refine or_congr_right ?_
  constructor
  · rintro ⟨hheads, hsame⟩
    refine ⟨hheads, (column_same_iff _ hheads.apart).mp ?_, (column_same_iff _ hheads.apart).mp ?_⟩
    · exact fun first hfirst => congrArg FarmItem.stake_tokens (hsame first hfirst)
    · exact fun first hfirst => congrArg FarmItem.reward_tokens (hsame first hfirst)
  · intro h
    refine ⟨h.heads, fun first hfirst => ?_⟩
    have hstake := (column_same_iff _ h.heads.apart).mpr h.stake first hfirst
    have hreward := (column_same_iff _ h.heads.apart).mpr h.reward first hfirst
    rw [itemOf, itemOf, hstake, hreward]

theorem pageRight_iff (db : Database) (query : FarmSearchQuery) (page limit : ℤ) :
    PageRight db query page limit ↔ query.addresses ≠ some [] ∧
      ((searchQueryBuilder db query).length ≤ skipped page limit ∨
        PageFits (searchQueryBuilder db query) (skipped page limit) (pageSize limit)) := by
  rw [← getMany_page_iff _ (pageSize_pos limit)]
  constructor
  · rintro ⟨whole, part, hwhole, _, hpart, heq⟩
    have hwritten : query.addresses ≠ some [] :=
      fun hempty => not_search_of_empty hempty unpaged whole hwhole
    rw [search_unpaged hwritten] at hwhole
    rw [search_paged hwritten] at hpart
    obtain rfl := Except.ok.inj hwhole
    exact ⟨hwritten, (Except.ok.inj hpart).trans heq⟩
  · rintro ⟨hwritten, h⟩
    exact ⟨_, _, search_unpaged hwritten, getMany_listsAll db query,
      search_paged hwritten page limit, h⟩

/-! ## Consecutive pages -/

/-- Pages that reach to the last row list every farm once. -/
def PagesOnce (db : Database) (query : FarmSearchQuery) (limit : ℤ) : Prop :=
  ∀ pages : ℕ, (searchQueryBuilder db query).length ≤ pages * pageSize limit →
    ∃ whole parts, search db query unpaged = .ok whole ∧
      (List.range pages).mapM (fun i : ℕ => search db query (paged (i + 1) limit)) = .ok parts ∧
        (parts.flatten.map FarmItem.id).Perm (whole.map FarmItem.id)

theorem skipped_succ (i : ℕ) (limit : ℤ) : skipped (i + 1) limit = i * pageSize limit := by
  have hpage : minPage ((i : ℤ) + 1) = i + 1 := if_neg (by omega)
  have hlimit := one_le_betweenLimits limit
  rw [skipped, pageSize, hpage, add_sub_cancel_right, Int.toNat_mul (by omega) (by omega),
    Int.toNat_natCast]

/-- What the first pages list. -/
theorem run_pages (h : query.addresses ≠ some []) (limit : ℤ) (pages : ℕ) :
    (List.range pages).mapM (fun i : ℕ => search db query (paged (i + 1) limit)) =
      .ok ((List.range pages).map fun i => getMany (page (i * pageSize limit) (pageSize limit)
        (searchQueryBuilder db query))) := by
  refine Library.Effect.Eff.except_mapM_of_ok fun i _ => ?_
  rw [search_paged h, skipped_succ]

theorem ids_pages (rows : List Row) (l pages : ℕ) :
    ((List.range pages).map fun i => getMany (page (i * l) l rows)).flatten.map FarmItem.id =
      pagesKeys farmId l pages rows := by
  rw [← List.flatMap_def, List.map_flatMap]
  simp only [getMany_ids]
  rfl

theorem pages_perm_iff (rows : List Row) (hl : 0 < l) {pages : ℕ}
    (hpages : rows.length ≤ pages * l) :
    (((List.range pages).map fun i => getMany (page (i * l) l rows)).flatten.map
        FarmItem.id).Perm ((getMany rows).map FarmItem.id) ↔ OnOnePage farmId l rows := by
  rw [ids_pages, getMany_ids]
  exact pagesKeys_perm_iff hl hpages

theorem pagesOnce_iff (db : Database) (query : FarmSearchQuery) (limit : ℤ) :
    PagesOnce db query limit ↔ query.addresses ≠ some [] ∧
      OnOnePage farmId (pageSize limit) (searchQueryBuilder db query) := by
  constructor
  · intro h
    -- as many pages as there are rows
    have hreach : (searchQueryBuilder db query).length ≤
        (searchQueryBuilder db query).length * pageSize limit :=
      Nat.le_mul_of_pos_right _ (pageSize_pos limit)
    obtain ⟨whole, parts, hwhole, hrun, hlisted⟩ := h _ hreach
    have hwritten : query.addresses ≠ some [] :=
      fun hempty => not_search_of_empty hempty unpaged whole hwhole
    rw [search_unpaged hwritten] at hwhole
    obtain rfl := Except.ok.inj hwhole
    obtain rfl := Except.ok.inj ((run_pages hwritten limit _).symm.trans hrun)
    exact ⟨hwritten, (pages_perm_iff _ (pageSize_pos limit) hreach).mp hlisted⟩
  · rintro ⟨hwritten, h⟩ pages hpages
    exact ⟨_, _, search_unpaged hwritten, run_pages hwritten limit pages,
      (pages_perm_iff _ (pageSize_pos limit) hpages).mpr h⟩

/-- For every farm table, every search, every page and every limit: the page is that
of the search without pages, which lists every farm once and whole, exactly when the
database runs the statement and the page lies behind all rows or the rows fall on it
as the farms should; and consecutive pages list every farm once exactly when it does
and no farm has rows on two of them. -/
theorem farm_pages_iff (db : Database) (query : FarmSearchQuery) (page limit : ℤ) :
    (PageRight db query page limit ↔ query.addresses ≠ some [] ∧
      ((searchQueryBuilder db query).length ≤ skipped page limit ∨
        PageFits (searchQueryBuilder db query) (skipped page limit) (pageSize limit))) ∧
    (PagesOnce db query limit ↔ query.addresses ≠ some [] ∧
      OnOnePage farmId (pageSize limit) (searchQueryBuilder db query)) :=
  ⟨pageRight_iff db query page limit, pagesOnce_iff db query limit⟩

/-! ## A farm with three reward tokens -/

def cake : Token :=
  ⟨1, .SINGLE, "PancakeSwap", "CAKE", "0x0E09FaBB73Bd3Ade0a17ECC321fD13a19e81cE82", 18, true⟩

def wbnb : Token :=
  ⟨2, .SINGLE, "Wrapped BNB", "WBNB", "0xbb4CdB9CBd36B01bD1cBaEBF2De08d9173bc095c", 18, true⟩

def busd : Token :=
  ⟨3, .SINGLE, "BUSD Token", "BUSD", "0xe9e7CEA3DedcA5984780Bafc599bD69ADd087D56", 18, true⟩

def exampleProtocol : Protocol := ⟨1, "pancakeSwap", true, true⟩

def manyRewards : Farm where
  id := 1
  protocol := exampleProtocol
  name := "farm"
  address := none
  pid := some 0
  assets := "CAKE"
  status := true
  stake_tokens := [cake]
  reward_tokens := [cake, wbnb, busd]
  stake_distinct := by decide
  reward_distinct := by decide

def oneReward : Farm where
  id := 2
  protocol := exampleProtocol
  name := "farm"
  address := none
  pid := some 1
  assets := "CAKE"
  status := true
  stake_tokens := [cake]
  reward_tokens := [cake]
  stake_distinct := by decide
  reward_distinct := by decide

def exampleDatabase : Database where
  farms := [manyRewards, oneReward]
  distinct := by decide
  like symbol pattern := "%" ++ symbol ++ "%" == pattern
  arrange _ rows := rows
  arrange_perm _ _ := .rfl

/-- A first page of two has only the first farm, without its last token; the second
page has that farm again. -/
theorem manyRewards_cut :
    ¬ PageRight exampleDatabase {} 1 2 ∧ ¬ PagesOnce exampleDatabase {} 2 := by
  constructor
  · rintro ⟨whole, part, hwhole, _, hpart, heq⟩
    obtain rfl := Except.ok.inj hwhole
    obtain rfl := Except.ok.inj hpart
    revert heq
    decide
  · intro h
    have hfirst : 0 / pageSize 2 = 2 / pageSize 2 :=
      ((pagesOnce_iff exampleDatabase {} 2).mp h).2 0 2 _ _ rfl rfl rfl
    revert hfirst
    decide

end BlockchainTask.Repository.FarmPages

import BlockchainTask.Repository.Farm

/-! # The lending table

A row is a market of a lending protocol under the token it lends. A row of Venus
has no pid, so the unique index, which has the pid in it, never refuses one. -/
namespace BlockchainTask.Repository.Lending
open BlockchainTask.Common.Exception BlockchainTask.Helper
open BlockchainTask.Library.Decimal BlockchainTask.Library.Store
open BlockchainTask.Repository.Farm

structure LendingToken where
  id : ℕ
  address : String
  decimals : ℕ
  price_value : ℚ
  status : Bool
  network : ℕ

/-- `findToken` by network and address, among the active tokens. -/
def findToken (tokens : List LendingToken) (network : ℕ) (address : String) : Option LendingToken :=
  tokens.find? fun t => t.network == network && decide (sameText t.address address) && t.status

structure LendingRow where
  protocol : ℕ
  token : ℕ
  address : Option String
  pid : Option ℕ
  liquidity_amount : Number
  liquidity_value : Number
  supply_amount : Number
  supply_value : Number
  supply_apr : Option Number
  borrow_amount : Number
  borrow_value : Number
  borrow_apr : Option Number
  reserve_amount : Number
  reserve_value : Number
  collateral_factor : Option Number
  reserve_factor : Option Number
  status : Bool
  deriving DecidableEq

abbrev LendingKey : Type := ℕ × String × ℕ

/-- The unique index `['protocol', 'address', 'pid']`. -/
def LendingRow.key (r : LendingRow) : Option LendingKey :=
  match r.address, r.pid with
  | some address, some pid => some (r.protocol, toLowerCase address, pid)
  | _, _ => none

abbrev Lendings : Type := Table LendingRow LendingKey LendingRow.key

/-- What the job searches and updates a lending by. -/
structure LendingWhere where
  protocol : ℕ
  token : ℕ
  address : String

def hasAddress (address : String) (r : LendingRow) : Bool :=
  match r.address with
  | some a => decide (sameText a address)
  | none => false

def LendingWhere.holds (w : LendingWhere) (r : LendingRow) : Bool :=
  r.protocol == w.protocol && r.token == w.token && hasAddress w.address r

def findOne (w : LendingWhere) (t : Lendings) : Option (Stored LendingRow) := t.first w.holds

/-- A row as it is inserted, with the defaults of the columns not given. -/
def LendingRow.new (w : LendingWhere) : LendingRow where
  protocol := w.protocol
  token := w.token
  address := some w.address
  pid := none
  liquidity_amount := .finite 0
  liquidity_value := .finite 0
  supply_amount := .finite 0
  supply_value := .finite 0
  supply_apr := none
  borrow_amount := .finite 0
  borrow_value := .finite 0
  borrow_apr := none
  reserve_amount := .finite 0
  reserve_value := .finite 0
  collateral_factor := none
  reserve_factor := none
  status := true

/-- `toCheckSum`, before an insert: only an address that is missing is given to
`getAddress`, which rejects it. -/
def checkInsert (r : LendingRow) : Option Thrown :=
  if r.address.getD "" = "" then some (rawError "invalid address") else none

/-- Why the database does not insert a row: its own check, or the unique index. -/
def insertRefused (r : LendingRow) (t : Lendings) : Option Thrown :=
  (checkInsert r).or (if t.conflicts r then some (rawError "ER_DUP_ENTRY") else none)

/-- A set of columns other than those of a search. -/
structure LendingSet where
  apply : LendingRow → LendingRow
  protocol : ∀ r, (apply r).protocol = r.protocol
  token : ∀ r, (apply r).token = r.token
  address : ∀ r, (apply r).address = r.address
  pid : ∀ r, (apply r).pid = r.pid

theorem LendingSet.key (set : LendingSet) (r : LendingRow) : (set.apply r).key = r.key := by
  rw [LendingRow.key, LendingRow.key, set.address, set.pid, set.protocol]

def LendingSet.disabled : LendingSet :=
  ⟨fun r => { r with status := false }, fun _ => rfl, fun _ => rfl, fun _ => rfl, fun _ => rfl⟩

/-- The range of a `decimal(65,22)` column: 43 digits before the point. -/
def fitsDecimal : Number → Bool
  | .finite q => decide (-10 ^ 43 < q ∧ q < 10 ^ 43)
  | _ => false

def LendingRow.fits (r : LendingRow) : Bool :=
  [r.liquidity_amount, r.liquidity_value, r.supply_amount, r.supply_value, r.borrow_amount,
    r.borrow_value, r.reserve_amount, r.reserve_value].all fitsDecimal

/-- All rows that the search finds. -/
def updateOne (w : LendingWhere) (set : LendingSet) (t : Lendings) : Lendings :=
  t.updateWhere w.holds set.apply set.key

/-- Why the database does not update the rows: a number that is out of the range of
its column. -/
def updateRefused (w : LendingWhere) (set : LendingSet) (t : Lendings) : Option Thrown :=
  if t.contents.any fun r => w.holds r && !(set.apply r).fits then
    some (rawError "ER_WARN_DATA_OUT_OF_RANGE")
  else none

/-! ## The rows of a market -/

/-- The rows of an address, whatever their token. -/
def rowsOf (protocol : ℕ) (address : String) (t : Lendings) : List LendingRow :=
  t.contents.filter fun r => r.protocol == protocol && hasAddress address r

/-- An update of one search, on the rows of its market. -/
def updated (token : ℕ) (set : LendingSet) (rows : List LendingRow) : List LendingRow :=
  rows.map fun r => if r.token == token then set.apply r else r

theorem sameText_of_hasAddress {a b : String} {r : LendingRow} (ha : hasAddress a r = true)
    (hb : hasAddress b r = true) : sameText a b := by
  unfold hasAddress at ha hb
  cases hr : r.address with
  | none => simp [hr] at ha
  | some c =>
    simp only [hr] at ha hb
    exact (of_decide_eq_true ha).symm.trans (of_decide_eq_true hb)

theorem holds_eq (w : LendingWhere) (r : LendingRow) :
    w.holds r = (r.token == w.token && (r.protocol == w.protocol && hasAddress w.address r)) := by
  rw [LendingWhere.holds, Bool.and_left_comm, Bool.and_assoc]

/-- The search finds a row exactly if one of the market's rows has its token. -/
theorem findOne_isSome {w : LendingWhere} {t : Lendings} :
    (findOne w t).isSome = true ↔ ∃ r ∈ rowsOf w.protocol w.address t, r.token = w.token := by
  rw [findOne, Table.first_isSome]
  constructor
  · intro h
    obtain ⟨r, hr, hholds⟩ := h
    rw [holds_eq, Bool.and_eq_true, beq_iff_eq] at hholds
    exact ⟨r, List.mem_filter.mpr ⟨hr, hholds.2⟩, hholds.1⟩
  · intro h
    obtain ⟨r, hr, htoken⟩ := h
    obtain ⟨hmem, hmarket⟩ := List.mem_filter.mp hr
    refine ⟨r, hmem, ?_⟩
    rw [holds_eq, Bool.and_eq_true, beq_iff_eq]
    exact ⟨htoken, hmarket⟩

theorem marketOf_apply (set : LendingSet) (protocol : ℕ) (address : String) (r : LendingRow) :
    ((set.apply r).protocol == protocol && hasAddress address (set.apply r)) =
      (r.protocol == protocol && hasAddress address r) := by
  rw [hasAddress, hasAddress, set.protocol, set.address]

theorem holds_apply (w : LendingWhere) (set : LendingSet) (r : LendingRow) :
    w.holds (set.apply r) = w.holds r := by
  rw [holds_eq, holds_eq, marketOf_apply, set.token]

/-- The search finds the same rows after an update, each as the update makes it. -/
theorem forall_updateOne_iff {w : LendingWhere} {set : LendingSet} {t : Lendings}
    {P : LendingRow → Prop} :
    (∀ r ∈ (updateOne w set t).contents, w.holds r = true → P r) ↔
      ∀ r ∈ t.contents, w.holds r = true → P (set.apply r) := by
  rw [updateOne, Table.contents_updateWhere, List.forall_mem_map]
  refine forall_congr' fun r => forall_congr' fun _ => ?_
  by_cases hholds : w.holds r = true
  · rw [if_pos hholds, holds_apply]
  · rw [if_neg hholds]
    exact ⟨fun _ h => absurd h hholds, fun _ h => absurd h hholds⟩

theorem updateRefused_eq_none_iff {w : LendingWhere} {set : LendingSet} {t : Lendings} :
    updateRefused w set t = none ↔
      ∀ r ∈ t.contents, w.holds r = true → (set.apply r).fits = true := by
  simp [updateRefused]

/-- An update leaves the rows of the market where they are. -/
theorem rowsOf_updateOne (w : LendingWhere) (set : LendingSet) (protocol : ℕ) (address : String)
    (t : Lendings) :
    rowsOf protocol address (updateOne w set t) =
      (rowsOf protocol address t).map fun r => if w.holds r then set.apply r else r := by
  have hsame : ∀ r, ((if w.holds r then set.apply r else r).protocol == protocol &&
      hasAddress address (if w.holds r then set.apply r else r)) =
        (r.protocol == protocol && hasAddress address r) := by
    intro r
    split
    · exact marketOf_apply set protocol address r
    · rfl
  simp only [rowsOf, updateOne, Table.contents_updateWhere, List.filter_map, Function.comp_def, hsame]

theorem rowsOf_updateOne_own (w : LendingWhere) (set : LendingSet) (t : Lendings) :
    rowsOf w.protocol w.address (updateOne w set t) =
      updated w.token set (rowsOf w.protocol w.address t) := by
  rw [rowsOf_updateOne]
  refine List.map_congr_left fun r hr => ?_
  rw [holds_eq, (List.mem_filter.mp hr).2, Bool.and_true]

theorem rowsOf_updateOne_other (w : LendingWhere) (set : LendingSet) {address : String}
    (h : ¬ sameText address w.address) (protocol : ℕ) (t : Lendings) :
    rowsOf protocol address (updateOne w set t) = rowsOf protocol address t := by
  rw [rowsOf_updateOne]
  refine (List.map_congr_left fun r hr => ?_).trans (List.map_id _)
  have hmarket := (List.mem_filter.mp hr).2
  rw [Bool.and_eq_true] at hmarket
  by_cases hholds : w.holds r = true
  · rw [holds_eq, Bool.and_eq_true, Bool.and_eq_true] at hholds
    exact absurd (sameText_of_hasAddress hmarket.2 hholds.2.2) h
  · rw [if_neg hholds, id_eq]

theorem hasAddress_new (w : LendingWhere) (address : String) :
    hasAddress address (.new w) = decide (sameText w.address address) := rfl

theorem rowsOf_insert_own {w : LendingWhere} {t : Lendings}
    (h : t.conflicts (LendingRow.new w) = false) :
    rowsOf w.protocol w.address (t.insertIgnore (.new w)) =
      rowsOf w.protocol w.address t ++ [.new w] := by
  have hown : ((LendingRow.new w).protocol == w.protocol &&
      hasAddress w.address (.new w)) = true := by
    rw [hasAddress_new, Bool.and_eq_true]
    exact ⟨beq_iff_eq.mpr rfl, decide_eq_true rfl⟩
  rw [rowsOf, rowsOf, Table.contents_insertIgnore h, List.filter_append]
  simp only [List.filter_cons, hown, if_true, List.filter_nil]

theorem rowsOf_insert_other {w : LendingWhere} {t : Lendings} {address : String}
    (h : t.conflicts (LendingRow.new w) = false) (hother : ¬ sameText address w.address)
    (protocol : ℕ) :
    rowsOf protocol address (t.insertIgnore (.new w)) = rowsOf protocol address t := by
  have hnot : ¬ sameText w.address address := fun hs => hother hs.symm
  rw [rowsOf, rowsOf, Table.contents_insertIgnore h, List.filter_append]
  simp [hasAddress_new, hnot]

/-- A row without a pid is in no conflict. -/
theorem conflicts_new (w : LendingWhere) (t : Lendings) :
    t.conflicts (LendingRow.new w) = false := rfl

end BlockchainTask.Repository.Lending

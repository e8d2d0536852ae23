import BlockchainTask.Common.Exception
import BlockchainTask.Helper
import BlockchainTask.Library.Decimal
import BlockchainTask.Library.Store

/-! # The farm table

A row holds what the farm jobs read and write of a farm. The tokens of a row are
relations, kept by id; the jobs never write a token. -/
namespace BlockchainTask.Repository.Farm
open BlockchainTask.Common.Exception BlockchainTask.Helper
open BlockchainTask.Library.Decimal BlockchainTask.Library.Store

/-- A token, with the columns of its network that it is found by. -/
structure FarmToken where
  id : ℕ
  symbol : String
  address : String
  decimals : ℕ
  price_value : ℚ
  status : Bool
  chain_id : ℕ
  network_status : Bool

/-- `findToken` by address, among the active tokens of an active network. -/
def findToken (tokens : List FarmToken) (chain_id : ℕ) (address : String) : Option FarmToken :=
  tokens.find? fun t =>
    decide (sameText t.address address) && t.status && t.chain_id == chain_id && t.network_status

structure FarmRow where
  protocol : ℕ
  name : String
  address : Option String
  pid : Option ℕ
  assets : String
  stake_tokens : List ℕ
  reward_tokens : List ℕ
  liquidity_amount : Number
  liquidity_value : Number
  apr : Option Number
  status : Bool
  data : Option String := none
  deriving DecidableEq

abbrev FarmKey : Type := ℕ × String × ℕ

/-- The unique index `['protocol', 'address', 'pid']`. -/
def FarmRow.key (r : FarmRow) : Option FarmKey :=
  match r.address, r.pid with
  | some address, some pid => some (r.protocol, toLowerCase address, pid)
  | _, _ => none

abbrev Farms : Type := Table FarmRow FarmKey FarmRow.key

/-- What the jobs search a farm by. -/
structure FarmWhere where
  protocol : ℕ
  name : String
  address : String
  pid : ℕ

def FarmWhere.key (w : FarmWhere) : FarmKey := (w.protocol, toLowerCase w.address, w.pid)

def findOne (w : FarmWhere) (t : Farms) : Option (Stored FarmRow) :=
  (t.lookup w.key).filter fun s => decide (sameText s.row.name w.name)

/-- The rows that a relation points to. -/
def relation (tokens : List FarmToken) (ids : List ℕ) : List FarmToken :=
  ids.filterMap fun id => tokens.find? fun t => t.id == id

/-- A row as it is inserted, with the defaults of the columns not given. -/
def FarmRow.new (w : FarmWhere) (assets : String) (stake_tokens reward_tokens : List FarmToken) :
    FarmRow where
  protocol := w.protocol
  name := w.name
  address := some w.address
  pid := some w.pid
  assets := assets
  stake_tokens := stake_tokens.map FarmToken.id
  reward_tokens := reward_tokens.map FarmToken.id
  liquidity_amount := .finite 0
  liquidity_value := .finite 0
  apr := none
  status := true

/-- `toCheckSum`, before an insert: only an address that is missing is given to
`getAddress`, which rejects it. -/
def checkInsert (r : FarmRow) : Option Thrown :=
  if r.address.getD "" = "" then some (rawError "invalid address") else none

/-- Why the database does not insert a row: its own check, or the unique index. -/
def insertRefused (r : FarmRow) (t : Farms) : Option Thrown :=
  (checkInsert r).or (if t.conflicts r then some (rawError "ER_DUP_ENTRY") else none)

/-- A `decimal` column of scale 22. -/
def decimalColumn (value : Number) : Number := value.rounded 22

/-- A set of columns outside the unique index. -/
structure FarmSet where
  apply : FarmRow → FarmRow
  keepsKey : ∀ r, (apply r).key = r.key

def FarmSet.disabled : FarmSet := ⟨fun r => { r with status := false }, fun _ => rfl⟩

def FarmSet.refreshed (liquidity_amount liquidity_value apr : Number) : FarmSet where
  apply r :=
    { r with
      liquidity_amount := decimalColumn liquidity_amount
      liquidity_value := decimalColumn liquidity_value
      apr := some apr
      status := true }
  keepsKey _ := rfl

/-- A set of columns, and the `data` of the farm with them. -/
def FarmSet.withData (data : String) (set : FarmSet) : FarmSet where
  apply r := { set.apply r with data := some data }
  keepsKey := set.keepsKey

def updateOne (id : ℕ) (set : FarmSet) (t : Farms) : Farms := t.updateId id set.apply set.keepsKey

/-- A search that may leave the address out. -/
structure FarmSearch where
  protocol : ℕ
  name : String
  address : Option String
  pid : ℕ

def FarmSearch.hasAddress (w : FarmSearch) (address : Option String) : Bool :=
  match w.address, address with
  | none, _ => true
  | some a, some b => decide (sameText b a)
  | some _, none => false

def FarmSearch.holds (w : FarmSearch) (r : FarmRow) : Bool :=
  r.protocol == w.protocol && decide (sameText r.name w.name) && w.hasAddress r.address &&
    r.pid == some w.pid

def FarmWhere.search (w : FarmWhere) : FarmSearch := ⟨w.protocol, w.name, some w.address, w.pid⟩

/-- `findOne` by the columns of a search. -/
def findFirst (w : FarmSearch) (t : Farms) : Option (Stored FarmRow) := t.first w.holds

/-! ## By content -/

/-- The search, on the row of the key alone. -/
def found (name : String) (row : Option FarmRow) : Option FarmRow :=
  row.filter fun r => decide (sameText r.name name)

theorem findOne_content (w : FarmWhere) (t : Farms) :
    (findOne w t).map Stored.row = found w.name (t.content w.key) := by
  unfold findOne found Table.content
  cases t.lookup w.key with
  | none => rfl
  | some s => by_cases h : sameText s.row.name w.name <;> simp [Option.filter, h]

theorem findOne_some {w : FarmWhere} {t : Farms} {s : Stored FarmRow} (h : findOne w t = some s) :
    t.lookup w.key = some s := (Option.filter_eq_some_iff.mp h).1

@[simp] theorem key_new (w : FarmWhere) (assets : String) (stake reward : List FarmToken) :
    (FarmRow.new w assets stake reward).key = some w.key := rfl

/-- The refusal of a row for the searched key depends on the row of that key
alone. -/
def newRefused (address : String) (row : Option FarmRow) : Option Thrown :=
  if address = "" then some (rawError "invalid address")
  else if row.isSome then some (rawError "ER_DUP_ENTRY") else none

theorem insertRefused_new (w : FarmWhere) (assets : String) (stake reward : List FarmToken)
    (t : Farms) :
    insertRefused (FarmRow.new w assets stake reward) t = newRefused w.address (t.content w.key) := by
  have hconflict : t.conflicts (FarmRow.new w assets stake reward) = (t.content w.key).isSome := by
    simp [Table.conflicts, Table.content]
  unfold insertRefused newRefused checkInsert
  rw [hconflict]
  by_cases h : w.address = "" <;> simp [FarmRow.new, h]

theorem newRefused_none {address : String} {row : Option FarmRow}
    (h : newRefused address row = none) : address ≠ "" ∧ row = none := by
  unfold newRefused at h
  split at h
  · cases h
  · rename_i haddress
    split at h
    · cases h
    · rename_i hrow
      exact ⟨haddress, Option.not_isSome_iff_eq_none.mp hrow⟩

theorem onlyAt_create {w : FarmWhere} {assets : String} {stake reward : List FarmToken} {t : Farms}
    (h : newRefused w.address (t.content w.key) = none) :
    Table.OnlyAt w.key (some (FarmRow.new w assets stake reward)) t
      (t.insertIgnore (FarmRow.new w assets stake reward)) :=
  Table.OnlyAt.insertIgnore (key_new w assets stake reward) (newRefused_none h).2

theorem onlyAt_update {w : FarmWhere} {t : Farms} {s : Stored FarmRow} (h : findOne w t = some s)
    (set : FarmSet) : Table.OnlyAt w.key (some (set.apply s.row)) t (updateOne s.id set t) :=
  Table.OnlyAt.updateId (findOne_some h) set.apply set.keepsKey

/-! ## By a search -/

theorem holds_search {w : FarmWhere} {r : FarmRow} :
    w.search.holds r = true ↔ r.key = some w.key ∧ sameText r.name w.name := by
  unfold FarmSearch.holds FarmRow.key
  cases haddress : r.address with
  | none => simp [FarmWhere.search, FarmSearch.hasAddress]
  | some address =>
    cases hpid : r.pid with
    | none => simp [FarmWhere.search, FarmSearch.hasAddress]
    | some pid =>
      simp only [FarmWhere.search, FarmSearch.hasAddress, FarmWhere.key, Bool.and_eq_true,
        beq_iff_eq, Option.some.injEq, Prod.mk.injEq]
      constructor
      · intro h
        obtain ⟨⟨⟨hprotocol, hname⟩, haddress⟩, hpid⟩ := h
        exact ⟨⟨hprotocol, of_decide_eq_true haddress, hpid⟩, of_decide_eq_true hname⟩
      · intro h
        obtain ⟨⟨hprotocol, haddress, hpid⟩, hname⟩ := h
        exact ⟨⟨⟨hprotocol, decide_eq_true hname⟩, decide_eq_true haddress⟩, hpid⟩

/-- With all columns given, the search is the one by the unique key. -/
theorem findOne_eq_findFirst (w : FarmWhere) (t : Farms) : findOne w t = findFirst w.search t := by
  cases hfirst : findFirst w.search t with
  | some s =>
    have hmem : s ∈ t.rows := Table.mem_of_first hfirst
    have hholds := holds_search.mp (Table.holds_of_first hfirst)
    have hlookup : t.lookup w.key = some s := Table.lookup_iff.mpr ⟨hmem, hholds.1⟩
    simp [findOne, hlookup, Option.filter, hholds.2]
  | none =>
    have hnone := List.find?_eq_none.mp hfirst
    unfold findOne
    cases hlookup : t.lookup w.key with
    | none => rfl
    | some s =>
      obtain ⟨hmem, hkey⟩ := Table.lookup_some hlookup
      have hname : ¬ sameText s.row.name w.name := fun hname =>
        hnone s hmem (holds_search.mpr ⟨hkey, hname⟩)
      simp [Option.filter, hname]

/-- A search does not look at the columns of a set. -/
structure FarmSet.KeepsPlace (set : FarmSet) : Prop where
  protocol : ∀ r, (set.apply r).protocol = r.protocol
  name : ∀ r, (set.apply r).name = r.name
  address : ∀ r, (set.apply r).address = r.address
  pid : ∀ r, (set.apply r).pid = r.pid

theorem FarmSet.KeepsPlace.holds {set : FarmSet} (h : set.KeepsPlace) (w : FarmSearch)
    (r : FarmRow) : w.holds (set.apply r) = w.holds r := by
  rw [FarmSearch.holds, FarmSearch.holds, h.protocol, h.name, h.address, h.pid]

theorem keepsPlace_disabled : FarmSet.disabled.KeepsPlace :=
  ⟨fun _ => rfl, fun _ => rfl, fun _ => rfl, fun _ => rfl⟩

theorem keepsPlace_refreshed (amount value apr : Number) :
    (FarmSet.refreshed amount value apr).KeepsPlace :=
  ⟨fun _ => rfl, fun _ => rfl, fun _ => rfl, fun _ => rfl⟩

theorem FarmSet.KeepsPlace.withData {set : FarmSet} (h : set.KeepsPlace) (data : String) :
    (set.withData data).KeepsPlace := ⟨h.protocol, h.name, h.address, h.pid⟩

end BlockchainTask.Repository.Farm

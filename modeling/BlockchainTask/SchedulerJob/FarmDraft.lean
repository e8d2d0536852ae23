import BlockchainTask.Library.Simulation
import BlockchainTask.SchedulerJob.FarmTemplate

/-! # One farm in an open transaction

The transaction of a pool searches, inserts and updates the row of one key. A
draft is that row as the transaction sees it, with whether anything has been
written yet, and each operation of the manager follows one on the draft. -/
namespace BlockchainTask.SchedulerJob.FarmDraft
open BlockchainTask.Common.Exception
open BlockchainTask.Library.Effect BlockchainTask.Library.Transaction BlockchainTask.Library.Store
open BlockchainTask.Library.Simulation
open BlockchainTask.Repository.Farm BlockchainTask.SchedulerJob.Base
open BlockchainTask.SchedulerJob.FarmTemplate

structure Draft where
  row : Option FarmRow
  written : Bool

abbrev DraftEff (α : Type) : Type := Eff Draft Thrown α

namespace Draft

def start (row : Option FarmRow) : Draft := ⟨row, false⟩

def findFarm (fault : Option Thrown) (name : String) : DraftEff (Option FarmRow) := do
  .mayFail fault
  .read fun draft => found name draft.row

@[simp] theorem start_row (row : Option FarmRow) : (start row).row = row := rfl

theorem findFarm_none {α : Type} (name : String) (h : Option FarmRow → DraftEff α) (draft : Draft) :
    (findFarm none name >>= h) draft = h (found name draft.row) draft := rfl

theorem findFarm_some {α : Type} (e : Thrown) (name : String) (h : Option FarmRow → DraftEff α)
    (draft : Draft) : (findFarm (some e) name >>= h) draft = (.error e, draft) := rfl

def createFarm (fault : Option Thrown) (address : String) (r : FarmRow) : DraftEff Unit := do
  .mayFail fault
  .mayFail (newRefused address (← .read id).row)
  .update fun _ => ⟨some r, true⟩

def updateFarm (fault : Option Thrown) (set : FarmSet) : DraftEff Unit := do
  .mayFail fault
  .update fun draft => ⟨draft.row.map set.apply, true⟩

end Draft

/-- The second database has `row` under the key, and is the first one
otherwise. -/
structure RowAt (key : FarmKey) (row : Option FarmRow) (d d' : Db Farms) : Prop where
  scheduler : d'.scheduler = d.scheduler
  tables : Table.OnlyAt key row d.tables d'.tables

theorem RowAt.refl (key : FarmKey) (d : Db Farms) : RowAt key (d.tables.content key) d d :=
  ⟨rfl, Table.OnlyAt.refl key d.tables⟩

/-- The pending statements have made the draft. A statement leaves some data
unreached, so that pending statements are none exactly while nothing has been
written. -/
structure Follows (d : Db Farms) (w : FarmWhere) (p : Db Farms → Db Farms) (draft : Draft) :
    Prop where
  rowAt : RowAt w.key draft.row d (p d)
  idle : draft.written = false → p = id
  written : draft.written = true → ¬ Function.Surjective p

variable {d : Db Farms} {w : FarmWhere} {p : Db Farms → Db Farms} {draft : Draft}

theorem Follows.start (d : Db Farms) (w : FarmWhere) :
    Follows d w id (Draft.start (d.tables.content w.key)) where
  rowAt := RowAt.refl w.key d
  idle _ := rfl
  written h := nomatch h

theorem Follows.search (h : Follows d w p draft) :
    (findOne w (p d).tables).map Stored.row = found w.name draft.row := by
  rw [findOne_content, h.rowAt.tables.own]

/-- A statement on the farm table that leaves some table unreached, after any
others. -/
theorem setTables_comp_not_surjective {set : Farms → Farms} (h : ¬ Function.Surjective set)
    (p : Db Farms → Db Farms) : ¬ Function.Surjective (Db.setTables set ∘ p) := by
  intro hsurj
  refine h fun t => ?_
  obtain ⟨db, hdb⟩ := hsurj.of_comp ⟨none, t⟩
  exact ⟨db.tables, congrArg Db.tables hdb⟩

theorem Follows.create (h : Follows d w p draft) {assets : String} {stake reward : List FarmToken}
    (hfree : newRefused w.address draft.row = none) :
    Follows d w (Db.setTables (fun t => t.insertIgnore (.new w assets stake reward)) ∘ p)
      ⟨some (.new w assets stake reward), true⟩ where
  rowAt := by
    refine ⟨h.rowAt.scheduler, h.rowAt.tables.trans (onlyAt_create ?_)⟩
    rw [h.rowAt.tables.own]
    exact hfree
  idle hw := nomatch hw
  written _ := setTables_comp_not_surjective (Table.insertIgnore_not_surjective _) p

/-- The update is of the row just found, and there are columns it never leaves. -/
theorem Follows.update (h : Follows d w p draft) {farm : Stored FarmRow}
    (hfound : findOne w (p d).tables = some farm) {set : FarmSet} {r : FarmRow}
    (hset : ∀ r', set.apply r' ≠ r) :
    Follows d w (Db.setTables (updateOne farm.id set) ∘ p) ⟨draft.row.map set.apply, true⟩ where
  rowAt := by
    have hrow : draft.row = some farm.row := by
      rw [← h.rowAt.tables.own, Table.content, findOne_some hfound]
      rfl
    rw [hrow]
    exact ⟨h.rowAt.scheduler, h.rowAt.tables.trans (onlyAt_update hfound set)⟩
  idle hw := nomatch hw
  written _ := setTables_comp_not_surjective (Table.updateId_not_surjective hset) p

/-- A refresh never leaves a farm without a rate. -/
theorem refreshed_ne (amount value apr : Library.Decimal.Number) (r r' : FarmRow) :
    (FarmSet.refreshed amount value apr).apply r' ≠ { r with apr := none } := by
  intro h
  cases congrArg FarmRow.apr h

/-! ## The operations of the manager -/

theorem simulates_findFarm (d : Db Farms) (w : FarmWhere) (fault : Option Thrown) :
    Simulates d (Follows d w) (findFarmWith fault w) (Draft.findFarm fault w.name)
      (fun q b x y => (Follows d w q b ∧ findOne w (q d).tables = x) ∧ y = x.map Stored.row) :=
  Simulates.managerRead fault fun _ _ h => ⟨⟨h, rfl⟩, h.search.symm⟩

theorem simulates_createFarm (d : Db Farms) (w : FarmWhere) (fault : Option Thrown)
    (assets : String) (stake reward : List FarmToken) :
    Simulates d (Follows d w) (createFarmWith fault (.new w assets stake reward))
      (Draft.createFarm fault w.address (.new w assets stake reward))
      (fun q b _ _ => Follows d w q b) := by
  refine Simulates.managerWrite fault (fun p draft h => ?_) (fun p draft h hfree => ?_)
  · rw [insertRefused_new, h.rowAt.tables.own]
  · exact h.create hfree

theorem simulates_refresh (d : Db Farms) (w : FarmWhere) (fault : Option Thrown)
    (farm : Stored FarmRow) (amount value apr : Library.Decimal.Number) :
    Simulates d (fun q b => Follows d w q b ∧ findOne w (q d).tables = some farm)
      (updateFarmWith fault farm.id (.refreshed amount value apr))
      (Draft.updateFarm fault (.refreshed amount value apr)) (fun q b _ _ => Follows d w q b) :=
  Simulates.managerUpdate fault fun _ _ h => h.1.update h.2 (refreshed_ne amount value apr farm.row)

/-- A farm is registered unless it was found, and refreshed unless it was left
out. -/
theorem simulates_registerAndRefresh {register : JobEff Farms Bool} {registerDraft : DraftEff Bool}
    {refresh : JobEff Farms Unit} {refreshDraft : DraftEff Unit} (farm : Option (Stored FarmRow))
    (hregister : Simulates d (Follows d w) register registerDraft
      fun q b x y => Follows d w q b ∧ y = x)
    (hrefresh : Simulates d (Follows d w) refresh refreshDraft fun q b _ _ => Follows d w q b) :
    Simulates d (Follows d w)
      (do
        let initialized ← (if farm.isNone then register else pure true)
        .when initialized refresh)
      (do
        let initialized ← (if (farm.map Stored.row).isNone then registerDraft else pure true)
        .when initialized refreshDraft)
      (fun q b _ _ => Follows d w q b) := by
  have hinitialized : Simulates d (Follows d w) (if farm.isNone then register else pure true)
      (if (farm.map Stored.row).isNone then registerDraft else pure true)
      (fun q b x y => Follows d w q b ∧ y = x) := by
    rw [Option.isNone_map]
    exact Simulates.ite (fun _ => hregister) fun _ => Simulates.pure fun _ _ h => ⟨h, rfl⟩
  exact Simulates.bindSame hinitialized fun _ => Simulates.when (fun _ => hrefresh) fun _ _ _ h => h

/-! ## Blocks that follow a draft -/

/-- From `s`, the block leaves of its row what `f` makes of it, and every other
row alone; it throws what `f` throws, and then the data are as they were. -/
def Settles (w : FarmWhere) (s : Session (Db Farms) LoggerData) (block : JobEff Farms Unit)
    (f : DraftEff Unit) : Prop :=
  Eff.wp block
    (fun _ t => t.log = s.log ∧ ∃ draft, f (.start (s.db.tables.content w.key)) = (.ok (), draft) ∧
      RowAt w.key draft.row s.db t.db)
    (fun e t => t.log = s.log ∧ t.db = s.db ∧
      (f (.start (s.db.tables.content w.key))).1 = .error e) s

variable {s : Session (Db Farms) LoggerData}

theorem settles_find (fault : Option Thrown) {g : Option (Stored FarmRow) → JobEff Farms Unit}
    {h : Option FarmRow → DraftEff Unit}
    (hg : ∀ farm, findOne w s.db.tables = farm → Settles w s (g farm) (h (farm.map Stored.row))) :
    Settles w s (findFarm fault w >>= g) (Draft.findFarm fault w.name >>= h) := by
  have hsearch := findOne_content w s.db.tables
  cases fault with
  | none =>
    have hfound := hg _ rfl
    rw [hsearch] at hfound
    exact hfound
  | some e => exact ⟨rfl, rfl, rfl⟩

theorem settles_disable (fault : Option Thrown) (farm : Option (Stored FarmRow)) :
    findOne w s.db.tables = farm → Settles w s
      (match farm with
        | some farm => updateFarm fault farm.id .disabled
        | none => pure ())
      (match farm.map Stored.row with
        | some _ => Draft.updateFarm fault .disabled
        | none => pure ()) := by
  intro hfarm
  cases farm with
  | none => exact ⟨rfl, _, rfl, RowAt.refl w.key s.db⟩
  | some farm =>
    have hrow : s.db.tables.content w.key = some farm.row := by
      rw [Table.content, findOne_some hfarm]
      rfl
    cases fault with
    | some e => exact ⟨rfl, rfl, rfl⟩
    | none =>
      refine ⟨rfl, _, rfl, ?_⟩
      simp only [Draft.start, hrow]
      exact ⟨rfl, onlyAt_update hfarm .disabled⟩

theorem settles_transaction {m : JobEff Farms Unit} {f : DraftEff Unit} {f₁ f₂ f₃ : Option Thrown}
    (hm : Simulates s.db (Follows s.db w) m f fun q b _ _ => Follows s.db w q b) :
    Settles w s
      (do
        createQueryRunner
        connect f₁
        startTransaction f₂
        m
        commitTransaction f₃)
      (do
        .mayFail f₁
        .mayFail f₂
        f
        .mayFail f₃) := by
  refine Eff.wp_mono (Simulates.transaction hm rfl (Follows.start s.db w)) (fun _ t ht => ?_)
    (fun e t ht => ⟨ht.2.1, ht.1, ht.2.2⟩)
  obtain ⟨hlog, q, draft, hdraft, hdb, hq⟩ := ht
  refine ⟨hlog, draft, hdraft, ?_⟩
  rw [hdb]
  exact hq.rowAt

end BlockchainTask.SchedulerJob.FarmDraft

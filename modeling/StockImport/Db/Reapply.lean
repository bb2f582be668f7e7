import StockImport.Db.Overlay

/-!
# An apply that finds its snapshot

Where the inventory is what the staging says of its own warehouses and products, an apply
writes no row and counts none, and this is the only case.
-/

set_option autoImplicit false

namespace StockImport.Db

open PyText Tables Csv Snapshots

/-- The same rows, with their ids and times; the sequences of the ids may have moved. -/
structure SameRows (before after : Inventory) : Prop where
  warehouses : after.warehouses.table = before.warehouses.table
  products : after.products.table = before.products.table
  balances : after.balances = before.balances

section Reapply

variable {inventory after : Inventory} {staging : List ValidatedRow} {now : Nat}

theorem SameRows.trans {before between : Inventory} (first : SameRows before between)
    (second : SameRows between after) : SameRows before after :=
  ⟨second.warehouses.trans first.warehouses, second.products.trans first.products,
    second.balances.trans first.balances⟩

theorem SameRows.view (same : SameRows inventory after) : after.view = inventory.view := by
  obtain ⟨warehouses, products, balances⟩ := same
  apply View.ext
  · intro warehouse product
    simp only [Inventory.view, Inventory.quantityOf, Inventory.balanceOf, Catalog.idOf, warehouses,
      products, balances]
  · intro warehouse
    simp only [Inventory.view, Catalog.nameOf, warehouses]
  · intro product
    simp only [Inventory.view, Catalog.nameOf, products]

theorem consistent_of_distinct (distinct : DistinctPairs staging) :
    snapshotLayout.Consistent staging := by
  intro row member other member' lists
  have same : other = row :=
    List.inj_on_of_nodup_map distinct member' member (Prod.ext lists.1 lists.2)
  rw [same]

/-! ## The catalogs -/

theorem proposedRows_entry {names : List (Text × Text)} : ∀ {nextId : Nat} {row : CatalogRow},
    row ∈ proposedRows now nextId names → (row.code, row.name) ∈ names := by
  induction names with
  | nil =>
      intro nextId row member
      cases member
  | cons first rest ih =>
      intro nextId row member
      rcases List.mem_cons.mp member with rfl | later
      · exact List.mem_cons_self
      · exact List.mem_cons_of_mem _ (ih later)

/-- Names that are there already are not written. -/
theorem Catalog.upsertNames_idle {catalog catalog' : Catalog} {names : List (Text × Text)}
    (idle : ∀ entry ∈ names, catalog.nameOf entry.1 = some entry.2)
    (done : catalog.upsertNames names now = some catalog') : catalog'.table = catalog.table := by
  refine Table.upsert_idle ?_ (Catalog.upsertNames_table done)
  intro new member
  have named := idle _ (proposedRows_entry member)
  simp only [Catalog.nameOf, Option.map_eq_some_iff] at named
  obtain ⟨old, found, same⟩ := named
  exact ⟨old, found, if_pos same⟩

theorem lastNames_entry {code name : ValidatedRow → Text} {entry : Text × Text}
    (member : entry ∈ lastNames code name staging) : ∃ row ∈ staging, code row = entry.1 ∧
      (lastOf code ValidatedRow.lineNumber staging (code row)).map name = some entry.2 := by
  have listed : entry.1 ∈ (lastNames code name staging).map Prod.fst := List.mem_map_of_mem member
  obtain ⟨row, inStaging, same⟩ := mem_lastNames.mp listed
  refine ⟨row, inStaging, same, ?_⟩
  rw [same, ← lastNames_find]
  have found : ((lastNames code name staging).find? fun other => other.1 = entry.1) = some entry :=
    (find?_key_eq_some (lastNames_nodup code name staging)).mpr ⟨member, rfl⟩
  rw [found]
  rfl

theorem upsertWarehouses_settled (settled : snapshotLayout.Settled staging inventory.view)
    (done : upsertWarehouses inventory staging now = some after) : SameRows inventory after := by
  obtain ⟨upserted, products, balances⟩ := upsertWarehouses_spec done
  refine ⟨Catalog.upsertNames_idle ?_ upserted, congrArg Catalog.table products, balances⟩
  intro entry member
  obtain ⟨row, inStaging, same, last⟩ := lastNames_entry member
  have named := settled.placeName row inStaging
  rw [← same]
  exact named.trans last

theorem upsertProducts_settled (settled : snapshotLayout.Settled staging inventory.view)
    (done : upsertProducts inventory staging now = some after) : SameRows inventory after := by
  obtain ⟨upserted, warehouses, balances⟩ := upsertProducts_spec done
  refine ⟨congrArg Catalog.table warehouses, Catalog.upsertNames_idle ?_ upserted, balances⟩
  intro entry member
  obtain ⟨row, inStaging, same, last⟩ := lastNames_entry member
  have named := settled.itemName row inStaging
  rw [← same]
  exact named.trans last

/-! ## The balances -/

/-- Every listed pair has its balance with its quantity. -/
theorem explicitPairs_settled (settled : snapshotLayout.Settled staging inventory.view)
    {pair : ExplicitPair} (member : pair ∈ explicitPairs inventory staging) :
    ∃ balance, inventory.balances.find pair.key = some balance ∧
      balance.quantity = pair.quantity := by
  obtain ⟨row, inStaging, joined⟩ := List.mem_filterMap.mp member
  simp only [Option.bind_eq_some_iff, Option.map_eq_some_iff] at joined
  obtain ⟨warehouseId, warehouse, productId, product, rfl⟩ := joined
  have listed := settled.listed row inStaging
  simp only [Inventory.view, snapshotLayout, Inventory.quantityOf, Inventory.balanceOf, warehouse,
    product, Option.bind_some, Option.map_eq_some_iff] at listed
  exact listed

theorem applyExplicitStocks_settled (settled : snapshotLayout.Settled staging inventory.view)
    (done : applyExplicitStocks inventory staging now = some after) : SameRows inventory after := by
  obtain ⟨upserted, warehouses, products⟩ := applyExplicitStocks_spec done
  refine ⟨congrArg Catalog.table warehouses, congrArg Catalog.table products,
    Table.upsert_idle ?_ upserted⟩
  intro new member
  obtain ⟨pair, inPairs, rfl⟩ := List.mem_map.mp member
  obtain ⟨balance, found, same⟩ := explicitPairs_settled settled inPairs
  exact ⟨balance, found, if_pos same⟩

/-- No balance is missing from the staging. -/
theorem isMissing_settled (settled : snapshotLayout.Settled staging inventory.view) :
    ∀ balance ∈ inventory.balances.rows, isMissing inventory staging balance = false := by
  intro balance member
  obtain ⟨⟨warehouse, knownWarehouse⟩, product, knownProduct⟩ := inventory.references balance member
  have found : inventory.view.quantity warehouse product = some balance.quantity := by
    have row := (Table.find_eq_some inventory.balances).mpr ⟨member, rfl⟩
    simp only [Inventory.view, Inventory.quantityOf, Inventory.balanceOf, knownWarehouse,
      knownProduct, Option.bind_some]
    exact congrArg (Option.map StockBalance.quantity) row
  by_contra missing
  simp only [isMissing, Bool.not_eq_false, Bool.and_eq_true, decide_eq_true_eq, bne_iff_ne,
    Bool.not_eq_true', List.any_eq_false] at missing
  obtain ⟨⟨affected, nonzero⟩, absent⟩ := missing
  refine nonzero (settled.missing warehouse product _
    ((mem_affectedWarehouses staging knownWarehouse).mp affected) ?_ found)
  rintro row inStaging ⟨rfl, rfl⟩
  refine absent ⟨balance.warehouseId, balance.productId, row.quantity⟩ ?_ rfl
  exact List.mem_filterMap.mpr ⟨row, inStaging, by
    simp only [snapshotLayout] at knownWarehouse knownProduct
    simp [knownWarehouse, knownProduct]⟩

theorem zeroMissingStocks_settled (settled : snapshotLayout.Settled staging inventory.view) :
    SameRows inventory (zeroMissingStocks inventory staging now) := by
  refine ⟨rfl, rfl, ?_⟩
  have rows : (zeroMissingStocks inventory staging now).balances.rows = inventory.balances.rows := by
    refine (List.map_congr_left fun balance member => ?_).trans (List.map_id' _)
    rw [isMissing_settled settled balance member]
    rfl
  cases same : (zeroMissingStocks inventory staging now).balances with
  | mk rows' unique =>
      rw [same] at rows
      cases rows
      rfl

theorem calculateCounters_settled (settled : snapshotLayout.Settled staging inventory.view) :
    calculateCounters inventory staging = ⟨0, 0, 0⟩ := by
  simp only [calculateCounters, Counters.mk.injEq, List.countP_eq_zero]
  refine ⟨?_, ?_, ?_⟩
  · intro pair member
    obtain ⟨balance, found, _⟩ := explicitPairs_settled settled member
    simp [found]
  · intro pair member
    obtain ⟨balance, found, same⟩ := explicitPairs_settled settled member
    simp [found, same]
  · intro balance member
    simp [isMissing_settled settled balance member]

/-- An apply of what is there already writes nothing and counts nothing. -/
theorem applyStatements_settled {counters : Counters}
    (settled : snapshotLayout.Settled staging inventory.view)
    (done : applyStatements inventory staging now = some (after, counters)) :
    SameRows inventory after ∧ counters = ⟨0, 0, 0⟩ := by
  simp only [applyStatements, Option.bind_eq_some_iff, Option.map_eq_some_iff,
    Prod.mk.injEq] at done
  obtain ⟨first, warehouses, second, products, stocked, stocks, rfl, rfl⟩ := done
  have named := upsertWarehouses_settled settled warehouses
  have settledFirst : snapshotLayout.Settled staging first.view := named.view ▸ settled
  have listed := upsertProducts_settled settledFirst products
  have settledSecond : snapshotLayout.Settled staging second.view := listed.view ▸ settledFirst
  have kept := applyExplicitStocks_settled settledSecond stocks
  have settledStocked : snapshotLayout.Settled staging stocked.view := kept.view ▸ settledSecond
  exact ⟨((named.trans listed).trans kept).trans (zeroMissingStocks_settled settledStocked),
    calculateCounters_settled settledSecond⟩

end Reapply

end StockImport.Db

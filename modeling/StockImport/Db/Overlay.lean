import StockImport.Db.Inventory

/-!
# An apply of any staging

The statements of an apply over staging rows that may repeat a pair.  Where they go
through, one of the rows of a pair decides its quantity, and `stocks_created` is the
number of balances that are new.
-/

set_option autoImplicit false

namespace StockImport.Db

open PyText Tables Csv Snapshots

section Overlay

variable {inventory after : Inventory} {staging : List ValidatedRow} {now : Nat}

theorem mem_explicitBalances {balance : StockBalance} :
    balance ∈ explicitBalances inventory staging now ↔ ∃ row ∈ staging,
      inventory.warehouses.idOf row.warehouseCode = some balance.warehouseId ∧
      inventory.products.idOf row.sku = some balance.productId ∧
      balance = ⟨balance.warehouseId, balance.productId, row.quantity, now, now⟩ := by
  simp only [explicitBalances, explicitPairs, List.mem_map, List.mem_filterMap,
    Option.bind_eq_some_iff, Option.map_eq_some_iff]
  constructor
  · rintro ⟨_, ⟨row, member, warehouseId, warehouse, productId, product, rfl⟩, rfl⟩
    exact ⟨row, member, warehouse, product, rfl⟩
  · rintro ⟨row, member, warehouse, product, shape⟩
    exact ⟨_, ⟨row, member, _, warehouse, _, product, rfl⟩, shape.symm⟩

theorem listed_eq_none_iff {warehouse product : Text} :
    snapshotLayout.listed staging warehouse product = none ↔
      ∀ row ∈ staging, ¬ snapshotLayout.Lists row warehouse product := by
  simp [Layout.listed, Layout.Lists, snapshotLayout]

/-- A listed pair gets the quantity of one of its rows, any other keeps its own. -/
theorem applyExplicitStocks_lists (known : Known inventory staging)
    (done : applyExplicitStocks inventory staging now = some after) (warehouse product : Text) :
    (∃ row ∈ staging, snapshotLayout.Lists row warehouse product ∧
        after.quantityOf warehouse product = some row.quantity) ∨
      ((∀ row ∈ staging, ¬ snapshotLayout.Lists row warehouse product) ∧
        after.quantityOf warehouse product = inventory.quantityOf warehouse product) := by
  obtain ⟨upserted, warehouses, products⟩ := applyExplicitStocks_spec done
  have unlisted : (inventory.warehouses.idOf warehouse = none ∨
      inventory.products.idOf product = none) →
        ∀ row ∈ staging, ¬ snapshotLayout.Lists row warehouse product :=
    fun unknown => listed_eq_none_iff.mp (unlisted_of_unknown known unknown)
  unfold Inventory.quantityOf Inventory.balanceOf
  rw [warehouses, products]
  cases first : inventory.warehouses.idOf warehouse with
  | none => exact Or.inr ⟨unlisted (Or.inl first), rfl⟩
  | some warehouseId =>
      cases second : inventory.products.idOf product with
      | none => exact Or.inr ⟨unlisted (Or.inr second), rfl⟩
      | some productId =>
          simp only [Option.bind_some]
          rcases Table.find_upsert_some upserted (warehouseId, productId) with
            ⟨none, kept⟩ | ⟨new, member, key, written⟩
          · refine Or.inr ⟨?_, by rw [kept]⟩
            rintro row member ⟨rfl, rfl⟩
            exact none ⟨warehouseId, productId, row.quantity, now, now⟩
              (mem_explicitBalances.mpr ⟨row, member, first, second, rfl⟩) rfl
          · obtain ⟨row, inStaging, warehouseOf, productOf, shape⟩ := mem_explicitBalances.mp member
            have ids : new.warehouseId = warehouseId ∧ new.productId = productId :=
              Prod.mk.injEq .. ▸ key
            rw [ids.1] at warehouseOf
            rw [ids.2] at productOf
            refine Or.inl ⟨row, inStaging, ⟨Catalog.idOf_injective warehouseOf first,
              Catalog.idOf_injective productOf second⟩, ?_⟩
            have quantity : new.quantity = row.quantity := congrArg StockBalance.quantity shape
            rw [written]
            cases inventory.balances.find (warehouseId, productId) with
            | none => simp [Tables.upserted, quantity]
            | some old =>
                simp only [Tables.upserted, Option.map_some, changeQuantity, ← quantity]
                split
                · next same => simp [same]
                · simp

/-- Read through its codes, an apply lays the staging over the inventory. -/
theorem applyStatements_overlays {counters : Counters}
    (done : applyStatements inventory staging now = some (after, counters)) :
    snapshotLayout.Overlays staging inventory.view after.view := by
  simp only [applyStatements, Option.bind_eq_some_iff, Option.map_eq_some_iff,
    Prod.mk.injEq] at done
  obtain ⟨first, warehouses, second, products, third, stocks, rfl, _⟩ := done
  obtain ⟨warehousesUpserted, keptProducts, _⟩ := upsertWarehouses_spec warehouses
  obtain ⟨productsUpserted, keptWarehouses, _⟩ := upsertProducts_spec products
  obtain ⟨_, stockedWarehouses, stockedProducts⟩ := applyExplicitStocks_spec stocks
  have known : Known second staging := by
    intro row member
    rw [keptWarehouses]
    exact ⟨Catalog.upsertNames_listed (lastNames_nodup _ _ _) warehousesUpserted
        (mem_lastNames.mpr ⟨row, member, rfl⟩),
      Catalog.upsertNames_listed (lastNames_nodup _ _ _) productsUpserted
        (mem_lastNames.mpr ⟨row, member, rfl⟩)⟩
  refine ⟨?_, ?_, ?_⟩
  · intro warehouse product
    have before : second.quantityOf warehouse product =
        inventory.quantityOf warehouse product := by
      unfold Inventory.quantityOf
      rw [upsertProducts_balanceOf products, upsertWarehouses_balanceOf warehouses]
    simp only [Inventory.view]
    rw [zeroMissingStocks_quantityOf, ← before]
    rcases applyExplicitStocks_lists known stocks warehouse product with
      ⟨row, member, lists, set⟩ | ⟨none, kept⟩
    · refine Or.inl ⟨row, member, lists, ?_⟩
      rw [if_neg, set]
      · rfl
      · rintro ⟨_, unlisted⟩
        exact listed_eq_none_iff.mp unlisted row member lists
    · refine Or.inr ⟨none, ?_⟩
      rw [kept]
      simp only [listed_eq_none_iff.mpr none, and_true]
  · intro warehouse
    simp only [Inventory.view, zeroMissingStocks]
    rw [stockedWarehouses, keptWarehouses]
    exact lastName_eq _ _ staging warehousesUpserted warehouse
  · intro product
    simp only [Inventory.view, zeroMissingStocks]
    rw [stockedProducts, lastName_eq _ _ staging productsUpserted product, keptProducts]
    rfl

/-- An apply adds as many balances as it counts as created, and deletes none. -/
theorem applyStatements_created {counters : Counters}
    (done : applyStatements inventory staging now = some (after, counters)) :
    after.balances.rows.length = inventory.balances.rows.length + counters.stocksCreated := by
  simp only [applyStatements, Option.bind_eq_some_iff, Option.map_eq_some_iff,
    Prod.mk.injEq] at done
  obtain ⟨first, warehouses, second, products, stocked, stocks, rfl, rfl⟩ := done
  obtain ⟨upserted, _, _⟩ := applyExplicitStocks_spec stocks
  have kept : second.balances = inventory.balances :=
    (upsertProducts_spec products).2.2.trans (upsertWarehouses_spec warehouses).2.2
  have grown := upsertRows_length (changeQuantity_key now) _ _ _ _ second.balances.unique
    (Table.upsert_rows upserted)
  have zeroed : (zeroMissingStocks stocked staging now).balances.rows.length =
      stocked.balances.rows.length := by
    simp [zeroMissingStocks, Table.updateWhere]
  rw [zeroed, grown, kept, calculateCounters, explicitBalances, List.countP_map, kept]
  rfl

end Overlay

end StockImport.Db

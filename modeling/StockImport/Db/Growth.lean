import StockImport.Db.ApplyEffect

/-!
# What an apply leaves in place

An apply renames rows and sets quantities.  It deletes nothing, and no row gets another
id, code or time of creation.
-/

set_option autoImplicit false

namespace StockImport.Db

open PyText Tables Csv

/-- What no statement changes in a row of a catalog. -/
def CatalogRow.identity (row : CatalogRow) : Nat × Text × Nat := (row.id, row.code, row.createdAt)

def StockBalance.identity (balance : StockBalance) : (Nat × Nat) × Nat :=
  (balance.key, balance.createdAt)

theorem CatalogRow.of_identity {row row' : CatalogRow} (same : row.identity = row'.identity) :
    row.id = row'.id ∧ row.code = row'.code :=
  ⟨congrArg Prod.fst same, congrArg (fun identity => identity.2.1) same⟩

theorem StockBalance.of_identity {balance balance' : StockBalance}
    (same : balance.identity = balance'.identity) :
    balance.warehouseId = balance'.warehouseId ∧ balance.productId = balance'.productId := by
  have key : balance.key = balance'.key := congrArg Prod.fst same
  exact Prod.mk.injEq .. ▸ key

/-- Every row of before is still there. -/
structure Grows (before after : Inventory) : Prop where
  warehouses : before.warehouses.table.rows.map CatalogRow.identity ⊆
    after.warehouses.table.rows.map CatalogRow.identity
  products : before.products.table.rows.map CatalogRow.identity ⊆
    after.products.table.rows.map CatalogRow.identity
  balances : before.balances.rows.map StockBalance.identity ⊆
    after.balances.rows.map StockBalance.identity

theorem Grows.refl (inventory : Inventory) : Grows inventory inventory :=
  ⟨List.Subset.refl _, List.Subset.refl _, List.Subset.refl _⟩

theorem Grows.trans {first second third : Inventory} (earlier : Grows first second)
    (later : Grows second third) : Grows first third :=
  ⟨List.Subset.trans earlier.warehouses later.warehouses,
    List.Subset.trans earlier.products later.products,
    List.Subset.trans earlier.balances later.balances⟩

/-! ## The statements -/

theorem renameRow_identity (now : Nat) : Keeps (renameRow now) CatalogRow.identity := by
  intro old new row renamed
  unfold renameRow at renamed
  split at renamed
  · cases renamed
  · cases renamed
    rfl

theorem changeQuantity_identity (now : Nat) :
    Keeps (changeQuantity now) StockBalance.identity := by
  intro old new row changed
  unfold changeQuantity at changed
  split at changed
  · cases changed
  · cases changed
    rfl

/-- An upsert keeps of every row what its update keeps. -/
theorem upsert_keeps {Row Key β : Type} [DecidableEq Key] {key : Row → Key}
    {update : Row → Row → Option Row} {keyKept : Keeps update key} {source : List Row}
    {table after : Table Row key} {g : Row → β} (keeps : Keeps update g)
    (done : table.upsert update keyKept source = some after) :
    table.rows.map g ⊆ after.rows.map g := by
  obtain ⟨_, _, _, columns⟩ := upsertRows_column keyKept source [] table.rows after.rows
    table.unique (Table.upsert_rows done)
  rw [columns g keeps]
  exact List.subset_append_left _ _

theorem Catalog.upsertNames_grows {catalog catalog' : Catalog} {names : List (Text × Text)}
    {now : Nat} (done : catalog.upsertNames names now = some catalog') :
    catalog.table.rows.map CatalogRow.identity ⊆ catalog'.table.rows.map CatalogRow.identity :=
  upsert_keeps (renameRow_identity now) (Catalog.upsertNames_table done)

theorem zeroMissingStocks_identity (inventory : Inventory) (staging : List ValidatedRow)
    (now : Nat) :
    (zeroMissingStocks inventory staging now).balances.rows.map StockBalance.identity =
      inventory.balances.rows.map StockBalance.identity := by
  simp only [zeroMissingStocks, Table.updateWhere, List.map_map]
  apply List.map_congr_left
  intro balance _
  simp only [Function.comp_apply]
  split
  · rfl
  · rfl

theorem applyStatements_grows {before after : Inventory} {staging : List ValidatedRow}
    {now : Nat} {counters : Counters}
    (done : applyStatements before staging now = some (after, counters)) :
    Grows before after := by
  obtain ⟨joined, stocked, state, stocks, rfl, _⟩ := applyStatements_cases done
  obtain ⟨upserted, warehouses, products⟩ := applyExplicitStocks_spec stocks
  constructor
  · have named := Catalog.upsertNames_grows state.warehouses
    rw [← warehouses] at named
    exact named
  · have named := Catalog.upsertNames_grows state.products
    rw [← products] at named
    exact named
  · rw [zeroMissingStocks_identity, ← state.balances]
    exact upsert_keeps (changeQuantity_identity now) upserted

end StockImport.Db

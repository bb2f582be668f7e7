import StockImport.Db.Schema
import StockImport.Library.Snapshots

/-!
# The statements of an apply

The SQL of `ApplyReportService` over the staging rows of one report: the two
catalog upserts, the counters, the explicit stocks and the zeroing.  Read through
the codes, an apply is the application of one snapshot (`apply_view`).
-/

set_option autoImplicit false

namespace StockImport.Db

open PyText Tables Csv Snapshots

/-! ## Catalogs -/

/-- `ON CONFLICT (code) DO UPDATE SET name, updated_at WHERE name IS DISTINCT FROM`. -/
def renameRow (now : Nat) (old new : CatalogRow) : Option CatalogRow :=
  if old.name = new.name then none else some { old with name := new.name, updatedAt := now }

theorem renameRow_code (now : Nat) : Keeps (renameRow now) CatalogRow.code := by
  intro old new row renamed
  unfold renameRow at renamed
  split at renamed
  · cases renamed
  · cases renamed
    rfl

theorem renameRow_id (now : Nat) : Keeps (renameRow now) CatalogRow.id := by
  intro old new row renamed
  unfold renameRow at renamed
  split at renamed
  · cases renamed
  · cases renamed
    rfl

/-- The rows proposed for insertion; each takes an id from the sequence. -/
def proposedRows (now : Nat) : (nextId : Nat) → List (Text × Text) → List CatalogRow
  | _, [] => []
  | nextId, (code, name) :: rest =>
      ⟨nextId, code, name, now, now⟩ :: proposedRows now (nextId + 1) rest

theorem proposedRows_codes (now : Nat) : ∀ (names : List (Text × Text)) (nextId : Nat),
    (proposedRows now nextId names).map CatalogRow.code = names.map Prod.fst := by
  intro names
  induction names with
  | nil => intro nextId; rfl
  | cons first rest ih =>
      intro nextId
      simp only [proposedRows, List.map_cons, ih]

theorem proposedRows_ids (now : Nat) : ∀ (names : List (Text × Text)) (nextId : Nat),
    (proposedRows now nextId names).map CatalogRow.id = List.range' nextId names.length := by
  intro names
  induction names with
  | nil => intro nextId; rfl
  | cons first rest ih =>
      intro nextId
      simp only [proposedRows, List.map_cons, ih, List.length_cons, List.range'_succ]

theorem proposedRows_find (now : Nat) (code : Text) : ∀ (names : List (Text × Text)) (nextId : Nat),
    ((proposedRows now nextId names).find? fun row => row.code = code).map CatalogRow.name =
      (names.find? fun entry => entry.1 = code).map Prod.snd := by
  intro names
  induction names with
  | nil => intro nextId; rfl
  | cons first rest ih =>
      intro nextId
      simp only [proposedRows, List.find?_cons]
      by_cases same : first.1 = code
      · simp [same]
      · simp only [same, decide_false]
        exact ih (nextId + 1)

theorem upsertRows_ids {now nextId : Nat} {names : List (Text × Text)} {rows result : List CatalogRow}
    (unique : (rows.map CatalogRow.code).Nodup) (ids : (rows.map CatalogRow.id).Nodup)
    (below : ∀ row ∈ rows, row.id < nextId)
    (done : upsertRows CatalogRow.code (renameRow now) [] (proposedRows now nextId names) rows =
      some result) :
    (result.map CatalogRow.id).Nodup ∧ ∀ row ∈ result, row.id < nextId + names.length := by
  obtain ⟨_, inserted, sub, columns⟩ :=
    upsertRows_column (renameRow_code now) _ [] rows result unique done
  have column := columns CatalogRow.id (renameRow_id now)
  have subIds : (inserted.map CatalogRow.id).Sublist (List.range' nextId names.length) :=
    proposedRows_ids now names nextId ▸ sub.map CatalogRow.id
  have between : ∀ id ∈ inserted.map CatalogRow.id, nextId ≤ id ∧ id < nextId + names.length := by
    intro id member
    have inRange := subIds.subset member
    rw [List.mem_range'_1] at inRange
    exact inRange
  refine ⟨?_, ?_⟩
  · rw [column, List.nodup_append]
    refine ⟨ids, List.Nodup.sublist subIds List.nodup_range', ?_⟩
    rintro id old id' new rfl
    obtain ⟨row, member, rfl⟩ := List.mem_map.mp old
    have small := below row member
    have large := (between _ new).1
    omega
  · intro row member
    have inColumn : row.id ∈ result.map CatalogRow.id := List.mem_map_of_mem member
    rw [column] at inColumn
    rcases List.mem_append.mp inColumn with old | new
    · obtain ⟨row', member', same⟩ := List.mem_map.mp old
      have small := below row' member'
      omega
    · exact (between _ new).2

/-- `INSERT INTO … SELECT … ON CONFLICT (code) DO UPDATE` of codes with names. -/
def Catalog.upsertNames (catalog : Catalog) (names : List (Text × Text)) (now : Nat) :
    Option Catalog :=
  match done : catalog.table.upsert (renameRow now) (renameRow_code now)
      (proposedRows now catalog.nextId names) with
  | none => none
  | some table =>
      have kept := upsertRows_ids catalog.table.unique catalog.ids catalog.below
        (Table.upsert_rows done)
      some ⟨table, catalog.nextId + names.length, kept.1, kept.2⟩

theorem Catalog.upsertNames_table {catalog catalog' : Catalog} {names : List (Text × Text)}
    {now : Nat} (done : catalog.upsertNames names now = some catalog') :
    catalog.table.upsert (renameRow now) (renameRow_code now)
      (proposedRows now catalog.nextId names) = some catalog'.table := by
  unfold Catalog.upsertNames at done
  split at done
  · cases done
  · next table shape =>
      cases done
      exact shape

theorem Catalog.upsertNames_some (catalog : Catalog) {names : List (Text × Text)} (now : Nat)
    (distinct : (names.map Prod.fst).Nodup) :
    ∃ catalog', catalog.upsertNames names now = some catalog' := by
  obtain ⟨table, done⟩ := catalog.table.upsert_some (renameRow_code now)
    (proposedRows now catalog.nextId names) (by rwa [proposedRows_codes])
  unfold Catalog.upsertNames
  split
  · next failed => rw [done] at failed; cases failed
  · exact ⟨_, rfl⟩

theorem Catalog.upsertNames_find {catalog catalog' : Catalog} {names : List (Text × Text)}
    {now : Nat} (distinct : (names.map Prod.fst).Nodup)
    (done : catalog.upsertNames names now = some catalog') (code : Text) :
    catalog'.table.find code = upserted (renameRow now) (catalog.table.find code)
      ((proposedRows now catalog.nextId names).find? fun row => row.code = code) :=
  Table.find_upsert (by rwa [proposedRows_codes]) (Catalog.upsertNames_table done) code

theorem renamed_id (now : Nat) (old new : CatalogRow) :
    ((renameRow now old new).getD old).id = old.id := by
  cases renamed : renameRow now old new with
  | none => rfl
  | some row => exact renameRow_id now old new row renamed

theorem renamed_name (now : Nat) (old new : CatalogRow) :
    ((renameRow now old new).getD old).name = new.name := by
  unfold renameRow
  split
  · next same => exact same
  · rfl

/-- The name of a code is the new one, where there is one. -/
theorem Catalog.upsertNames_nameOf {catalog catalog' : Catalog} {names : List (Text × Text)}
    {now : Nat} (distinct : (names.map Prod.fst).Nodup)
    (done : catalog.upsertNames names now = some catalog') (code : Text) :
    catalog'.nameOf code =
      ((names.find? fun entry => entry.1 = code).map Prod.snd).or (catalog.nameOf code) := by
  rw [← proposedRows_find now code names catalog.nextId]
  unfold Catalog.nameOf
  rw [Catalog.upsertNames_find distinct done]
  cases (proposedRows now catalog.nextId names).find? fun row => row.code = code with
  | none => simp [upserted]
  | some new =>
      cases catalog.table.find code with
      | none => simp [upserted]
      | some old => simp [upserted, renamed_name]

/-- Existing codes keep their ids. -/
theorem Catalog.upsertNames_idOf {catalog catalog' : Catalog} {names : List (Text × Text)}
    {now : Nat} (distinct : (names.map Prod.fst).Nodup)
    (done : catalog.upsertNames names now = some catalog') {code : Text} {id : Nat}
    (found : catalog.idOf code = some id) : catalog'.idOf code = some id := by
  unfold Catalog.idOf at found ⊢
  rw [Catalog.upsertNames_find distinct done]
  cases old : catalog.table.find code with
  | none => simp [old] at found
  | some row =>
      rw [old] at found
      cases (proposedRows now catalog.nextId names).find? fun row => row.code = code with
      | none => simpa [upserted] using found
      | some new => simpa [upserted, renamed_id] using found

/-- A new code has an id that was not in use, and its name was given. -/
theorem Catalog.upsertNames_new {catalog catalog' : Catalog} {names : List (Text × Text)}
    {now : Nat} (distinct : (names.map Prod.fst).Nodup)
    (done : catalog.upsertNames names now = some catalog') {code : Text} {id : Nat}
    (found : catalog'.idOf code = some id) (absent : catalog.idOf code = none) :
    catalog.nextId ≤ id ∧ code ∈ names.map Prod.fst := by
  unfold Catalog.idOf at found absent
  rw [Catalog.upsertNames_find distinct done] at found
  simp only [Option.map_eq_none_iff] at absent
  rw [absent] at found
  cases proposed : (proposedRows now catalog.nextId names).find? fun row => row.code = code with
  | none => simp [proposed, upserted] at found
  | some new =>
      simp only [proposed, upserted, Option.map_some, Option.some.injEq] at found
      have member := List.mem_of_find?_eq_some proposed
      have newCode : new.code = code := by simpa using List.find?_some proposed
      refine ⟨?_, ?_⟩
      · have inIds : new.id ∈ (proposedRows now catalog.nextId names).map CatalogRow.id :=
          List.mem_map_of_mem member
        rw [proposedRows_ids, List.mem_range'_1] at inIds
        omega
      · rw [← proposedRows_codes now names catalog.nextId, ← newCode]
        exact List.mem_map_of_mem member

theorem Catalog.upsertNames_listed {catalog catalog' : Catalog} {names : List (Text × Text)}
    {now : Nat} (distinct : (names.map Prod.fst).Nodup)
    (done : catalog.upsertNames names now = some catalog') {code : Text}
    (listed : code ∈ names.map Prod.fst) : ∃ id, catalog'.idOf code = some id := by
  unfold Catalog.idOf
  rw [Catalog.upsertNames_find distinct done]
  have proposed : ∃ new, ((proposedRows now catalog.nextId names).find? fun row =>
      row.code = code) = some new := by
    rw [← proposedRows_codes now names catalog.nextId] at listed
    obtain ⟨row, member, same⟩ := List.mem_map.mp listed
    rw [← Option.isSome_iff_exists, List.find?_isSome]
    exact ⟨row, member, by simp [same]⟩
  obtain ⟨new, shape⟩ := proposed
  rw [shape]
  cases catalog.table.find code with
  | none => exact ⟨new.id, rfl⟩
  | some old => exact ⟨_, rfl⟩

theorem Catalog.upsertNames_has {catalog catalog' : Catalog} {names : List (Text × Text)}
    {now : Nat} (distinct : (names.map Prod.fst).Nodup)
    (done : catalog.upsertNames names now = some catalog') {id : Nat} (has : catalog.Has id) :
    catalog'.Has id := by
  obtain ⟨code, found⟩ := has
  exact ⟨code, Catalog.upsertNames_idOf distinct done found⟩

/-! ## The five statements -/

/-- `SELECT DISTINCT ON (code) code, name … ORDER BY code, line_number DESC`. -/
def lastNames (code name : ValidatedRow → Text) (staging : List ValidatedRow) :
    List (Text × Text) :=
  (distinctOn code ValidatedRow.lineNumber staging).map fun row => (code row, name row)

theorem lastNames_codes (code name : ValidatedRow → Text) (staging : List ValidatedRow) :
    (lastNames code name staging).map Prod.fst =
      (distinctOn code ValidatedRow.lineNumber staging).map code := by
  simp [lastNames, Function.comp_def]

theorem lastNames_nodup (code name : ValidatedRow → Text) (staging : List ValidatedRow) :
    ((lastNames code name staging).map Prod.fst).Nodup :=
  lastNames_codes code name staging ▸ distinctOn_nodup code ValidatedRow.lineNumber staging

theorem lastNames_find (code name : ValidatedRow → Text) (staging : List ValidatedRow) (k : Text) :
    ((lastNames code name staging).find? fun entry => entry.1 = k).map Prod.snd =
      (lastOf code ValidatedRow.lineNumber staging k).map name := by
  rw [← find?_distinctOn code ValidatedRow.lineNumber staging k, lastNames, List.find?_map,
    Option.map_map]
  rfl

theorem mem_lastNames {code name : ValidatedRow → Text} {staging : List ValidatedRow} {k : Text} :
    k ∈ (lastNames code name staging).map Prod.fst ↔ ∃ row ∈ staging, code row = k := by
  have found := lastNames_find code name staging k
  constructor
  · intro member
    rw [lastNames_codes] at member
    obtain ⟨row, inSelection, same⟩ := List.mem_map.mp member
    obtain ⟨k', _, last⟩ := List.mem_filterMap.mp inSelection
    exact ⟨row, (lastOf_eq_some last).1, same⟩
  · rintro ⟨row, member, same⟩
    have some : lastOf code ValidatedRow.lineNumber staging k ≠ none := by
      intro none
      exact lastOf_eq_none.mp none row member same
    cases hit : (lastNames code name staging).find? fun entry => entry.1 = k with
    | none =>
        rw [hit] at found
        simp only [Option.map_none] at found
        exact absurd (Option.map_eq_none_iff.mp found.symm) some
    | some entry =>
        have same : entry.1 = k := by simpa using List.find?_some hit
        exact same ▸ List.mem_map_of_mem (List.mem_of_find?_eq_some hit)

def upsertWarehouses (inventory : Inventory) (staging : List ValidatedRow) (now : Nat) :
    Option Inventory :=
  match done : inventory.warehouses.upsertNames
      (lastNames ValidatedRow.warehouseCode ValidatedRow.warehouseName staging) now with
  | none => none
  | some warehouses => some
      { inventory with
        warehouses := warehouses
        references := fun balance member =>
          ⟨Catalog.upsertNames_has (lastNames_nodup _ _ _) done
            (inventory.references balance member).1, (inventory.references balance member).2⟩ }

def upsertProducts (inventory : Inventory) (staging : List ValidatedRow) (now : Nat) :
    Option Inventory :=
  match done : inventory.products.upsertNames
      (lastNames ValidatedRow.sku ValidatedRow.productName staging) now with
  | none => none
  | some products => some
      { inventory with
        products := products
        references := fun balance member =>
          ⟨(inventory.references balance member).1,
            Catalog.upsertNames_has (lastNames_nodup _ _ _) done
              (inventory.references balance member).2⟩ }

structure ExplicitPair where
  warehouseId : Nat
  productId : Nat
  quantity : Quantity

def ExplicitPair.key (pair : ExplicitPair) : Nat × Nat := (pair.warehouseId, pair.productId)

/-- The staging rows joined with `warehouses` and `products`, where codes are unique. -/
def explicitPairs (inventory : Inventory) (staging : List ValidatedRow) : List ExplicitPair :=
  staging.filterMap fun row =>
    (inventory.warehouses.idOf row.warehouseCode).bind fun warehouseId =>
      (inventory.products.idOf row.sku).map fun productId =>
        ⟨warehouseId, productId, row.quantity⟩

def affectedWarehouses (inventory : Inventory) (staging : List ValidatedRow) : List Nat :=
  (staging.filterMap fun row => inventory.warehouses.idOf row.warehouseCode).dedup

structure Counters where
  stocksCreated : Nat
  stocksUpdated : Nat
  stocksZeroed : Nat
  deriving DecidableEq, Repr

/-- A non-zero balance of a warehouse of the report that the report does not list. -/
def isMissing (inventory : Inventory) (staging : List ValidatedRow) (balance : StockBalance) :
    Bool :=
  decide (balance.warehouseId ∈ affectedWarehouses inventory staging) &&
    (balance.quantity != 0) &&
      !(explicitPairs inventory staging).any fun present => present.key = balance.key

def calculateCounters (inventory : Inventory) (staging : List ValidatedRow) : Counters where
  stocksCreated := (explicitPairs inventory staging).countP fun pair =>
    (inventory.balances.find pair.key).isNone
  stocksUpdated := (explicitPairs inventory staging).countP fun pair =>
    (inventory.balances.find pair.key).any fun balance => balance.quantity != pair.quantity
  stocksZeroed := inventory.balances.rows.countP (isMissing inventory staging)

/-- `ON CONFLICT … DO UPDATE SET quantity, updated_at WHERE quantity IS DISTINCT FROM`. -/
def changeQuantity (now : Nat) (old new : StockBalance) : Option StockBalance :=
  if old.quantity = new.quantity then none
  else some { old with quantity := new.quantity, updatedAt := now }

theorem changeQuantity_key (now : Nat) : Keeps (changeQuantity now) StockBalance.key := by
  intro old new row changed
  unfold changeQuantity at changed
  split at changed
  · cases changed
  · cases changed
    rfl

def explicitBalances (inventory : Inventory) (staging : List ValidatedRow) (now : Nat) :
    List StockBalance :=
  (explicitPairs inventory staging).map fun pair =>
    ⟨pair.warehouseId, pair.productId, pair.quantity, now, now⟩

theorem explicitPairs_has {inventory : Inventory} {staging : List ValidatedRow}
    {pair : ExplicitPair} (member : pair ∈ explicitPairs inventory staging) :
    inventory.warehouses.Has pair.warehouseId ∧ inventory.products.Has pair.productId := by
  obtain ⟨row, _, joined⟩ := List.mem_filterMap.mp member
  simp only [Option.bind_eq_some_iff, Option.map_eq_some_iff] at joined
  obtain ⟨warehouseId, warehouse, productId, product, rfl⟩ := joined
  exact ⟨⟨_, warehouse⟩, ⟨_, product⟩⟩

theorem upsertRows_references {inventory : Inventory} {staging : List ValidatedRow} {now : Nat}
    {result : List StockBalance}
    (done : upsertRows StockBalance.key (changeQuantity now) []
      (explicitBalances inventory staging now) inventory.balances.rows = some result) :
    ∀ balance ∈ result,
      inventory.warehouses.Has balance.warehouseId ∧ inventory.products.Has balance.productId := by
  obtain ⟨_, inserted, sub, columns⟩ := upsertRows_column (changeQuantity_key now) _ [] _ _
    inventory.balances.unique done
  intro balance member
  have inColumn : balance.key ∈ result.map StockBalance.key := List.mem_map_of_mem member
  rw [columns StockBalance.key (changeQuantity_key now)] at inColumn
  have key : ∀ other : StockBalance, other.key = balance.key →
      other.warehouseId = balance.warehouseId ∧ other.productId = balance.productId := by
    intro other same
    exact Prod.mk.injEq .. ▸ same
  rcases List.mem_append.mp inColumn with old | new
  · obtain ⟨other, inTable, same⟩ := List.mem_map.mp old
    obtain ⟨warehouse, product⟩ := key other same
    rw [← warehouse, ← product]
    exact inventory.references other inTable
  · obtain ⟨other, inInserted, same⟩ := List.mem_map.mp new
    obtain ⟨warehouse, product⟩ := key other same
    obtain ⟨pair, inPairs, rfl⟩ := List.mem_map.mp (sub.subset inInserted)
    rw [← warehouse, ← product]
    exact explicitPairs_has inPairs

def applyExplicitStocks (inventory : Inventory) (staging : List ValidatedRow) (now : Nat) :
    Option Inventory :=
  match done : inventory.balances.upsert (changeQuantity now) (changeQuantity_key now)
      (explicitBalances inventory staging now) with
  | none => none
  | some balances => some
      { inventory with
        balances := balances
        references := upsertRows_references (Table.upsert_rows done) }

/-- `SET quantity = 0, updated_at = now()`. -/
def clearQuantity (now : Nat) (balance : StockBalance) : StockBalance :=
  { balance with quantity := 0, updatedAt := now }

theorem clearQuantity_key (now : Nat) (balance : StockBalance) :
    (clearQuantity now balance).key = balance.key := rfl

def zeroMissingStocks (inventory : Inventory) (staging : List ValidatedRow) (now : Nat) :
    Inventory :=
  { inventory with
    balances := inventory.balances.updateWhere (isMissing inventory staging) (clearQuantity now)
      (clearQuantity_key now)
    references := by
      intro balance member
      obtain ⟨old, inTable, rfl⟩ := List.mem_map.mp member
      split
      · exact inventory.references old inTable
      · exact inventory.references old inTable }

/-- The statements of `apply`, in order; nothing where one of them fails. -/
def applyStatements (inventory : Inventory) (staging : List ValidatedRow) (now : Nat) :
    Option (Inventory × Counters) :=
  (upsertWarehouses inventory staging now).bind fun inventory =>
    (upsertProducts inventory staging now).bind fun inventory =>
      (applyExplicitStocks inventory staging now).map fun stocked =>
        (zeroMissingStocks stocked staging now, calculateCounters inventory staging)

/-! ## The inventory through its codes -/

def snapshotLayout : Layout ValidatedRow Text Text Text Quantity where
  place := ValidatedRow.warehouseCode
  item := ValidatedRow.sku
  placeName := ValidatedRow.warehouseName
  itemName := ValidatedRow.productName
  quantity := ValidatedRow.quantity
  number := ValidatedRow.lineNumber

def Inventory.balanceOf (inventory : Inventory) (warehouse product : Text) : Option StockBalance :=
  (inventory.warehouses.idOf warehouse).bind fun warehouseId =>
    (inventory.products.idOf product).bind fun productId =>
      inventory.balances.find (warehouseId, productId)

def Inventory.quantityOf (inventory : Inventory) (warehouse product : Text) : Option Quantity :=
  (inventory.balanceOf warehouse product).map StockBalance.quantity

def Inventory.view (inventory : Inventory) : View Text Text Text Quantity where
  quantity := inventory.quantityOf
  placeName := inventory.warehouses.nameOf
  itemName := inventory.products.nameOf

/-- No pair of warehouse and product occurs twice. -/
def DistinctPairs (staging : List ValidatedRow) : Prop :=
  (staging.map fun row => (row.warehouseCode, row.sku)).Nodup

instance (staging : List ValidatedRow) : Decidable (DistinctPairs staging) := by
  unfold DistinctPairs
  infer_instance

theorem upsertWarehouses_spec {inventory after : Inventory} {staging : List ValidatedRow} {now : Nat}
    (done : upsertWarehouses inventory staging now = some after) :
    inventory.warehouses.upsertNames
        (lastNames ValidatedRow.warehouseCode ValidatedRow.warehouseName staging) now =
          some after.warehouses ∧
      after.products = inventory.products ∧ after.balances = inventory.balances := by
  unfold upsertWarehouses at done
  split at done
  · cases done
  · next warehouses shape =>
      cases done
      exact ⟨shape, rfl, rfl⟩

theorem upsertProducts_spec {inventory after : Inventory} {staging : List ValidatedRow} {now : Nat}
    (done : upsertProducts inventory staging now = some after) :
    inventory.products.upsertNames
        (lastNames ValidatedRow.sku ValidatedRow.productName staging) now = some after.products ∧
      after.warehouses = inventory.warehouses ∧ after.balances = inventory.balances := by
  unfold upsertProducts at done
  split at done
  · cases done
  · next products shape =>
      cases done
      exact ⟨shape, rfl, rfl⟩

theorem applyExplicitStocks_spec {inventory after : Inventory} {staging : List ValidatedRow}
    {now : Nat} (done : applyExplicitStocks inventory staging now = some after) :
    inventory.balances.upsert (changeQuantity now) (changeQuantity_key now)
        (explicitBalances inventory staging now) = some after.balances ∧
      after.warehouses = inventory.warehouses ∧ after.products = inventory.products := by
  unfold applyExplicitStocks at done
  split at done
  · cases done
  · next balances shape =>
      cases done
      exact ⟨shape, rfl, rfl⟩

/-- A balance has ids that were in use before the statement. -/
theorem Inventory.find_below (inventory : Inventory) {key : Nat × Nat} {balance : StockBalance}
    (found : inventory.balances.find key = some balance) :
    inventory.warehouses.Has key.1 ∧ inventory.products.Has key.2 := by
  obtain ⟨member, rfl⟩ := (Table.find_eq_some _).mp found
  exact inventory.references balance member

theorem upsertWarehouses_balanceOf {inventory after : Inventory} {staging : List ValidatedRow}
    {now : Nat} (done : upsertWarehouses inventory staging now = some after)
    (warehouse product : Text) :
    after.balanceOf warehouse product = inventory.balanceOf warehouse product := by
  obtain ⟨upserted, products, balances⟩ := upsertWarehouses_spec done
  have distinct := lastNames_nodup ValidatedRow.warehouseCode ValidatedRow.warehouseName staging
  unfold Inventory.balanceOf
  rw [products, balances]
  cases old : inventory.warehouses.idOf warehouse with
  | some id => rw [Catalog.upsertNames_idOf distinct upserted old]
  | none =>
      cases new : after.warehouses.idOf warehouse with
      | none => rfl
      | some id =>
          have fresh := (Catalog.upsertNames_new distinct upserted new old).1
          simp only [Option.bind_some, Option.bind_none, Option.bind_eq_none_iff]
          intro productId _
          cases found : inventory.balances.find (id, productId) with
          | none => rfl
          | some balance =>
              obtain ⟨⟨code, used⟩, _⟩ := inventory.find_below found
              have small := Catalog.idOf_below used
              dsimp only at small
              omega

theorem upsertProducts_balanceOf {inventory after : Inventory} {staging : List ValidatedRow}
    {now : Nat} (done : upsertProducts inventory staging now = some after)
    (warehouse product : Text) :
    after.balanceOf warehouse product = inventory.balanceOf warehouse product := by
  obtain ⟨upserted, warehouses, balances⟩ := upsertProducts_spec done
  have distinct := lastNames_nodup ValidatedRow.sku ValidatedRow.productName staging
  unfold Inventory.balanceOf
  rw [warehouses, balances]
  congr 1
  funext warehouseId
  cases old : inventory.products.idOf product with
  | some id => rw [Catalog.upsertNames_idOf distinct upserted old]
  | none =>
      cases new : after.products.idOf product with
      | none => rfl
      | some id =>
          have fresh := (Catalog.upsertNames_new distinct upserted new old).1
          simp only [Option.bind_some, Option.bind_none]
          cases found : inventory.balances.find (warehouseId, id) with
          | none => rfl
          | some balance =>
              obtain ⟨_, ⟨code, used⟩⟩ := inventory.find_below found
              have small := Catalog.idOf_below used
              dsimp only at small
              omega

/-- The pair of a row whose codes are known. -/
theorem explicitPairs_cons {inventory : Inventory} {row : ValidatedRow}
    {staging : List ValidatedRow} :
    explicitPairs inventory (row :: staging) =
      match inventory.warehouses.idOf row.warehouseCode, inventory.products.idOf row.sku with
      | some warehouseId, some productId =>
          ⟨warehouseId, productId, row.quantity⟩ :: explicitPairs inventory staging
      | _, _ => explicitPairs inventory staging := by
  unfold explicitPairs
  rw [List.filterMap_cons]
  cases inventory.warehouses.idOf row.warehouseCode with
  | none => rfl
  | some warehouseId =>
      cases inventory.products.idOf row.sku with
      | none => rfl
      | some productId => rfl

theorem explicitPairs_find {inventory : Inventory} {warehouse product : Text}
    {warehouseId productId : Nat} (knownWarehouse : inventory.warehouses.idOf warehouse = some warehouseId)
    (knownProduct : inventory.products.idOf product = some productId) :
    ∀ staging : List ValidatedRow,
      ((explicitPairs inventory staging).find? fun pair => pair.key = (warehouseId, productId)).map
          ExplicitPair.quantity = snapshotLayout.listed staging warehouse product := by
  intro staging
  induction staging with
  | nil => rfl
  | cons row staging ih =>
      have same : ∀ id id', inventory.warehouses.idOf row.warehouseCode = some id →
          inventory.products.idOf row.sku = some id' →
            ((id, id') = (warehouseId, productId) ↔
              (row.warehouseCode, row.sku) = (warehouse, product)) := by
        intro id id' first second
        simp only [Prod.mk.injEq]
        constructor
        · rintro ⟨rfl, rfl⟩
          exact ⟨Catalog.idOf_injective first knownWarehouse,
            Catalog.idOf_injective second knownProduct⟩
        · rintro ⟨rfl, rfl⟩
          rw [first] at knownWarehouse
          rw [second] at knownProduct
          exact ⟨Option.some.inj knownWarehouse, Option.some.inj knownProduct⟩
      have unlisted : (row.warehouseCode, row.sku) ≠ (warehouse, product) →
          snapshotLayout.listed (row :: staging) warehouse product =
            snapshotLayout.listed staging warehouse product := by
        intro different
        simp only [Layout.listed, snapshotLayout, List.find?_cons, different, decide_false]
      rw [explicitPairs_cons]
      cases first : inventory.warehouses.idOf row.warehouseCode with
      | none =>
          rw [unlisted]
          · exact ih
          · rintro ⟨rfl, rfl⟩
            rw [knownWarehouse] at first
            cases first
      | some id =>
          cases second : inventory.products.idOf row.sku with
          | none =>
              rw [unlisted]
              · exact ih
              · rintro ⟨rfl, rfl⟩
                rw [knownProduct] at second
                cases second
          | some id' =>
              have keys := same id id' first second
              by_cases pair : (row.warehouseCode, row.sku) = (warehouse, product)
              · have equal := keys.mpr pair
                simp only [List.find?_cons, ExplicitPair.key, equal, decide_true, Option.map_some,
                  Layout.listed, snapshotLayout, pair]
              · have different : (id, id') ≠ (warehouseId, productId) :=
                  fun equal => pair (keys.mp equal)
                rw [unlisted pair, ← ih]
                simp only [List.find?_cons, ExplicitPair.key, different, decide_false]

theorem explicitPairs_nodup {inventory : Inventory} : ∀ staging : List ValidatedRow,
    DistinctPairs staging → ((explicitPairs inventory staging).map ExplicitPair.key).Nodup := by
  intro staging
  induction staging with
  | nil => intro _; exact List.nodup_nil
  | cons row staging ih =>
      intro distinct
      unfold DistinctPairs at distinct ih
      simp only [List.map_cons, List.nodup_cons] at distinct
      have later := ih distinct.2
      rw [explicitPairs_cons]
      split
      · next warehouseId productId first second =>
          simp only [List.map_cons, List.nodup_cons]
          refine ⟨?_, later⟩
          intro again
          obtain ⟨pair, member, same⟩ := List.mem_map.mp again
          obtain ⟨other, inStaging, joined⟩ := List.mem_filterMap.mp member
          simp only [Option.bind_eq_some_iff, Option.map_eq_some_iff] at joined
          obtain ⟨id, warehouse, id', product, rfl⟩ := joined
          simp only [ExplicitPair.key, Prod.mk.injEq] at same
          rw [same.1] at warehouse
          rw [same.2] at product
          refine distinct.1 (List.mem_map.mpr ⟨other, inStaging, ?_⟩)
          rw [Catalog.idOf_injective warehouse first, Catalog.idOf_injective product second]
      · exact later

theorem mem_affectedWarehouses {inventory : Inventory} (staging : List ValidatedRow)
    {warehouse : Text} {warehouseId : Nat}
    (known : inventory.warehouses.idOf warehouse = some warehouseId) :
    warehouseId ∈ affectedWarehouses inventory staging ↔
      snapshotLayout.mentions staging warehouse = true := by
  simp only [affectedWarehouses, List.mem_dedup, List.mem_filterMap, Layout.mentions,
    snapshotLayout, List.any_eq_true]
  constructor
  · rintro ⟨row, member, found⟩
    exact ⟨row, member, decide_eq_true (Catalog.idOf_injective found known)⟩
  · rintro ⟨row, member, same⟩
    have same := of_decide_eq_true same
    exact ⟨row, member, same ▸ known⟩

/-- Every code of the staging is in its catalog. -/
def Known (inventory : Inventory) (staging : List ValidatedRow) : Prop :=
  ∀ row ∈ staging, (∃ id, inventory.warehouses.idOf row.warehouseCode = some id) ∧
    ∃ id, inventory.products.idOf row.sku = some id

theorem unlisted_of_unknown {inventory : Inventory} {staging : List ValidatedRow}
    (known : Known inventory staging) {warehouse product : Text}
    (unknown : inventory.warehouses.idOf warehouse = none ∨
      inventory.products.idOf product = none) :
    snapshotLayout.listed staging warehouse product = none := by
  simp only [Layout.listed, snapshotLayout, Option.map_eq_none_iff, List.find?_eq_none,
    decide_eq_true_eq, Prod.mk.injEq]
  rintro row member ⟨rfl, rfl⟩
  obtain ⟨⟨id, warehouse⟩, id', product⟩ := known row member
  rcases unknown with none | none
  · rw [none] at warehouse; cases warehouse
  · rw [none] at product; cases product

/-- The explicit stocks set the listed pairs and nothing else. -/
theorem applyExplicitStocks_quantityOf {inventory after : Inventory} {staging : List ValidatedRow}
    {now : Nat} (distinct : DistinctPairs staging) (known : Known inventory staging)
    (done : applyExplicitStocks inventory staging now = some after) (warehouse product : Text) :
    after.quantityOf warehouse product =
      (snapshotLayout.listed staging warehouse product).or
        (inventory.quantityOf warehouse product) := by
  obtain ⟨upserted, warehouses, products⟩ := applyExplicitStocks_spec done
  have keys : ((explicitBalances inventory staging now).map StockBalance.key).Nodup := by
    simp only [explicitBalances, List.map_map]
    exact explicitPairs_nodup staging distinct
  unfold Inventory.quantityOf Inventory.balanceOf
  rw [warehouses, products]
  cases first : inventory.warehouses.idOf warehouse with
  | none => simp [unlisted_of_unknown known (Or.inl first)]
  | some warehouseId =>
      cases second : inventory.products.idOf product with
      | none => simp [unlisted_of_unknown known (Or.inr second)]
      | some productId =>
          simp only [Option.bind_some]
          rw [Table.find_upsert keys upserted, ← explicitPairs_find first second staging]
          have source : ((explicitBalances inventory staging now).find? fun balance =>
              balance.key = (warehouseId, productId)) =
                ((explicitPairs inventory staging).find? fun pair =>
                  pair.key = (warehouseId, productId)).map fun pair =>
                    ⟨pair.warehouseId, pair.productId, pair.quantity, now, now⟩ := by
            rw [explicitBalances, List.find?_map]
            rfl
          rw [source]
          cases (explicitPairs inventory staging).find? fun pair =>
              pair.key = (warehouseId, productId) with
          | none => simp [Tables.upserted]
          | some pair =>
              cases inventory.balances.find (warehouseId, productId) with
              | none => simp [Tables.upserted]
              | some old =>
                  simp only [Tables.upserted, Option.map_some, Option.some_or, changeQuantity]
                  split
                  · next same => simp [same]
                  · simp

/-- The zeroing clears the pairs of the mentioned warehouses that are not listed. -/
theorem zeroMissingStocks_quantityOf (inventory : Inventory) (staging : List ValidatedRow)
    (now : Nat) (warehouse product : Text) :
    (zeroMissingStocks inventory staging now).quantityOf warehouse product =
      if snapshotLayout.mentions staging warehouse = true ∧
          snapshotLayout.listed staging warehouse product = none then
        (inventory.quantityOf warehouse product).map fun _ => 0
      else inventory.quantityOf warehouse product := by
  unfold Inventory.quantityOf Inventory.balanceOf
  have warehouses : (zeroMissingStocks inventory staging now).warehouses =
    inventory.warehouses := rfl
  have products : (zeroMissingStocks inventory staging now).products = inventory.products := rfl
  rw [warehouses, products]
  cases first : inventory.warehouses.idOf warehouse with
  | none => simp
  | some warehouseId =>
      cases second : inventory.products.idOf product with
      | none => simp
      | some productId =>
          simp only [Option.bind_some, zeroMissingStocks]
          rw [Table.find_updateWhere]
          cases found : inventory.balances.find (warehouseId, productId) with
          | none => simp
          | some balance =>
              have key : balance.key = (warehouseId, productId) :=
                ((Table.find_eq_some _).mp found).2
              have affected := mem_affectedWarehouses staging first
              have listed := explicitPairs_find first second staging
              have ids : balance.warehouseId = warehouseId := congrArg Prod.fst key
              have present : ((explicitPairs inventory staging).any fun present =>
                  present.key = balance.key) =
                    (snapshotLayout.listed staging warehouse product).isSome := by
                rw [← listed, key, Option.isSome_map, List.isSome_find?]
              simp only [Option.map_some, isMissing, ids, present]
              by_cases mentioned : snapshotLayout.mentions staging warehouse = true
              · have inAffected := affected.mpr mentioned
                cases snapshotLayout.listed staging warehouse product with
                | some quantity => simp
                | none =>
                    by_cases zero : balance.quantity = 0
                    · simp [zero]
                    · simp [inAffected, mentioned, zero, clearQuantity]
              · have notAffected : ¬ warehouseId ∈ affectedWarehouses inventory staging :=
                  fun member => mentioned (affected.mp member)
                simp [mentioned, notAffected]

theorem lastName_eq (code name : ValidatedRow → Text) (staging : List ValidatedRow)
    {catalog catalog' : Catalog} {now : Nat}
    (done : catalog.upsertNames (lastNames code name staging) now = some catalog') (k : Text) :
    catalog'.nameOf k =
      ((lastOf code ValidatedRow.lineNumber staging k).map name).or (catalog.nameOf k) := by
  rw [Catalog.upsertNames_nameOf (lastNames_nodup code name staging) done, lastNames_find]

/-- Read through its codes, an apply is the application of the snapshot. -/
theorem applyStatements_view {inventory after : Inventory} {staging : List ValidatedRow}
    {now : Nat} {counters : Counters} (distinct : DistinctPairs staging)
    (done : applyStatements inventory staging now = some (after, counters)) :
    after.view = snapshotLayout.apply staging inventory.view := by
  simp only [applyStatements, Option.bind_eq_some_iff, Option.map_eq_some_iff,
    Prod.mk.injEq] at done
  obtain ⟨first, warehouses, second, products, third, stocks, rfl, _⟩ := done
  obtain ⟨warehousesUpserted, keptProducts, _⟩ := upsertWarehouses_spec warehouses
  obtain ⟨productsUpserted, keptWarehouses, _⟩ := upsertProducts_spec products
  obtain ⟨_, stockedWarehouses, stockedProducts⟩ := applyExplicitStocks_spec stocks
  have known : Known second staging := by
    intro row member
    rw [keptWarehouses]
    exact ⟨Catalog.upsertNames_listed (lastNames_nodup _ _ _) warehousesUpserted
        (mem_lastNames.mpr ⟨row, member, rfl⟩),
      Catalog.upsertNames_listed (lastNames_nodup _ _ _) productsUpserted
        (mem_lastNames.mpr ⟨row, member, rfl⟩)⟩
  apply View.ext
  · intro warehouse product
    have before : second.quantityOf warehouse product =
        inventory.quantityOf warehouse product := by
      unfold Inventory.quantityOf
      rw [upsertProducts_balanceOf products, upsertWarehouses_balanceOf warehouses]
    simp only [Inventory.view, Layout.apply]
    rw [zeroMissingStocks_quantityOf, applyExplicitStocks_quantityOf distinct known stocks, before]
    cases snapshotLayout.listed staging warehouse product with
    | some quantity => simp
    | none => simp
  · intro warehouse
    simp only [Inventory.view, Layout.apply, zeroMissingStocks]
    rw [stockedWarehouses, keptWarehouses]
    exact lastName_eq _ _ staging warehousesUpserted warehouse
  · intro product
    simp only [Inventory.view, Layout.apply, zeroMissingStocks]
    rw [stockedProducts, lastName_eq _ _ staging productsUpserted product, keptProducts]
    rfl

/-- Distinct pairs are enough for the statements to succeed. -/
theorem applyStatements_some (inventory : Inventory) {staging : List ValidatedRow} (now : Nat)
    (distinct : DistinctPairs staging) :
    ∃ after counters, applyStatements inventory staging now = some (after, counters) := by
  have first : ∃ after, upsertWarehouses inventory staging now = some after := by
    obtain ⟨warehouses, done⟩ := inventory.warehouses.upsertNames_some now
      (lastNames_nodup ValidatedRow.warehouseCode ValidatedRow.warehouseName staging)
    unfold upsertWarehouses
    split
    · next failed => rw [done] at failed; cases failed
    · exact ⟨_, rfl⟩
  obtain ⟨after, warehouses⟩ := first
  have second : ∃ after', upsertProducts after staging now = some after' := by
    obtain ⟨products, done⟩ := after.products.upsertNames_some now
      (lastNames_nodup ValidatedRow.sku ValidatedRow.productName staging)
    unfold upsertProducts
    split
    · next failed => rw [done] at failed; cases failed
    · exact ⟨_, rfl⟩
  obtain ⟨after', products⟩ := second
  have third : ∃ stocked, applyExplicitStocks after' staging now = some stocked := by
    obtain ⟨balances, done⟩ := after'.balances.upsert_some (changeQuantity_key now)
      (explicitBalances after' staging now)
      (by
        rw [explicitBalances, List.map_map]
        exact explicitPairs_nodup staging distinct)
    unfold applyExplicitStocks
    split
    · next failed => rw [done] at failed; cases failed
    · exact ⟨_, rfl⟩
  obtain ⟨stocked, stocks⟩ := third
  refine ⟨zeroMissingStocks stocked staging now, calculateCounters after' staging, ?_⟩
  simp [applyStatements, warehouses, products, stocks]

theorem countP_disjoint_le {Row : Type} (first second : Row → Bool)
    (apart : ∀ row, first row = true → second row = false) : ∀ rows : List Row,
      rows.countP first + rows.countP second ≤ rows.length := by
  intro rows
  induction rows with
  | nil => simp
  | cons row rows ih =>
      simp only [List.countP_cons, List.length_cons]
      cases hit : first row with
      | false =>
          simp only [Bool.false_eq_true, if_false]
          split <;> omega
      | true =>
          rw [apart row hit]
          simp only [if_true, Bool.false_eq_true, if_false]
          omega

/-- Created and updated pairs are different rows of the staging. -/
theorem applyStatements_counters {inventory after : Inventory} {staging : List ValidatedRow}
    {now : Nat} {counters : Counters}
    (done : applyStatements inventory staging now = some (after, counters)) :
    counters.stocksCreated + counters.stocksUpdated ≤ staging.length := by
  simp only [applyStatements, Option.bind_eq_some_iff, Option.map_eq_some_iff,
    Prod.mk.injEq] at done
  obtain ⟨first, _, second, _, third, _, _, rfl⟩ := done
  have pairs : (explicitPairs second staging).length ≤ staging.length :=
    List.length_filterMap_le _ _
  have disjoint := countP_disjoint_le
    (fun pair : ExplicitPair => (second.balances.find pair.key).isNone)
    (fun pair : ExplicitPair =>
      (second.balances.find pair.key).any fun balance => balance.quantity != pair.quantity)
    (fun pair absent => by rw [Option.isNone_iff_eq_none] at absent; simp [absent])
    (explicitPairs second staging)
  simp only [calculateCounters]
  omega

end StockImport.Db

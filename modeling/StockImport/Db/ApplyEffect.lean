import StockImport.Db.Inventory

/-!
# One apply

What the four statements leave of each row of `warehouses`, `products` and
`stock_balances`: the row that a key had before, the row that the staging gives it,
and the time of the change where there was one.
-/

set_option autoImplicit false

namespace StockImport.Db

open PyText Tables Csv Snapshots

/-! ## The states in between -/

/-- The inventory after both catalog upserts, which the counters and the explicit
stocks are computed from. -/
structure Joined (before : Inventory) (staging : List ValidatedRow) (now : Nat)
    (joined : Inventory) : Prop where
  statements : ∃ first, upsertWarehouses before staging now = some first ∧
    upsertProducts first staging now = some joined
  warehouses : before.warehouses.upsertNames
    (lastNames ValidatedRow.warehouseCode ValidatedRow.warehouseName staging) now =
      some joined.warehouses
  products : before.products.upsertNames
    (lastNames ValidatedRow.sku ValidatedRow.productName staging) now = some joined.products
  balances : joined.balances = before.balances
  balanceOf : ∀ warehouse product, joined.balanceOf warehouse product =
    before.balanceOf warehouse product

theorem applyStatements_cases {before after : Inventory} {staging : List ValidatedRow}
    {now : Nat} {counters : Counters}
    (done : applyStatements before staging now = some (after, counters)) :
    ∃ joined stocked, Joined before staging now joined ∧
      applyExplicitStocks joined staging now = some stocked ∧
      after = zeroMissingStocks stocked staging now ∧
      counters = calculateCounters joined staging := by
  simp only [applyStatements, Option.bind_eq_some_iff, Option.map_eq_some_iff,
    Prod.mk.injEq] at done
  obtain ⟨first, warehouses, second, products, third, stocks, rfl, rfl⟩ := done
  obtain ⟨warehousesUpserted, keptProducts, keptBalances⟩ := upsertWarehouses_spec warehouses
  obtain ⟨productsUpserted, keptWarehouses, keptBalances'⟩ := upsertProducts_spec products
  refine ⟨second, third, ⟨⟨first, warehouses, products⟩, ?_, ?_, ?_, ?_⟩, stocks, rfl, rfl⟩
  · rw [keptWarehouses]
    exact warehousesUpserted
  · rw [← keptProducts]
    exact productsUpserted
  · rw [keptBalances', keptBalances]
  · intro warehouse product
    rw [upsertProducts_balanceOf products, upsertWarehouses_balanceOf warehouses]

theorem Joined.known {before joined : Inventory} {staging : List ValidatedRow} {now : Nat}
    (state : Joined before staging now joined) : Known joined staging := by
  intro row member
  exact ⟨Catalog.upsertNames_listed (lastNames_nodup _ _ _) state.warehouses
      (mem_lastNames.mpr ⟨row, member, rfl⟩),
    Catalog.upsertNames_listed (lastNames_nodup _ _ _) state.products
      (mem_lastNames.mpr ⟨row, member, rfl⟩)⟩

/-- The joins with the catalogs depend on nothing else. -/
theorem explicitPairs_congr {inventory other : Inventory} (staging : List ValidatedRow)
    (warehouses : inventory.warehouses = other.warehouses)
    (products : inventory.products = other.products) :
    explicitPairs inventory staging = explicitPairs other staging := by
  unfold explicitPairs
  rw [warehouses, products]

theorem affectedWarehouses_congr {inventory other : Inventory} (staging : List ValidatedRow)
    (warehouses : inventory.warehouses = other.warehouses) :
    affectedWarehouses inventory staging = affectedWarehouses other staging := by
  unfold affectedWarehouses
  rw [warehouses]

theorem isMissing_congr {inventory other : Inventory} (staging : List ValidatedRow)
    (warehouses : inventory.warehouses = other.warehouses)
    (products : inventory.products = other.products) :
    isMissing inventory staging = isMissing other staging := by
  funext balance
  unfold isMissing
  rw [explicitPairs_congr staging warehouses products, affectedWarehouses_congr staging warehouses]

/-- The pair that the staging gives a key. -/
def explicitOf (joined : Inventory) (staging : List ValidatedRow) (key : Nat × Nat) :
    Option ExplicitPair :=
  (explicitPairs joined staging).find? fun pair => pair.key = key

/-- The balance of a key after the explicit stocks. -/
def stockedBalance (now : Nat) (pair : Option ExplicitPair) (old : Option StockBalance) :
    Option StockBalance :=
  match pair, old with
  | none, old => old
  | some pair, none => some ⟨pair.warehouseId, pair.productId, pair.quantity, now, now⟩
  | some pair, some old => some
      (if old.quantity = pair.quantity then old
      else { old with quantity := pair.quantity, updatedAt := now })

theorem applyExplicitStocks_find {joined stocked : Inventory} {staging : List ValidatedRow}
    {now : Nat} (distinct : DistinctPairs staging)
    (done : applyExplicitStocks joined staging now = some stocked) (key : Nat × Nat) :
    stocked.balances.find key =
      stockedBalance now (explicitOf joined staging key) (joined.balances.find key) := by
  obtain ⟨upserted, _, _⟩ := applyExplicitStocks_spec done
  have keys : ((explicitBalances joined staging now).map StockBalance.key).Nodup := by
    simp only [explicitBalances, List.map_map]
    exact explicitPairs_nodup staging distinct
  have source : ((explicitBalances joined staging now).find? fun balance => balance.key = key) =
      (explicitOf joined staging key).map fun pair =>
        ⟨pair.warehouseId, pair.productId, pair.quantity, now, now⟩ := by
    rw [explicitBalances, List.find?_map]
    rfl
  rw [Table.find_upsert keys upserted, source]
  cases explicitOf joined staging key with
  | none => rfl
  | some pair =>
      cases joined.balances.find key with
      | none => rfl
      | some old =>
          simp only [Option.map_some, Tables.upserted, changeQuantity, stockedBalance]
          split
          · rfl
          · rfl

/-- The balance of a key after the zeroing. -/
theorem applied_find {before joined stocked after : Inventory} {staging : List ValidatedRow}
    {now : Nat} (distinct : DistinctPairs staging) (state : Joined before staging now joined)
    (stocks : applyExplicitStocks joined staging now = some stocked)
    (zeroed : after = zeroMissingStocks stocked staging now) (key : Nat × Nat) :
    after.balances.find key =
      (stockedBalance now (explicitOf joined staging key) (before.balances.find key)).map
        fun balance => if isMissing joined staging balance then clearQuantity now balance
          else balance := by
  obtain ⟨_, warehouses, products⟩ := applyExplicitStocks_spec stocks
  rw [zeroed, zeroMissingStocks, Table.find_updateWhere,
    applyExplicitStocks_find distinct stocks, state.balances,
    isMissing_congr staging warehouses products]

theorem explicitOf_key {joined : Inventory} {staging : List ValidatedRow} {key : Nat × Nat}
    {pair : ExplicitPair} (given : explicitOf joined staging key = some pair) : pair.key = key := by
  simpa using List.find?_some given

theorem stockedBalance_key {now : Nat} {pair : ExplicitPair} {key : Nat × Nat}
    (given : pair.key = key) {table : Table StockBalance StockBalance.key} {balance : StockBalance}
    (stocked : stockedBalance now (some pair) (table.find key) = some balance) :
    balance.key = key := by
  cases found : table.find key with
  | none =>
      rw [found] at stocked
      cases stocked
      exact given
  | some old =>
      have oldKey := ((Table.find_eq_some _).mp found).2
      rw [found] at stocked
      simp only [stockedBalance, Option.some.injEq] at stocked
      rw [← stocked]
      split
      · exact oldKey
      · exact oldKey

section Final

variable {before joined stocked after : Inventory} {staging : List ValidatedRow} {now : Nat}

/-- A staged pair gets its quantity, and the zeroing passes it over. -/
theorem applied_listed (distinct : DistinctPairs staging) (state : Joined before staging now joined)
    (stocks : applyExplicitStocks joined staging now = some stocked)
    (zeroed : after = zeroMissingStocks stocked staging now) {key : Nat × Nat}
    {pair : ExplicitPair} (given : explicitOf joined staging key = some pair) :
    after.balances.find key = stockedBalance now (some pair) (before.balances.find key) := by
  rw [applied_find distinct state stocks zeroed, given]
  cases shape : stockedBalance now (some pair) (before.balances.find key) with
  | none => rfl
  | some balance =>
      have balanceKey := stockedBalance_key (explicitOf_key given) shape
      have present : ((explicitPairs joined staging).any fun present =>
          present.key = balance.key) = true := by
        rw [List.any_eq_true]
        exact ⟨pair, List.mem_of_find?_eq_some given,
          decide_eq_true ((explicitOf_key given).trans balanceKey.symm)⟩
      have passed : isMissing joined staging balance = false := by
        rw [isMissing, present]
        simp
      rw [Option.map_some, passed]
      rfl

/-- Any other balance of a staged warehouse is cleared, and that of another warehouse
stays as it is. -/
theorem applied_unlisted (distinct : DistinctPairs staging)
    (state : Joined before staging now joined)
    (stocks : applyExplicitStocks joined staging now = some stocked)
    (zeroed : after = zeroMissingStocks stocked staging now) {key : Nat × Nat}
    (absent : explicitOf joined staging key = none) :
    after.balances.find key = (before.balances.find key).map fun old =>
      if key.1 ∈ affectedWarehouses joined staging ∧ old.quantity ≠ 0 then clearQuantity now old
      else old := by
  rw [applied_find distinct state stocks zeroed, absent]
  cases found : before.balances.find key with
  | none => rfl
  | some old =>
      have oldKey := ((Table.find_eq_some _).mp found).2
      have missing : ((explicitPairs joined staging).any fun present =>
          present.key = old.key) = false := by
        rw [oldKey, ← Bool.not_eq_true, List.any_eq_true]
        rintro ⟨pair, member, same⟩
        exact List.find?_eq_none.mp absent pair member same
      have warehouse : old.warehouseId = key.1 := congrArg Prod.fst oldKey
      have selected : isMissing joined staging old =
          decide (key.1 ∈ affectedWarehouses joined staging ∧ old.quantity ≠ 0) := by
        rw [isMissing, missing, warehouse, Bool.eq_iff_iff]
        simp
      simp only [stockedBalance, Option.map_some, selected, decide_eq_true_eq]

end Final

/-! ## What an apply leaves -/

/-- A time of the last change: `now` where there was a change, and else as before. -/
structure Stamped (now : Nat) (changed : Prop) (before after : Nat) : Prop where
  set : changed → after = now
  kept : ¬ changed → after = before

/-- A catalog after its upsert. -/
structure CatalogApplied (before after : Catalog) (code name : ValidatedRow → Text)
    (staging : List ValidatedRow) (now : Nat) : Prop where
  ids : ∀ k id, before.idOf k = some id → after.idOf k = some id
  once : ∀ row ∈ staging, (after.table.rows.map CatalogRow.code).count (code row) = 1
  named : ∀ row ∈ staging,
    (∀ other ∈ staging, code other = code row → other.lineNumber ≤ row.lineNumber) →
      after.nameOf (code row) = some (name row)
  others : ∀ k, (∀ row ∈ staging, code row ≠ k) → after.table.find k = before.table.find k
  stamped : ∀ k old, before.table.find k = some old →
    ∃ new, after.table.find k = some new ∧ new.createdAt = old.createdAt ∧
      Stamped now (new.name ≠ old.name) old.updatedAt new.updatedAt
  created : ∀ k new, before.table.find k = none → after.table.find k = some new →
    new.createdAt = now ∧ new.updatedAt = now

theorem proposedRows_stamps (now : Nat) : ∀ (names : List (Text × Text)) (nextId : Nat),
    ∀ row ∈ proposedRows now nextId names, row.createdAt = now ∧ row.updatedAt = now := by
  intro names
  induction names with
  | nil =>
      intro nextId row member
      cases member
  | cons first rest ih =>
      intro nextId row member
      simp only [proposedRows, List.mem_cons] at member
      rcases member with rfl | later
      · exact ⟨rfl, rfl⟩
      · exact ih (nextId + 1) row later

theorem renamed_stamped (now : Nat) (old new : CatalogRow) :
    ((renameRow now old new).getD old).createdAt = old.createdAt ∧
      Stamped now (((renameRow now old new).getD old).name ≠ old.name) old.updatedAt
        ((renameRow now old new).getD old).updatedAt := by
  unfold renameRow
  split
  · exact ⟨rfl, fun different => absurd rfl different, fun _ => rfl⟩
  · next different => exact ⟨rfl, fun _ => rfl, fun same => absurd (not_not.mp same).symm different⟩

theorem catalog_applied {before after : Catalog} {code name : ValidatedRow → Text}
    {staging : List ValidatedRow} {now : Nat} (lines : (staging.map ValidatedRow.lineNumber).Nodup)
    (done : before.upsertNames (lastNames code name staging) now = some after) :
    CatalogApplied before after code name staging now where
  ids k id found := Catalog.upsertNames_idOf (lastNames_nodup _ _ _) done found
  once row member := by
    obtain ⟨id, found⟩ := Catalog.upsertNames_listed (lastNames_nodup code name staging) done
      (mem_lastNames.mpr ⟨row, member, rfl⟩)
    obtain ⟨entry, inTable, same, _⟩ := Catalog.idOf_eq_some.mp found
    exact List.count_eq_one_of_mem after.table.unique (same ▸ List.mem_map_of_mem inTable)
  named row member highest := by
    rw [lastName_eq code name staging done]
    cases last : lastOf code ValidatedRow.lineNumber staging (code row) with
    | none => exact absurd rfl (lastOf_eq_none.mp last row member)
    | some other =>
        obtain ⟨inStaging, same, greatest⟩ := lastOf_eq_some last
        have line : other.lineNumber = row.lineNumber :=
          Nat.le_antisymm (highest other inStaging same) (greatest row member rfl)
        rw [List.inj_on_of_nodup_map lines inStaging member line]
        rfl
  others k absent := by
    rw [Catalog.upsertNames_find (lastNames_nodup code name staging) done]
    cases proposed : (proposedRows now before.nextId (lastNames code name staging)).find?
        fun row => row.code = k with
    | none => rfl
    | some new =>
        have newCode : new.code = k := by simpa using List.find?_some proposed
        have listed : k ∈ (lastNames code name staging).map Prod.fst := by
          rw [← proposedRows_codes now _ before.nextId, ← newCode]
          exact List.mem_map_of_mem (List.mem_of_find?_eq_some proposed)
        obtain ⟨row, member, same⟩ := mem_lastNames.mp listed
        exact absurd same (absent row member)
  stamped k old found := by
    rw [Catalog.upsertNames_find (lastNames_nodup code name staging) done, found]
    cases (proposedRows now before.nextId (lastNames code name staging)).find?
        fun row => row.code = k with
    | none => exact ⟨old, rfl, rfl, fun different => absurd rfl different, fun _ => rfl⟩
    | some new =>
        exact ⟨_, rfl, (renamed_stamped now old new).1, (renamed_stamped now old new).2⟩
  created k new absent found := by
    rw [Catalog.upsertNames_find (lastNames_nodup code name staging) done, absent] at found
    cases proposed : (proposedRows now before.nextId (lastNames code name staging)).find?
        fun row => row.code = k with
    | none =>
        rw [proposed] at found
        cases found
    | some row =>
        rw [proposed] at found
        cases found
        exact proposedRows_stamps now _ _ _ (List.mem_of_find?_eq_some proposed)

/-- The keys and references of the three tables. -/
structure Inventory.Intact (inventory : Inventory) : Prop where
  codes : (inventory.warehouses.table.rows.map CatalogRow.code).Nodup
  skus : (inventory.products.table.rows.map CatalogRow.code).Nodup
  warehouseIds : (inventory.warehouses.table.rows.map CatalogRow.id).Nodup
  productIds : (inventory.products.table.rows.map CatalogRow.id).Nodup
  pairs : (inventory.balances.rows.map StockBalance.key).Nodup
  references : ∀ balance ∈ inventory.balances.rows,
    balance.warehouseId ∈ inventory.warehouses.table.rows.map CatalogRow.id ∧
      balance.productId ∈ inventory.products.table.rows.map CatalogRow.id
  nonneg : ∀ balance ∈ inventory.balances.rows, 0 ≤ balance.quantity.value

theorem Catalog.Has.mem_ids {catalog : Catalog} {id : Nat} (has : catalog.Has id) :
    id ∈ catalog.table.rows.map CatalogRow.id := by
  obtain ⟨code, found⟩ := has
  obtain ⟨row, member, _, same⟩ := Catalog.idOf_eq_some.mp found
  exact same ▸ List.mem_map_of_mem member

theorem Inventory.intact (inventory : Inventory) : inventory.Intact where
  codes := inventory.warehouses.table.unique
  skus := inventory.products.table.unique
  warehouseIds := inventory.warehouses.ids
  productIds := inventory.products.ids
  pairs := inventory.balances.unique
  references balance member :=
    ⟨(inventory.references balance member).1.mem_ids,
      (inventory.references balance member).2.mem_ids⟩
  nonneg balance _ := balance.quantity.nonneg

/-- The inventory after the apply of a staging. -/
structure Applied (before after : Inventory) (staging : List ValidatedRow) (now : Nat) :
    Prop where
  warehouses : CatalogApplied before.warehouses after.warehouses ValidatedRow.warehouseCode
    ValidatedRow.warehouseName staging now
  products : CatalogApplied before.products after.products ValidatedRow.sku
    ValidatedRow.productName staging now
  staged : ∀ row ∈ staging, after.quantityOf row.warehouseCode row.sku = some row.quantity
  zeroed : ∀ warehouse product old, before.quantityOf warehouse product = some old →
    (∃ row ∈ staging, row.warehouseCode = warehouse) →
    (∀ row ∈ staging, (row.warehouseCode, row.sku) ≠ (warehouse, product)) →
      after.quantityOf warehouse product = some 0
  untouched : ∀ warehouse product, (∀ row ∈ staging, row.warehouseCode ≠ warehouse) →
    after.balanceOf warehouse product = before.balanceOf warehouse product
  kept : ∀ key old, before.balances.find key = some old →
    ∃ new, after.balances.find key = some new ∧ new.createdAt = old.createdAt ∧
      Stamped now (new.quantity ≠ old.quantity) old.updatedAt new.updatedAt
  created : ∀ key new, before.balances.find key = none → after.balances.find key = some new →
    new.createdAt = now ∧ new.updatedAt = now ∧
      ∃ row ∈ staging, after.warehouses.idOf row.warehouseCode = some key.1 ∧
        after.products.idOf row.sku = some key.2
  intact : after.Intact

/-! ## The balances -/

section Balances

variable {before joined stocked after : Inventory} {staging : List ValidatedRow} {now : Nat}

theorem stockedBalance_stamped (pair : ExplicitPair) (old : StockBalance) :
    ∃ new, stockedBalance now (some pair) (some old) = some new ∧
      new.createdAt = old.createdAt ∧
      Stamped now (new.quantity ≠ old.quantity) old.updatedAt new.updatedAt := by
  unfold stockedBalance
  dsimp only
  split
  · exact ⟨_, rfl, rfl, fun different => absurd rfl different, fun _ => rfl⟩
  · next different =>
      exact ⟨_, rfl, rfl, fun _ => rfl, fun same => absurd (not_not.mp same).symm different⟩

theorem applied_kept (distinct : DistinctPairs staging) (state : Joined before staging now joined)
    (stocks : applyExplicitStocks joined staging now = some stocked)
    (zeroed : after = zeroMissingStocks stocked staging now) {key : Nat × Nat}
    {old : StockBalance} (found : before.balances.find key = some old) :
    ∃ new, after.balances.find key = some new ∧ new.createdAt = old.createdAt ∧
      Stamped now (new.quantity ≠ old.quantity) old.updatedAt new.updatedAt := by
  cases given : explicitOf joined staging key with
  | some pair =>
      rw [applied_listed distinct state stocks zeroed given, found]
      exact stockedBalance_stamped pair old
  | none =>
      rw [applied_unlisted distinct state stocks zeroed given, found]
      refine ⟨_, rfl, ?_⟩
      dsimp only
      split
      · next cleared =>
          exact ⟨rfl, fun _ => rfl, fun same => absurd (not_not.mp same).symm cleared.2⟩
      · exact ⟨rfl, fun different => absurd rfl different, fun _ => rfl⟩

theorem applied_created (distinct : DistinctPairs staging)
    (state : Joined before staging now joined)
    (stocks : applyExplicitStocks joined staging now = some stocked)
    (zeroed : after = zeroMissingStocks stocked staging now) {key : Nat × Nat}
    {new : StockBalance} (absent : before.balances.find key = none)
    (found : after.balances.find key = some new) :
    new.createdAt = now ∧ new.updatedAt = now ∧
      ∃ row ∈ staging, joined.warehouses.idOf row.warehouseCode = some key.1 ∧
        joined.products.idOf row.sku = some key.2 := by
  cases given : explicitOf joined staging key with
  | none =>
      rw [applied_unlisted distinct state stocks zeroed given, absent] at found
      cases found
  | some pair =>
      rw [applied_listed distinct state stocks zeroed given, absent] at found
      cases found
      obtain ⟨row, inStaging, join⟩ :=
        List.mem_filterMap.mp (List.mem_of_find?_eq_some given)
      simp only [Option.bind_eq_some_iff, Option.map_eq_some_iff] at join
      obtain ⟨warehouseId, warehouse, productId, product, shape⟩ := join
      have key' := explicitOf_key given
      rw [← shape] at key'
      exact ⟨rfl, rfl, row, inStaging, key' ▸ warehouse, key' ▸ product⟩

end Balances

/-! ## The quantities -/

theorem listed_of_mem {staging : List ValidatedRow} (distinct : DistinctPairs staging)
    {row : ValidatedRow} (member : row ∈ staging) :
    snapshotLayout.listed staging row.warehouseCode row.sku = some row.quantity := by
  have unique : (staging.map fun row : ValidatedRow => (row.warehouseCode, row.sku)).Nodup :=
    distinct
  have found : (staging.find? fun other =>
      (other.warehouseCode, other.sku) = (row.warehouseCode, row.sku)) = some row :=
    (find?_key_eq_some unique).mpr ⟨member, rfl⟩
  exact congrArg (Option.map ValidatedRow.quantity) found

theorem listed_eq_none_of_forall {staging : List ValidatedRow} {warehouse product : Text}
    (absent : ∀ row ∈ staging, (row.warehouseCode, row.sku) ≠ (warehouse, product)) :
    snapshotLayout.listed staging warehouse product = none := by
  simp only [Layout.listed, snapshotLayout, Option.map_eq_none_iff, List.find?_eq_none]
  intro row member hit
  exact absent row member (of_decide_eq_true hit)

theorem mentions_of_mem {staging : List ValidatedRow} {row : ValidatedRow} (member : row ∈ staging) :
    snapshotLayout.mentions staging row.warehouseCode = true := by
  rw [Layout.mentions, List.any_eq_true]
  exact ⟨row, member, decide_eq_true rfl⟩

theorem mentions_eq_false {staging : List ValidatedRow} {warehouse : Text}
    (absent : ∀ row ∈ staging, row.warehouseCode ≠ warehouse) :
    snapshotLayout.mentions staging warehouse = false := by
  rw [Layout.mentions, List.any_eq_false]
  intro row member hit
  exact absent row member (of_decide_eq_true hit)

/-- The balances of a warehouse that is not in the staging are left as they are. -/
theorem applied_untouched {before joined stocked after : Inventory} {staging : List ValidatedRow}
    {now : Nat} (distinct : DistinctPairs staging) (state : Joined before staging now joined)
    (stocks : applyExplicitStocks joined staging now = some stocked)
    (zeroed : after = zeroMissingStocks stocked staging now) {warehouse product : Text}
    (absent : ∀ row ∈ staging, row.warehouseCode ≠ warehouse) :
    after.balanceOf warehouse product = before.balanceOf warehouse product := by
  obtain ⟨_, keptWarehouses, keptProducts⟩ := applyExplicitStocks_spec stocks
  rw [← state.balanceOf warehouse product]
  unfold Inventory.balanceOf
  rw [zeroed]
  change (stocked.warehouses.idOf warehouse).bind _ = _
  rw [keptWarehouses]
  cases first : joined.warehouses.idOf warehouse with
  | none => rfl
  | some warehouseId =>
      change ((stocked.products.idOf product).bind _) = _
      rw [keptProducts]
      cases second : joined.products.idOf product with
      | none => rfl
      | some productId =>
          have unlisted : explicitOf joined staging (warehouseId, productId) = none := by
            have listed := explicitPairs_find first second staging
            rw [listed_eq_none_of_forall fun row member same =>
              absent row member (congrArg Prod.fst same), Option.map_eq_none_iff] at listed
            exact listed
          have unaffected : warehouseId ∉ affectedWarehouses joined staging := by
            rw [mem_affectedWarehouses staging first, mentions_eq_false absent]
            simp
          simp only [Option.bind_some]
          rw [← zeroed, applied_unlisted distinct state stocks zeroed unlisted, state.balances]
          simp [unaffected]

/-- One apply, for every inventory and every staging with distinct lines and pairs; that the
codes fit into their indexes is assumed (see `storableText`). -/
theorem apply_end_to_end (before : Inventory) (staging : List ValidatedRow) (now : Nat)
    (lines : (staging.map ValidatedRow.lineNumber).Nodup) (distinct : DistinctPairs staging) :
    ∃ after counters, applyStatements before staging now = some (after, counters) ∧
      Applied before after staging now := by
  obtain ⟨after, counters, done⟩ := applyStatements_some before now distinct
  obtain ⟨joined, stocked, state, stocks, zeroed, _⟩ := applyStatements_cases done
  obtain ⟨_, keptWarehouses, keptProducts⟩ := applyExplicitStocks_spec stocks
  have warehouses : after.warehouses = joined.warehouses := by
    rw [zeroed]
    exact keptWarehouses
  have products : after.products = joined.products := by
    rw [zeroed]
    exact keptProducts
  have view := applyStatements_view distinct done
  have quantities : ∀ warehouse product, after.quantityOf warehouse product =
      (snapshotLayout.apply staging before.view).quantity warehouse product := by
    intro warehouse product
    rw [← view]
    rfl
  refine ⟨after, counters, done, ?_, ?_, ?_, ?_, ?_, ?_, ?_, after.intact⟩
  · rw [warehouses]
    exact catalog_applied lines state.warehouses
  · rw [products]
    exact catalog_applied lines state.products
  · intro row member
    rw [quantities]
    simp only [Layout.apply, listed_of_mem distinct member]
  · intro warehouse product old found listed absent
    obtain ⟨row, member, rfl⟩ := listed
    rw [quantities]
    simp only [Layout.apply, listed_eq_none_of_forall absent, mentions_of_mem member, if_true]
    exact congrArg (Option.map fun _ => 0) found
  · intro warehouse product absent
    exact applied_untouched distinct state stocks zeroed absent
  · intro key old found
    exact applied_kept distinct state stocks zeroed found
  · intro key new absent found
    rw [warehouses, products]
    exact applied_created distinct state stocks zeroed absent found

/-- Two products of one warehouse, the second of them named again in another. -/
def sampleStaging : List ValidatedRow :=
  [⟨2, ofString "W", ofString "west", ofString "S", ofString "screw", ⟨5, by decide, by decide⟩⟩,
    ⟨3, ofString "W", ofString "west", ofString "T", ofString "tack", 0⟩,
    ⟨4, ofString "E", ofString "east", ofString "T", ofString "thumbtack",
      ⟨7, by decide, by decide⟩⟩]

/-- What the stocks come from: one pair that the sample gives another quantity, one that
it gives the same, one that it leaves out, and a warehouse that it does not speak of. -/
def openingStaging : List ValidatedRow :=
  [⟨2, ofString "W", ofString "depot", ofString "S", ofString "screw", ⟨3, by decide, by decide⟩⟩,
    ⟨3, ofString "W", ofString "depot", ofString "T", ofString "tack", 0⟩,
    ⟨4, ofString "W", ofString "depot", ofString "U", ofString "nut",
      ⟨4, by decide, by decide⟩⟩,
    ⟨5, ofString "N", ofString "harbour", ofString "S", ofString "screw",
      ⟨1, by decide, by decide⟩⟩]

theorem openingStaging_applies :
    (applyStatements .empty openingStaging 3).isSome = true := by decide +kernel

def openingInventory : Inventory :=
  ((applyStatements .empty openingStaging 3).get openingStaging_applies).1

theorem apply_end_to_end_sampleStaging :
    ∃ after counters, applyStatements openingInventory sampleStaging 9 = some (after, counters) ∧
      Applied openingInventory after sampleStaging 9 ∧
      openingInventory.quantityOf (ofString "W") (ofString "U") ≠ some 0 ∧
      after.quantityOf (ofString "W") (ofString "U") = some 0 ∧
      after.balanceOf (ofString "N") (ofString "S") =
        openingInventory.balanceOf (ofString "N") (ofString "S") := by
  obtain ⟨after, counters, done, applied⟩ :=
    apply_end_to_end openingInventory sampleStaging 9 (by decide) (by decide)
  have stocked : ∃ old, old ≠ 0 ∧
      openingInventory.quantityOf (ofString "W") (ofString "U") = some old :=
    ⟨⟨4, by decide, by decide⟩, by decide, by decide +kernel⟩
  obtain ⟨old, nonzero, found⟩ := stocked
  refine ⟨after, counters, done, applied, ?_, ?_, ?_⟩
  · rw [found]
    exact fun same => nonzero (Option.some.inj same)
  · exact applied.zeroed _ _ old found (by decide) (by decide)
  · exact applied.untouched _ _ (by decide)

end StockImport.Db

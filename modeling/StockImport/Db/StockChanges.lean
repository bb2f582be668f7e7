import StockImport.Db.ApplyEffect

/-!
# The counters of an apply

Three accounts of one change: the counting query, the classifier over pairs of
codes, and the rows that the two stock statements write.  Each is brought to a
condition on the pair that the staging gives a key and the balance that the key had.
-/

set_option autoImplicit false

namespace StockImport.Db

open PyText Tables Csv Snapshots

/-! ## The classifier -/

inductive CounterKind where
  | created
  | updated
  | zeroed
  deriving DecidableEq, Repr

def classifyStockChange (previousQuantity explicitQuantity : Option Int)
    (warehouseInReport : Bool) : Option CounterKind :=
  match explicitQuantity with
  | some explicitQuantity =>
      match previousQuantity with
      | none => some .created
      | some previousQuantity =>
          if previousQuantity ≠ explicitQuantity then some .updated else none
  | none =>
      if warehouseInReport = true ∧ previousQuantity ≠ none ∧ previousQuantity ≠ some 0 then
        some .zeroed
      else none

/-- The codes of a generated id. -/
def Catalog.codeOf (catalog : Catalog) (id : Nat) : Option Text :=
  (catalog.table.rows.find? fun row => row.id = id).map CatalogRow.code

/-- The code pairs of the balances. -/
def existingPairs (inventory : Inventory) : List (Text × Text) :=
  inventory.balances.rows.filterMap fun balance =>
    (inventory.warehouses.codeOf balance.warehouseId).bind fun warehouse =>
      (inventory.products.codeOf balance.productId).map fun product => (warehouse, product)

def stagedPairs (staging : List ValidatedRow) : List (Text × Text) :=
  staging.map fun row => (row.warehouseCode, row.sku)

/-- Each pair that has a balance or is staged, once. -/
def allPairs (inventory : Inventory) (staging : List ValidatedRow) : List (Text × Text) :=
  (existingPairs inventory ++ stagedPairs staging).dedup

/-- The label of a pair: from its quantity in the inventory, its quantity in the
staging, and whether its warehouse is staged. -/
def pairChange (inventory : Inventory) (staging : List ValidatedRow) (pair : Text × Text) :
    Option CounterKind :=
  classifyStockChange ((inventory.quantityOf pair.1 pair.2).map Quantity.value)
    ((snapshotLayout.listed staging pair.1 pair.2).map Quantity.value)
    (snapshotLayout.mentions staging pair.1)

def countChanges (inventory : Inventory) (staging : List ValidatedRow) (kind : CounterKind) : Nat :=
  (allPairs inventory staging).countP fun pair => pairChange inventory staging pair = some kind

theorem Quantity.value_injective {first second : Quantity} (same : first.value = second.value) :
    first = second := by
  obtain ⟨value, nonneg, bound⟩ := first
  obtain ⟨value', nonneg', bound'⟩ := second
  cases same
  rfl

theorem pairChange_created {inventory : Inventory} {staging : List ValidatedRow}
    {pair : Text × Text} :
    pairChange inventory staging pair = some .created ↔
      inventory.quantityOf pair.1 pair.2 = none ∧
        ∃ quantity, snapshotLayout.listed staging pair.1 pair.2 = some quantity := by
  unfold pairChange classifyStockChange
  cases snapshotLayout.listed staging pair.1 pair.2 with
  | none => simp
  | some quantity =>
      cases inventory.quantityOf pair.1 pair.2 with
      | none => simp
      | some old => simp

theorem pairChange_updated {inventory : Inventory} {staging : List ValidatedRow}
    {pair : Text × Text} :
    pairChange inventory staging pair = some .updated ↔
      ∃ old quantity, inventory.quantityOf pair.1 pair.2 = some old ∧
        snapshotLayout.listed staging pair.1 pair.2 = some quantity ∧ old ≠ quantity := by
  unfold pairChange classifyStockChange
  cases snapshotLayout.listed staging pair.1 pair.2 with
  | none => simp
  | some quantity =>
      cases inventory.quantityOf pair.1 pair.2 with
      | none => simp
      | some old =>
          have values : old.value ≠ quantity.value ↔ old ≠ quantity :=
            not_congr ⟨Quantity.value_injective, congrArg Quantity.value⟩
          simp [values]

theorem pairChange_zeroed {inventory : Inventory} {staging : List ValidatedRow}
    {pair : Text × Text} :
    pairChange inventory staging pair = some .zeroed ↔
      ∃ old, inventory.quantityOf pair.1 pair.2 = some old ∧
        snapshotLayout.listed staging pair.1 pair.2 = none ∧
        snapshotLayout.mentions staging pair.1 = true ∧ old ≠ 0 := by
  unfold pairChange classifyStockChange
  cases snapshotLayout.listed staging pair.1 pair.2 with
  | some quantity =>
      cases inventory.quantityOf pair.1 pair.2 with
      | none => simp
      | some old => simp
  | none =>
      cases inventory.quantityOf pair.1 pair.2 with
      | none => simp
      | some old =>
          have value : old.value ≠ 0 ↔ old ≠ 0 :=
            not_congr ⟨@Quantity.value_injective old 0, congrArg Quantity.value⟩
          simp [value]

/-! ## Codes of balances -/

theorem Catalog.codeOf_eq_some {catalog : Catalog} {id : Nat} {code : Text} :
    catalog.codeOf id = some code ↔ catalog.idOf code = some id := by
  rw [Catalog.idOf_eq_some]
  simp only [Catalog.codeOf, Option.map_eq_some_iff, find?_key_eq_some catalog.ids]
  constructor
  · rintro ⟨row, ⟨member, sameId⟩, same⟩
    exact ⟨row, member, same, sameId⟩
  · rintro ⟨row, member, same, sameId⟩
    exact ⟨row, ⟨member, sameId⟩, same⟩

theorem quantityOf_eq_some {inventory : Inventory} {warehouse product : Text}
    {quantity : Quantity} :
    inventory.quantityOf warehouse product = some quantity ↔
      ∃ balance ∈ inventory.balances.rows,
        inventory.warehouses.codeOf balance.warehouseId = some warehouse ∧
          inventory.products.codeOf balance.productId = some product ∧
          balance.quantity = quantity := by
  simp only [Inventory.quantityOf, Inventory.balanceOf, Option.map_eq_some_iff,
    Option.bind_eq_some_iff, Table.find_eq_some, Catalog.codeOf_eq_some]
  constructor
  · rintro ⟨balance, ⟨warehouseId, first, productId, second, member, key⟩, same⟩
    have warehouse : balance.warehouseId = warehouseId := congrArg Prod.fst key
    have product : balance.productId = productId := congrArg Prod.snd key
    exact ⟨balance, member, warehouse ▸ first, product ▸ second, same⟩
  · rintro ⟨balance, member, first, second, same⟩
    exact ⟨balance, ⟨_, first, _, second, member, rfl⟩, same⟩

theorem mem_existingPairs {inventory : Inventory} {pair : Text × Text} :
    pair ∈ existingPairs inventory ↔ ∃ quantity, inventory.quantityOf pair.1 pair.2 = some quantity := by
  simp only [existingPairs, List.mem_filterMap, Option.bind_eq_some_iff, Option.map_eq_some_iff,
    quantityOf_eq_some]
  constructor
  · rintro ⟨balance, member, warehouse, first, product, second, rfl⟩
    exact ⟨_, balance, member, first, second, rfl⟩
  · rintro ⟨_, balance, member, first, second, _⟩
    exact ⟨balance, member, pair.1, first, pair.2, second, rfl⟩

theorem existingPairs_nodup (inventory : Inventory) : (existingPairs inventory).Nodup := by
  have keys : existingPairs inventory =
      (inventory.balances.rows.map StockBalance.key).filterMap fun key =>
        (inventory.warehouses.codeOf key.1).bind fun warehouse =>
          (inventory.products.codeOf key.2).map fun product => (warehouse, product) := by
    rw [List.filterMap_map]
    rfl
  rw [keys]
  refine List.Nodup.filterMap ?_ inventory.balances.unique
  intro key key' pair first second
  simp only [Option.bind_eq_some_iff, Option.map_eq_some_iff, Option.mem_def,
    Catalog.codeOf_eq_some] at first second
  obtain ⟨warehouse, warehouseId, product, productId, rfl⟩ := first
  obtain ⟨_, warehouseId', _, productId', same⟩ := second
  cases same
  rw [warehouseId] at warehouseId'
  rw [productId] at productId'
  exact Prod.ext (Option.some.inj warehouseId') (Option.some.inj productId')

theorem mem_stagedPairs {staging : List ValidatedRow} {pair : Text × Text} :
    pair ∈ stagedPairs staging ↔
      ∃ quantity, snapshotLayout.listed staging pair.1 pair.2 = some quantity := by
  constructor
  · intro member
    obtain ⟨row, inStaging, rfl⟩ := List.mem_map.mp member
    cases listed : snapshotLayout.listed staging row.warehouseCode row.sku with
    | some quantity => exact ⟨quantity, rfl⟩
    | none =>
        simp only [Layout.listed, snapshotLayout, Option.map_eq_none_iff,
          List.find?_eq_none] at listed
        exact absurd (decide_eq_true rfl) (listed row inStaging)
  · rintro ⟨quantity, listed⟩
    simp only [Layout.listed, snapshotLayout, Option.map_eq_some_iff] at listed
    obtain ⟨row, found, _⟩ := listed
    have same := List.find?_some found
    exact List.mem_map.mpr ⟨row, List.mem_of_find?_eq_some found, of_decide_eq_true same⟩

/-! ## The counting query -/

theorem countP_eq_length {α : Type} {l m : List α} {p : α → Bool} (nodup : l.Nodup)
    (nodup' : m.Nodup) (same : ∀ x, x ∈ m ↔ x ∈ l ∧ p x = true) : l.countP p = m.length := by
  rw [List.countP_eq_length_filter]
  refine ((List.perm_ext_iff_of_nodup (nodup.filter p) nodup').mpr ?_).length_eq
  intro x
  rw [List.mem_filter, same]

theorem pairChange_listed {inventory : Inventory} {staging : List ValidatedRow}
    {pair : Text × Text} {kind : CounterKind}
    (label : pairChange inventory staging pair = some kind) :
    pair ∈ allPairs inventory staging := by
  rw [allPairs, List.mem_dedup, List.mem_append, mem_existingPairs, mem_stagedPairs]
  cases kind with
  | created => exact Or.inr (pairChange_created.mp label).2
  | updated =>
      obtain ⟨old, _, found, _⟩ := pairChange_updated.mp label
      exact Or.inl ⟨old, found⟩
  | zeroed =>
      obtain ⟨old, found, _⟩ := pairChange_zeroed.mp label
      exact Or.inl ⟨old, found⟩

/-- A label is counted by any list of the pairs that have it. -/
theorem countChanges_eq {inventory : Inventory} {staging : List ValidatedRow} {kind : CounterKind}
    {pairs : List (Text × Text)} (nodup : pairs.Nodup)
    (same : ∀ pair, pair ∈ pairs ↔ pairChange inventory staging pair = some kind) :
    countChanges inventory staging kind = pairs.length := by
  refine countP_eq_length (List.nodup_dedup _) nodup ?_
  intro pair
  rw [same, decide_eq_true_eq]
  exact ⟨fun label => ⟨pairChange_listed label, label⟩, And.right⟩

section Query

variable {before joined : Inventory} {staging : List ValidatedRow} {now : Nat}

/-- The joined pairs of a staging whose codes are known are its rows. -/
theorem explicitPairs_countP (p : ExplicitPair → Bool) (q : ValidatedRow → Bool) :
    ∀ staging : List ValidatedRow, Known joined staging →
      (∀ row ∈ staging, ∀ warehouseId productId,
        joined.warehouses.idOf row.warehouseCode = some warehouseId →
        joined.products.idOf row.sku = some productId →
          p ⟨warehouseId, productId, row.quantity⟩ = q row) →
      (explicitPairs joined staging).countP p = staging.countP q := by
  intro staging
  induction staging with
  | nil => intro _ _; rfl
  | cons row staging ih =>
      intro known same
      obtain ⟨⟨warehouseId, first⟩, productId, second⟩ := known row List.mem_cons_self
      have later := ih (fun other member => known other (List.mem_cons_of_mem _ member))
        (fun other member => same other (List.mem_cons_of_mem _ member))
      rw [explicitPairs_cons, first, second]
      simp only [List.countP_cons, later,
        same row List.mem_cons_self warehouseId productId first second]

/-- The balance that the query joins to a staged row. -/
theorem Joined.find (state : Joined before staging now joined) {warehouse product : Text}
    {warehouseId productId : Nat} (first : joined.warehouses.idOf warehouse = some warehouseId)
    (second : joined.products.idOf product = some productId) :
    joined.balances.find (warehouseId, productId) = before.balanceOf warehouse product := by
  rw [← state.balanceOf, Inventory.balanceOf, first, second]
  rfl

theorem stocksCreated_eq (state : Joined before staging now joined) :
    (calculateCounters joined staging).stocksCreated = staging.countP fun row =>
      (before.quantityOf row.warehouseCode row.sku).isNone := by
  refine explicitPairs_countP _ _ staging state.known ?_
  intro row _ warehouseId productId first second
  simp only [ExplicitPair.key, state.find first second, Inventory.quantityOf, Option.isNone_map]

theorem stocksUpdated_eq (state : Joined before staging now joined) :
    (calculateCounters joined staging).stocksUpdated = staging.countP fun row =>
      (before.quantityOf row.warehouseCode row.sku).any fun old => old != row.quantity := by
  refine explicitPairs_countP _ _ staging state.known ?_
  intro row _ warehouseId productId first second
  simp only [ExplicitPair.key, state.find first second, Inventory.quantityOf, Option.any_map]

/-- The rows of the staging that a test selects, as pairs. -/
theorem selected_nodup (distinct : DistinctPairs staging) (q : ValidatedRow → Bool) :
    (stagedPairs (staging.filter q)).Nodup :=
  distinct.sublist (List.filter_sublist.map _)

theorem countChanges_created (distinct : DistinctPairs staging)
    (state : Joined before staging now joined) :
    countChanges before staging .created = (calculateCounters joined staging).stocksCreated := by
  rw [stocksCreated_eq state, List.countP_eq_length_filter,
    countChanges_eq (selected_nodup distinct _) ?_, stagedPairs, List.length_map]
  intro pair
  rw [pairChange_created, ← mem_stagedPairs]
  simp only [stagedPairs, List.mem_map, List.mem_filter, Option.isNone_iff_eq_none]
  constructor
  · rintro ⟨row, ⟨member, none⟩, rfl⟩
    exact ⟨none, row, member, rfl⟩
  · rintro ⟨none, row, member, rfl⟩
    exact ⟨row, ⟨member, none⟩, rfl⟩

theorem countChanges_updated (distinct : DistinctPairs staging)
    (state : Joined before staging now joined) :
    countChanges before staging .updated = (calculateCounters joined staging).stocksUpdated := by
  rw [stocksUpdated_eq state, List.countP_eq_length_filter,
    countChanges_eq (selected_nodup distinct _) ?_, stagedPairs, List.length_map]
  intro pair
  rw [pairChange_updated]
  simp only [stagedPairs, List.mem_map, List.mem_filter, Option.any_eq_true, bne_iff_ne]
  constructor
  · rintro ⟨row, ⟨member, old, found, different⟩, rfl⟩
    exact ⟨old, row.quantity, found, listed_of_mem distinct member, different⟩
  · rintro ⟨old, quantity, found, listed, different⟩
    obtain ⟨row, member, rfl⟩ := List.mem_map.mp (mem_stagedPairs.mpr ⟨quantity, listed⟩)
    rw [listed_of_mem distinct member] at listed
    cases listed
    exact ⟨row, ⟨member, old, found, different⟩, rfl⟩

/-- The zeroed balances, told by their codes. -/
def missingPair (before : Inventory) (staging : List ValidatedRow) (pair : Text × Text) : Bool :=
  snapshotLayout.mentions staging pair.1 &&
    (snapshotLayout.listed staging pair.1 pair.2).isNone &&
    (before.quantityOf pair.1 pair.2 != some 0)

theorem isMissing_pair (state : Joined before staging now joined) {balance : StockBalance}
    (member : balance ∈ before.balances.rows) {warehouse product : Text}
    (first : before.warehouses.codeOf balance.warehouseId = some warehouse)
    (second : before.products.codeOf balance.productId = some product) :
    isMissing joined staging balance = missingPair before staging (warehouse, product) := by
  have quantity : before.quantityOf warehouse product = some balance.quantity :=
    quantityOf_eq_some.mpr ⟨balance, member, first, second, rfl⟩
  have warehouseId := Catalog.upsertNames_idOf (lastNames_nodup _ _ _) state.warehouses
    (Catalog.codeOf_eq_some.mp first)
  have productId := Catalog.upsertNames_idOf (lastNames_nodup _ _ _) state.products
    (Catalog.codeOf_eq_some.mp second)
  have affected := mem_affectedWarehouses staging warehouseId
  have listed := explicitPairs_find warehouseId productId staging
  have present : ((explicitPairs joined staging).any fun present => present.key = balance.key) =
      (snapshotLayout.listed staging warehouse product).isSome := by
    rw [← listed, Option.isSome_map, List.isSome_find?]
    rfl
  unfold isMissing missingPair
  rw [present, quantity, Bool.eq_iff_iff]
  simp only [Bool.and_eq_true, decide_eq_true_eq, affected, bne_iff_ne, ne_eq, Bool.not_eq_true',
    Option.some.injEq, Option.isSome_eq_false_iff]
  rw [and_right_comm]

theorem stocksZeroed_eq (state : Joined before staging now joined) :
    (calculateCounters joined staging).stocksZeroed =
      (existingPairs before).countP (missingPair before staging) := by
  rw [existingPairs, List.countP_filterMap]
  simp only [calculateCounters, state.balances]
  refine List.countP_congr ?_
  intro balance member
  obtain ⟨⟨warehouse, first⟩, product, second⟩ := before.references balance member
  have first := Catalog.codeOf_eq_some.mpr first
  have second := Catalog.codeOf_eq_some.mpr second
  rw [first, second, isMissing_pair state member first second]
  rfl

theorem countChanges_zeroed (state : Joined before staging now joined) :
    countChanges before staging .zeroed = (calculateCounters joined staging).stocksZeroed := by
  rw [stocksZeroed_eq state, List.countP_eq_length_filter,
    countChanges_eq ((existingPairs_nodup before).filter _)]
  intro pair
  rw [pairChange_zeroed, List.mem_filter, mem_existingPairs]
  simp only [missingPair, Bool.and_eq_true, Option.isNone_iff_eq_none, bne_iff_ne, ne_eq]
  constructor
  · rintro ⟨⟨old, found⟩, ⟨mentioned, absent⟩, different⟩
    refine ⟨old, found, absent, mentioned, fun zero => different ?_⟩
    rw [found, zero]
  · rintro ⟨old, found, absent, mentioned, different⟩
    refine ⟨⟨old, found⟩, ⟨mentioned, absent⟩, fun zero => different ?_⟩
    rw [found] at zero
    exact Option.some.inj zero

end Query

/-! ## The rows that the statements write -/

def explicitWrites (joined : Inventory) (staging : List ValidatedRow) (now : Nat) :
    Writes (Nat × Nat) :=
  upsertWrites StockBalance.key (changeQuantity now) (explicitBalances joined staging now)
    joined.balances.rows

def zeroedKeys (stocked : Inventory) (staging : List ValidatedRow) : List (Nat × Nat) :=
  (stocked.balances.rows.filter (isMissing stocked staging)).map StockBalance.key

section Writes

variable {before joined stocked : Inventory} {staging : List ValidatedRow} {now : Nat}

theorem explicitWrites_eq (distinct : DistinctPairs staging) :
    explicitWrites joined staging now =
      ⟨((explicitPairs joined staging).filter fun pair =>
          (joined.balances.find pair.key).isNone).map ExplicitPair.key,
        ((explicitPairs joined staging).filter fun pair =>
          (joined.balances.find pair.key).any fun balance =>
            balance.quantity != pair.quantity).map ExplicitPair.key⟩ := by
  have keys : ((explicitBalances joined staging now).map StockBalance.key).Nodup := by
    simp only [explicitBalances, List.map_map]
    exact explicitPairs_nodup staging distinct
  rw [explicitWrites, upsertWrites_eq (changeQuantity_key now) _ _ joined.balances.unique keys]
  have changes : ∀ (old : StockBalance) (pair : ExplicitPair),
      (changeQuantity now old ⟨pair.warehouseId, pair.productId, pair.quantity, now, now⟩).isSome =
        (old.quantity != pair.quantity) := by
    intro old pair
    unfold changeQuantity
    split
    · next same => simp [same]
    · next different => simpa using different
  simp only [writesOf, explicitBalances, List.filter_map, List.map_map, Function.comp_def, changes]
  rfl

theorem inserted_length (distinct : DistinctPairs staging) :
    (explicitWrites joined staging now).inserted.length =
      (calculateCounters joined staging).stocksCreated := by
  rw [explicitWrites_eq distinct, List.length_map, ← List.countP_eq_length_filter]
  rfl

theorem updated_length (distinct : DistinctPairs staging) :
    (explicitWrites joined staging now).updated.length =
      (calculateCounters joined staging).stocksUpdated := by
  rw [explicitWrites_eq distinct, List.length_map, ← List.countP_eq_length_filter]
  rfl

/-- The pair that a key is given is one of the pairs. -/
theorem explicitOf_eq_some (distinct : DistinctPairs staging) {key : Nat × Nat}
    {pair : ExplicitPair} :
    explicitOf joined staging key = some pair ↔ pair ∈ explicitPairs joined staging ∧ pair.key = key :=
  find?_key_eq_some (explicitPairs_nodup staging distinct)

theorem mem_inserted (distinct : DistinctPairs staging) (state : Joined before staging now joined)
    {key : Nat × Nat} :
    key ∈ (explicitWrites joined staging now).inserted ↔
      before.balances.find key = none ∧ ∃ pair, explicitOf joined staging key = some pair := by
  simp only [explicitWrites_eq distinct, List.mem_map, List.mem_filter, Option.isNone_iff_eq_none,
    explicitOf_eq_some distinct, state.balances]
  constructor
  · rintro ⟨pair, ⟨member, none⟩, rfl⟩
    exact ⟨none, pair, member, rfl⟩
  · rintro ⟨none, pair, member, rfl⟩
    exact ⟨pair, ⟨member, none⟩, rfl⟩

theorem mem_updated (distinct : DistinctPairs staging) (state : Joined before staging now joined)
    {key : Nat × Nat} :
    key ∈ (explicitWrites joined staging now).updated ↔
      ∃ old pair, before.balances.find key = some old ∧
        explicitOf joined staging key = some pair ∧ old.quantity ≠ pair.quantity := by
  simp only [explicitWrites_eq distinct, List.mem_map, List.mem_filter, Option.any_eq_true,
    bne_iff_ne, explicitOf_eq_some distinct, state.balances]
  constructor
  · rintro ⟨pair, ⟨member, old, found, different⟩, rfl⟩
    exact ⟨old, pair, found, ⟨member, rfl⟩, different⟩
  · rintro ⟨old, pair, found, ⟨member, rfl⟩, different⟩
    exact ⟨pair, ⟨member, old, found, different⟩, rfl⟩

theorem mem_filter_keys {table : Table StockBalance StockBalance.key} {p : StockBalance → Bool}
    {key : Nat × Nat} :
    key ∈ (table.rows.filter p).map StockBalance.key ↔
      ∃ balance, table.find key = some balance ∧ p balance = true := by
  simp only [List.mem_map, List.mem_filter, Table.find_eq_some]
  constructor
  · rintro ⟨balance, ⟨member, selected⟩, rfl⟩
    exact ⟨balance, ⟨member, rfl⟩, selected⟩
  · rintro ⟨balance, ⟨member, rfl⟩, selected⟩
    exact ⟨balance, ⟨member, selected⟩, rfl⟩

theorem isMissing_iff {balance : StockBalance} {key : Nat × Nat} (same : balance.key = key) :
    isMissing joined staging balance = true ↔
      explicitOf joined staging key = none ∧ key.1 ∈ affectedWarehouses joined staging ∧
        balance.quantity ≠ 0 := by
  have warehouse : balance.warehouseId = key.1 := congrArg Prod.fst same
  unfold isMissing explicitOf
  simp only [Bool.and_eq_true, decide_eq_true_eq, bne_iff_ne, Bool.not_eq_true',
    List.any_eq_false, List.find?_eq_none, warehouse, same]
  exact and_comm

/-- The explicit stocks leave the balances that the staging does not list. -/
theorem stocked_missing (distinct : DistinctPairs staging)
    (state : Joined before staging now joined)
    (stocks : applyExplicitStocks joined staging now = some stocked) {key : Nat × Nat} :
    key ∈ zeroedKeys stocked staging ↔
      ∃ old, before.balances.find key = some old ∧ explicitOf joined staging key = none ∧
        key.1 ∈ affectedWarehouses joined staging ∧ old.quantity ≠ 0 := by
  obtain ⟨_, warehouses, products⟩ := applyExplicitStocks_spec stocks
  rw [zeroedKeys, mem_filter_keys, applyExplicitStocks_find distinct stocks, state.balances,
    isMissing_congr staging warehouses products]
  have oldKey : ∀ {old}, before.balances.find key = some old → old.key = key :=
    fun found => ((Table.find_eq_some _).mp found).2
  constructor
  · rintro ⟨balance, found, missing⟩
    cases given : explicitOf joined staging key with
    | some pair =>
        rw [given] at found
        rw [isMissing_iff (stockedBalance_key (explicitOf_key given) found), given] at missing
        cases missing.1
    | none =>
        rw [given] at found
        exact ⟨balance, found, rfl, ((isMissing_iff (oldKey found)).mp missing).2⟩
  · rintro ⟨old, found, given, affected, different⟩
    rw [given]
    exact ⟨old, found, (isMissing_iff (oldKey found)).mpr ⟨given, affected, different⟩⟩

theorem zeroed_length (distinct : DistinctPairs staging)
    (state : Joined before staging now joined)
    (stocks : applyExplicitStocks joined staging now = some stocked) :
    (zeroedKeys stocked staging).length = (calculateCounters joined staging).stocksZeroed := by
  have counted : (calculateCounters joined staging).stocksZeroed =
      ((joined.balances.rows.filter (isMissing joined staging)).map StockBalance.key).length := by
    rw [List.length_map, ← List.countP_eq_length_filter]
    rfl
  rw [counted]
  refine ((List.perm_ext_iff_of_nodup ?_ ?_).mpr ?_).length_eq
  · exact stocked.balances.unique.sublist (List.filter_sublist.map _)
  · exact joined.balances.unique.sublist (List.filter_sublist.map _)
  · intro key
    rw [stocked_missing distinct state stocks, mem_filter_keys, state.balances]
    constructor
    · rintro ⟨old, found, missing⟩
      exact ⟨old, found, (isMissing_iff ((Table.find_eq_some _).mp found).2).mpr missing⟩
    · rintro ⟨old, found, missing⟩
      exact ⟨old, found, (isMissing_iff ((Table.find_eq_some _).mp found).2).mp missing⟩

end Writes

/-! ## The accounts agree -/

/-- The counters of an apply: the labels of the pairs, the rows that the statements
write, and the balances that are different afterwards. -/
structure Truthful (before joined stocked : Inventory) (staging : List ValidatedRow) (now : Nat) :
    Prop where
  created : countChanges before staging .created =
    (calculateCounters joined staging).stocksCreated
  updated : countChanges before staging .updated =
    (calculateCounters joined staging).stocksUpdated
  zeroed : countChanges before staging .zeroed = (calculateCounters joined staging).stocksZeroed
  inserts : (explicitWrites joined staging now).inserted.length =
    (calculateCounters joined staging).stocksCreated
  updates : (explicitWrites joined staging now).updated.length =
    (calculateCounters joined staging).stocksUpdated
  clears : (zeroedKeys stocked staging).length = (calculateCounters joined staging).stocksZeroed
  disjoint : ((explicitWrites joined staging now).inserted ++
    ((explicitWrites joined staging now).updated ++ zeroedKeys stocked staging)).Nodup
  changed : ∀ key, key ∈ (explicitWrites joined staging now).inserted ++
      ((explicitWrites joined staging now).updated ++ zeroedKeys stocked staging) ↔
    (before.balances.find key).map StockBalance.quantity ≠
      ((zeroMissingStocks stocked staging now).balances.find key).map StockBalance.quantity

section Accounts

variable {before joined stocked : Inventory} {staging : List ValidatedRow} {now : Nat}

theorem writes_disjoint (distinct : DistinctPairs staging)
    (state : Joined before staging now joined)
    (stocks : applyExplicitStocks joined staging now = some stocked) :
    ((explicitWrites joined staging now).inserted ++
      ((explicitWrites joined staging now).updated ++ zeroedKeys stocked staging)).Nodup := by
  have pairs := @explicitPairs_nodup joined staging distinct
  rw [List.nodup_append, List.nodup_append]
  refine ⟨?_, ⟨?_, stocked.balances.unique.sublist (List.filter_sublist.map _), ?_⟩, ?_⟩
  · rw [explicitWrites_eq distinct]
    exact pairs.sublist (List.filter_sublist.map _)
  · rw [explicitWrites_eq distinct]
    exact pairs.sublist (List.filter_sublist.map _)
  · rintro key inUpdated key' inZeroed rfl
    obtain ⟨_, pair, _, given, _⟩ := (mem_updated distinct state).mp inUpdated
    obtain ⟨_, _, absent, _⟩ := (stocked_missing distinct state stocks).mp inZeroed
    rw [given] at absent
    cases absent
  · rintro key inInserted key' inOthers rfl
    obtain ⟨none, _⟩ := (mem_inserted distinct state).mp inInserted
    rcases List.mem_append.mp inOthers with inUpdated | inZeroed
    · obtain ⟨_, _, found, _⟩ := (mem_updated distinct state).mp inUpdated
      rw [none] at found
      cases found
    · obtain ⟨_, found, _⟩ := (stocked_missing distinct state stocks).mp inZeroed
      rw [none] at found
      cases found

/-- A key is written exactly where its balance is new or has another quantity. -/
theorem writes_changed (distinct : DistinctPairs staging)
    (state : Joined before staging now joined)
    (stocks : applyExplicitStocks joined staging now = some stocked) (key : Nat × Nat) :
    key ∈ (explicitWrites joined staging now).inserted ++
        ((explicitWrites joined staging now).updated ++ zeroedKeys stocked staging) ↔
      (before.balances.find key).map StockBalance.quantity ≠
        ((zeroMissingStocks stocked staging now).balances.find key).map
          StockBalance.quantity := by
  rw [List.mem_append, List.mem_append, mem_inserted distinct state, mem_updated distinct state,
    stocked_missing distinct state stocks]
  cases given : explicitOf joined staging key with
  | some pair =>
      rw [applied_listed distinct state stocks rfl given]
      cases before.balances.find key with
      | none => simp [stockedBalance]
      | some old =>
          by_cases same : old.quantity = pair.quantity
          · simp [stockedBalance, same]
          · simp [stockedBalance, same]
  | none =>
      rw [applied_unlisted distinct state stocks rfl given]
      cases before.balances.find key with
      | none => simp
      | some old =>
          by_cases cleared : key.1 ∈ affectedWarehouses joined staging ∧ old.quantity ≠ 0
          · simp [cleared, clearQuantity]
          · simp [cleared]

end Accounts

/-- The counters tell the truth, for every inventory and every staging with distinct
pairs. -/
theorem counters_truthful (before : Inventory) (staging : List ValidatedRow) (now : Nat)
    (distinct : DistinctPairs staging) :
    ∃ joined stocked, Joined before staging now joined ∧
      applyExplicitStocks joined staging now = some stocked ∧
      applyStatements before staging now =
        some (zeroMissingStocks stocked staging now, calculateCounters joined staging) ∧
      Truthful before joined stocked staging now := by
  obtain ⟨after, counters, done⟩ := applyStatements_some before now distinct
  obtain ⟨joined, stocked, state, stocks, rfl, rfl⟩ := applyStatements_cases done
  refine ⟨joined, stocked, state, stocks, done, ?_⟩
  exact
    { created := countChanges_created distinct state
      updated := countChanges_updated distinct state
      zeroed := countChanges_zeroed state
      inserts := inserted_length distinct
      updates := updated_length distinct
      clears := zeroed_length distinct state stocks
      disjoint := writes_disjoint distinct state stocks
      changed := writes_changed distinct state stocks }

/-- One pair is new, one has another quantity, and one is left out. -/
theorem counters_truthful_sampleStaging :
    ∃ joined stocked, Joined openingInventory sampleStaging 9 joined ∧
      applyExplicitStocks joined sampleStaging 9 = some stocked ∧
      calculateCounters joined sampleStaging = ⟨1, 1, 1⟩ ∧
      Truthful openingInventory joined stocked sampleStaging 9 := by
  have counted : (applyStatements openingInventory sampleStaging 9).map Prod.snd =
      some ⟨1, 1, 1⟩ := by decide +kernel
  obtain ⟨joined, stocked, state, stocks, done, truthful⟩ :=
    counters_truthful openingInventory sampleStaging 9 (by decide)
  rw [done] at counted
  exact ⟨joined, stocked, state, stocks, Option.some.inj counted, truthful⟩

end StockImport.Db

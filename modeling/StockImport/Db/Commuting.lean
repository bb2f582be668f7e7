import StockImport.Db.StockChanges

/-!
# Independent stagings

Two stagings without a common warehouse, applied in either order.  The quantities
and names are those of `Layout.apply`, which commutes there; the counters of a
staging are counted over pairs of its own warehouses, which the other one leaves.
-/

set_option autoImplicit false

namespace StockImport.Db

open PyText Tables Csv Snapshots

/-- What an apply leaves and answers, told by the codes. -/
theorem applyStatements_counts {before after : Inventory} {staging : List ValidatedRow}
    {now : Nat} {counters : Counters} (distinct : DistinctPairs staging)
    (done : applyStatements before staging now = some (after, counters)) :
    counters = ⟨countChanges before staging .created, countChanges before staging .updated,
      countChanges before staging .zeroed⟩ := by
  obtain ⟨joined, stocked, state, stocks, _, rfl⟩ := applyStatements_cases done
  rw [countChanges_created distinct state, countChanges_updated distinct state,
    countChanges_zeroed state]

/-- A labelled pair is one of a staged warehouse. -/
theorem pairChange_mentions {inventory : Inventory} {staging : List ValidatedRow}
    {pair : Text × Text} {kind : CounterKind}
    (label : pairChange inventory staging pair = some kind) :
    snapshotLayout.mentions staging pair.1 = true := by
  cases kind with
  | created =>
      obtain ⟨_, quantity, listed⟩ := pairChange_created.mp label
      exact snapshotLayout.listed_mentions listed
  | updated =>
      obtain ⟨_, quantity, _, listed, _⟩ := pairChange_updated.mp label
      exact snapshotLayout.listed_mentions listed
  | zeroed =>
      obtain ⟨_, _, _, mentioned, _⟩ := pairChange_zeroed.mp label
      exact mentioned

/-- The labels go by the quantities of the staged warehouses. -/
theorem countChanges_congr {inventory other : Inventory} {staging : List ValidatedRow}
    (same : ∀ warehouse product, snapshotLayout.mentions staging warehouse = true →
      inventory.quantityOf warehouse product = other.quantityOf warehouse product)
    (kind : CounterKind) :
    countChanges inventory staging kind = countChanges other staging kind := by
  have labels : ∀ pair, pairChange inventory staging pair = some kind ↔
      pairChange other staging pair = some kind := by
    intro pair
    constructor
    · intro label
      have quantity := same pair.1 pair.2 (pairChange_mentions label)
      rwa [pairChange, ← quantity]
    · intro label
      have quantity := same pair.1 pair.2 (pairChange_mentions label)
      rwa [pairChange, quantity]
  have counted : ∀ pair, pair ∈ (allPairs other staging).filter (fun pair =>
      pairChange other staging pair = some kind) ↔ pairChange inventory staging pair = some kind := by
    intro pair
    rw [labels, List.mem_filter, decide_eq_true_eq]
    exact ⟨And.right, fun label => ⟨pairChange_listed label, label⟩⟩
  rw [countChanges_eq ((List.nodup_dedup _).filter _) counted, ← List.countP_eq_length_filter]
  rfl

theorem apart_of_codes {first second : List ValidatedRow}
    (disjoint : ∀ row ∈ first, ∀ other ∈ second, row.warehouseCode ≠ other.warehouseCode) :
    snapshotLayout.Apart first second := by
  intro warehouse inFirst
  obtain ⟨row, member, same⟩ := List.any_eq_true.mp inFirst
  refine mentions_eq_false fun other inSecond equal => ?_
  exact disjoint row member other inSecond ((of_decide_eq_true same).trans equal.symm)

/-- The counters of a staging are the same before and after another one of other
warehouses. -/
theorem counters_kept {inventory between after after' : Inventory}
    {first second : List ValidatedRow} {now later now' : Nat}
    {firstCounters secondCounters counters : Counters}
    (distinct : DistinctPairs first) (distinct' : DistinctPairs second)
    (apart : snapshotLayout.Apart first second)
    (done : applyStatements inventory first now = some (between, firstCounters))
    (next : applyStatements between second later = some (after, secondCounters))
    (alone : applyStatements inventory second now' = some (after', counters)) :
    secondCounters = counters := by
  have kept : ∀ warehouse product, snapshotLayout.mentions second warehouse = true →
      between.quantityOf warehouse product = inventory.quantityOf warehouse product := by
    intro warehouse product mentioned
    have view := congrArg (fun view => view.quantity warehouse product)
      (applyStatements_view distinct done)
    exact view.trans
      (snapshotLayout.quantity_apply_unmentioned (apart.symm warehouse mentioned) _ product)
  rw [applyStatements_counts distinct' next, applyStatements_counts distinct' alone,
    countChanges_congr kept, countChanges_congr kept, countChanges_congr kept]

/-- The last row of a product in a staging. -/
def LastOfProduct (staging : List ValidatedRow) (row : ValidatedRow) : Prop :=
  row ∈ staging ∧ ∀ other ∈ staging, other.sku = row.sku → other.lineNumber ≤ row.lineNumber

/-- Two inventories with the same quantities, warehouse names and products. -/
structure SameStocks (inventory other : Inventory) : Prop where
  quantities : ∀ warehouse product,
    inventory.quantityOf warehouse product = other.quantityOf warehouse product
  warehouseNames : ∀ warehouse,
    inventory.warehouses.nameOf warehouse = other.warehouses.nameOf warehouse
  products : ∀ product, (inventory.products.nameOf product).isSome =
    (other.products.nameOf product).isSome

/-- Stagings without a common warehouse, in either order and at any times: the same
stocks, and the same counters for each staging. -/
theorem disjoint_applies_commute (inventory : Inventory) (first second : List ValidatedRow)
    (now later now' later' : Nat) (distinct : DistinctPairs first)
    (distinct' : DistinctPairs second)
    (disjoint : ∀ row ∈ first, ∀ other ∈ second, row.warehouseCode ≠ other.warehouseCode) :
    ∃ afterFirst afterSecond forward backward firstCounters secondCounters,
      applyStatements inventory first now = some (afterFirst, firstCounters) ∧
      applyStatements afterFirst second later = some (forward, secondCounters) ∧
      applyStatements inventory second now' = some (afterSecond, secondCounters) ∧
      applyStatements afterSecond first later' = some (backward, firstCounters) ∧
      SameStocks forward backward ∧
      ((∀ row other, LastOfProduct first row → LastOfProduct second other → row.sku = other.sku →
          row.productName = other.productName) →
        ∀ product, forward.products.nameOf product = backward.products.nameOf product) := by
  have apart := apart_of_codes disjoint
  obtain ⟨afterFirst, firstCounters, done⟩ := applyStatements_some inventory now distinct
  obtain ⟨forward, secondCounters, next⟩ := applyStatements_some afterFirst later distinct'
  obtain ⟨afterSecond, counters, done'⟩ := applyStatements_some inventory now' distinct'
  obtain ⟨backward, counters', next'⟩ := applyStatements_some afterSecond later' distinct
  have forwardView : forward.view =
      snapshotLayout.apply second (snapshotLayout.apply first inventory.view) := by
    rw [applyStatements_view distinct' next, applyStatements_view distinct done]
  have backwardView : backward.view =
      snapshotLayout.apply first (snapshotLayout.apply second inventory.view) := by
    rw [applyStatements_view distinct next', applyStatements_view distinct' done']
  have items := fun product => snapshotLayout.itemName_comm first second inventory.view product
  rw [← forwardView, ← backwardView] at items
  rw [counters_kept distinct distinct' apart done next done'] at next
  rw [counters_kept distinct' distinct apart.symm done' next' done] at next'
  refine ⟨afterFirst, afterSecond, forward, backward, firstCounters, counters, done, next, done',
    next', ⟨?_, ?_, fun product => (items product).1⟩, ?_⟩
  · intro warehouse product
    have quantities := snapshotLayout.quantity_comm apart inventory.view warehouse product
    rwa [← forwardView, ← backwardView] at quantities
  · intro warehouse
    have names := snapshotLayout.placeName_comm apart inventory.view warehouse
    rwa [← forwardView, ← backwardView] at names
  · intro agree product
    refine (items product).2 ?_
    intro name name' inFirst inSecond
    simp only [Layout.lastItemName, Option.map_eq_some_iff] at inFirst inSecond
    obtain ⟨row, last, rfl⟩ := inFirst
    obtain ⟨other, last', rfl⟩ := inSecond
    obtain ⟨member, sku, greatest⟩ := lastOf_eq_some last
    obtain ⟨member', sku', greatest'⟩ := lastOf_eq_some last'
    refine agree row other ⟨member, ?_⟩ ⟨member', ?_⟩ (sku.trans sku'.symm)
    · exact fun third inFirst same => greatest third inFirst (same.trans sku)
    · exact fun third inSecond same => greatest' third inSecond (same.trans sku')

/-- Another warehouse with a product of `sampleStaging`; what it has in stock is left out. -/
def otherStaging : List ValidatedRow :=
  [⟨2, ofString "N", ofString "north", ofString "T", ofString "thumbtack", 0⟩]

theorem disjoint_applies_commute_otherStaging :
    ∃ afterFirst afterSecond forward backward,
      applyStatements openingInventory sampleStaging 9 = some (afterFirst, ⟨1, 1, 1⟩) ∧
      applyStatements afterFirst otherStaging 12 = some (forward, ⟨1, 0, 1⟩) ∧
      applyStatements openingInventory otherStaging 9 = some (afterSecond, ⟨1, 0, 1⟩) ∧
      applyStatements afterSecond sampleStaging 12 = some (backward, ⟨1, 1, 1⟩) ∧
      SameStocks forward backward ∧
      ((∀ row other, LastOfProduct sampleStaging row → LastOfProduct otherStaging other →
          row.sku = other.sku → row.productName = other.productName) →
        ∀ product, forward.products.nameOf product = backward.products.nameOf product) := by
  have first : (applyStatements openingInventory sampleStaging 9).map Prod.snd =
      some ⟨1, 1, 1⟩ := by decide +kernel
  have second : (applyStatements openingInventory otherStaging 9).map Prod.snd =
      some ⟨1, 0, 1⟩ := by decide +kernel
  obtain ⟨afterFirst, afterSecond, forward, backward, firstCounters, secondCounters, done, next,
    done', next', same, names⟩ :=
    disjoint_applies_commute openingInventory sampleStaging otherStaging 9 12 9 12 (by decide)
      (by decide) (by decide)
  rw [done] at first
  rw [done'] at second
  cases first
  cases second
  exact ⟨afterFirst, afterSecond, forward, backward, done, next, done', next', same, names⟩

end StockImport.Db

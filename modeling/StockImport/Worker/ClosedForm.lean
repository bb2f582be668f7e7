import StockImport.Worker.Lifecycle

/-!
# The inventory of a locked run

In every state of a locked run the inventory is the closed form of the completed
reports in the order of their applies.  `LedgerSound` has it as a fold of
snapshots; here it is read off row by row.
-/

set_option autoImplicit false

namespace StockImport.Worker

open PyText Csv Db Tables Transactional Snapshots

/-- The file of a report has a row of the warehouse. -/
def Deployment.MentionsWarehouse (deployment : Deployment) (warehouse : Text)
    (source : ReportSource) : Prop :=
  ∃ row ∈ deployment.fileRows source, row.warehouseCode = warehouse

def Deployment.MentionsProduct (deployment : Deployment) (sku : Text) (source : ReportSource) :
    Prop :=
  ∃ row ∈ deployment.fileRows source, row.sku = sku

/-- A row of the pair in the file of a report. -/
def Deployment.ListsRow (deployment : Deployment) (warehouse sku : Text) (source : ReportSource)
    (row : ValidatedRow) : Prop :=
  row ∈ deployment.fileRows source ∧ row.warehouseCode = warehouse ∧ row.sku = sku

/-- The row with the highest line for a code. -/
def Highest (code : ValidatedRow → Text) (rows : List ValidatedRow) (value : Text)
    (row : ValidatedRow) : Prop :=
  row ∈ rows ∧ code row = value ∧
    ∀ other ∈ rows, code other = value → other.lineNumber ≤ row.lineNumber

/-- The inventory of reports completed in this order. -/
structure ClosedForm (deployment : Deployment) (completed : List ReportSource)
    (inventory : Inventory) : Prop where
  /-- Every balance is one of a warehouse code and a sku. -/
  coded : ∀ balance ∈ inventory.balances.rows, ∃ warehouse sku,
    inventory.balanceOf warehouse sku = some balance
  present : ∀ warehouse sku, (∃ balance, inventory.balanceOf warehouse sku = some balance) ↔
    ∃ source ∈ completed, ∃ row, deployment.ListsRow warehouse sku source row
  quantity : ∀ warehouse sku balance, inventory.balanceOf warehouse sku = some balance →
    ∃ source, LastWith completed (deployment.MentionsWarehouse warehouse) source ∧
      ((∃ row, deployment.ListsRow warehouse sku source row ∧ balance.quantity = row.quantity) ∨
        ((∀ row, ¬ deployment.ListsRow warehouse sku source row) ∧ balance.quantity = 0))
  warehouseName : ∀ warehouse name, inventory.warehouses.nameOf warehouse = some name ↔
    ∃ source row, LastWith completed (deployment.MentionsWarehouse warehouse) source ∧
      Highest ValidatedRow.warehouseCode (deployment.fileRows source) warehouse row ∧
      row.warehouseName = name
  productName : ∀ sku name, inventory.products.nameOf sku = some name ↔
    ∃ source row, LastWith completed (deployment.MentionsProduct sku) source ∧
      Highest ValidatedRow.sku (deployment.fileRows source) sku row ∧ row.productName = name

/-- The completions are the completed reports, each once and with a valid file, in
the order in which their applies have committed. -/
structure CompletedInOrder (deployment : Deployment) (world : ServiceWorld) : Prop where
  once : (world.shared.completions.map ReportSource.id).Nodup
  completed : ∀ source, source ∈ world.shared.completions ↔
    ∃ report ∈ world.shared.db.reports.rows,
      reportSource report = source ∧ report.status = .completed
  valid : ∀ source ∈ world.shared.completions, ∃ rowCount, ValidFile deployment source rowCount
  order : world.shared.completions.map ReportSource.id = appliedIds world.history

section ClosedForm

variable {deployment : Deployment} {source : ReportSource} {completed : List ReportSource}

theorem mentions_iff {warehouse : Text} :
    snapshotLayout.mentions (deployment.fileRows source) warehouse = true ↔
      deployment.MentionsWarehouse warehouse source := by
  simp only [Layout.mentions, List.any_eq_true, decide_eq_true_eq]
  rfl

theorem mentionsItem_iff {sku : Text} :
    snapshotLayout.mentionsItem (deployment.fileRows source) sku = true ↔
      deployment.MentionsProduct sku source := by
  simp only [Layout.mentionsItem, List.any_eq_true, decide_eq_true_eq]
  rfl

theorem lastWith_congr {α : Type} {l : List α} {has has' : α → Prop} {x : α}
    (same : ∀ y, has y ↔ has' y) : LastWith l has x ↔ LastWith l has' x := by
  have equal : has = has' := funext fun y => propext (same y)
  rw [equal]

/-- The last snapshot with a property is that of the last report with it. -/
theorem getLast?_snapshots {p : List ValidatedRow → Bool} {rows : List ValidatedRow} :
    ((completed.map deployment.fileRows).filter p).getLast? = some rows ↔
      ∃ source, LastWith completed (fun source => p (deployment.fileRows source) = true) source ∧
        deployment.fileRows source = rows := by
  rw [List.filter_map, List.getLast?_map, Option.map_eq_some_iff]
  simp only [filter_getLast?_eq_some, Function.comp_apply]

theorem lastMentioning_iff {warehouse : Text} {rows : List ValidatedRow} :
    snapshotLayout.lastMentioning (completed.map deployment.fileRows) warehouse = some rows ↔
      ∃ source, LastWith completed (deployment.MentionsWarehouse warehouse) source ∧
        deployment.fileRows source = rows := by
  unfold Layout.lastMentioning
  rw [getLast?_snapshots]
  simp only [lastWith_congr fun _ => mentions_iff]

theorem lastMentioningItem_iff {sku : Text} {rows : List ValidatedRow} :
    snapshotLayout.lastMentioningItem (completed.map deployment.fileRows) sku = some rows ↔
      ∃ source, LastWith completed (deployment.MentionsProduct sku) source ∧
        deployment.fileRows source = rows := by
  unfold Layout.lastMentioningItem
  rw [getLast?_snapshots]
  simp only [lastWith_congr fun _ => mentionsItem_iff]

theorem listed_eq_none {warehouse sku : Text} :
    snapshotLayout.listed (deployment.fileRows source) warehouse sku = none ↔
      ∀ row, ¬ deployment.ListsRow warehouse sku source row := by
  simp [Layout.listed, snapshotLayout, Deployment.ListsRow]

theorem listed_eq_some {warehouse sku : Text} {quantity : Quantity}
    (listed : snapshotLayout.listed (deployment.fileRows source) warehouse sku = some quantity) :
    ∃ row, deployment.ListsRow warehouse sku source row ∧ quantity = row.quantity := by
  simp only [Layout.listed, snapshotLayout, Option.map_eq_some_iff] at listed
  obtain ⟨row, found, rfl⟩ := listed
  have pair := List.find?_some found
  simp only [decide_eq_true_eq, Prod.mk.injEq] at pair
  exact ⟨row, ⟨List.mem_of_find?_eq_some found, pair⟩, rfl⟩

/-- The name on the last row of the last report. -/
theorem lastName_iff {code name : ValidatedRow → Text} {rows : List ValidatedRow} {value : Text}
    (lines : (rows.map ValidatedRow.lineNumber).Nodup) {result : Text} :
    (lastOf code ValidatedRow.lineNumber rows value).map name = some result ↔
      ∃ row, Highest code rows value row ∧ name row = result := by
  rw [Option.map_eq_some_iff]
  constructor
  · rintro ⟨row, last, rfl⟩
    exact ⟨row, lastOf_eq_some last, rfl⟩
  · rintro ⟨row, ⟨member, same, highest⟩, rfl⟩
    cases last : lastOf code ValidatedRow.lineNumber rows value with
    | none =>
        rw [lastOf_eq_none] at last
        exact absurd same (last row member)
    | some other =>
        obtain ⟨otherMember, otherSame, otherHighest⟩ := lastOf_eq_some last
        have equal : other = row := List.inj_on_of_nodup_map lines otherMember member
          (Nat.le_antisymm (highest other otherMember otherSame) (otherHighest row member same))
        exact ⟨row, by rw [equal], rfl⟩

theorem nameOfLast_iff {code name : ValidatedRow → Text} {value result : Text}
    {last : Option (List ValidatedRow)} {has : ReportSource → Prop}
    (lastIff : ∀ rows, last = some rows ↔
      ∃ source, LastWith completed has source ∧ deployment.fileRows source = rows) :
    (last.bind fun rows => (lastOf code ValidatedRow.lineNumber rows value).map name) =
        some result ↔
      ∃ source row, LastWith completed has source ∧
        Highest code (deployment.fileRows source) value row ∧ name row = result := by
  rw [Option.bind_eq_some_iff]
  constructor
  · rintro ⟨rows, isLast, named⟩
    obtain ⟨source, lastSource, rfl⟩ := (lastIff rows).mp isLast
    obtain ⟨row, highest, same⟩ := (lastName_iff (fileRows_lines deployment source)).mp named
    exact ⟨source, row, lastSource, highest, same⟩
  · rintro ⟨source, row, lastSource, highest, same⟩
    exact ⟨_, (lastIff _).mpr ⟨source, lastSource, rfl⟩,
      (lastName_iff (fileRows_lines deployment source)).mpr ⟨row, highest, same⟩⟩

/-- Every balance is found under its two codes. -/
theorem balances_coded (inventory : Inventory) : ∀ balance ∈ inventory.balances.rows,
    ∃ warehouse sku, inventory.balanceOf warehouse sku = some balance := by
  intro balance member
  obtain ⟨⟨warehouse, knownWarehouse⟩, sku, knownProduct⟩ := inventory.references balance member
  refine ⟨warehouse, sku, ?_⟩
  simp only [Inventory.balanceOf, knownWarehouse, knownProduct, Option.bind_some]
  exact (Table.find_eq_some _).mpr ⟨member, rfl⟩

theorem closedForm_of_view {inventory : Inventory}
    (view : inventory.view = snapshotLayout.applyAll (completed.map deployment.fileRows)) :
    ClosedForm deployment completed inventory := by
  have quantities : ∀ warehouse sku,
      (inventory.balanceOf warehouse sku).map StockBalance.quantity =
        (snapshotLayout.applyAll (completed.map deployment.fileRows)).quantity warehouse sku := by
    intro warehouse sku
    rw [← view]
    rfl
  have listedBy : ∀ warehouse sku,
      snapshotLayout.everListed (completed.map deployment.fileRows) warehouse sku = true ↔
        ∃ source ∈ completed, ∃ row, deployment.ListsRow warehouse sku source row := by
    intro warehouse sku
    simp only [Layout.everListed, List.any_map, List.any_eq_true, Function.comp_apply]
    refine exists_congr fun source => and_congr_right fun _ => ?_
    rw [← not_iff_not, Option.not_isSome_iff_eq_none, listed_eq_none, not_exists]
  refine ⟨balances_coded inventory, ?_, ?_, ?_, ?_⟩
  · intro warehouse sku
    rw [← listedBy, ← Option.isSome_iff_exists, ← Option.isSome_map, quantities,
      Layout.quantity_applyAll]
    cases snapshotLayout.everListed (completed.map deployment.fileRows) warehouse sku <;> rfl
  · intro warehouse sku balance found
    have quantity := quantities warehouse sku
    rw [found, Layout.quantity_applyAll] at quantity
    have ever : snapshotLayout.everListed (completed.map deployment.fileRows) warehouse sku =
        true := by
      by_contra never
      rw [if_neg never] at quantity
      cases quantity
    rw [if_pos ever, Option.map_some, Option.some.injEq] at quantity
    obtain ⟨lister, member, row, inRows, sameWarehouse, _⟩ := (listedBy warehouse sku).mp ever
    cases last : snapshotLayout.lastMentioning (completed.map deployment.fileRows) warehouse with
    | none =>
        simp only [Layout.lastMentioning, List.getLast?_eq_none_iff, List.filter_eq_nil_iff,
          List.mem_map, forall_exists_index, and_imp, forall_apply_eq_imp_iff₂] at last
        exact absurd (mentions_iff.mpr ⟨row, inRows, sameWarehouse⟩) (last lister member)
    | some rows =>
        obtain ⟨source, lastSource, rfl⟩ := lastMentioning_iff.mp last
        refine ⟨source, lastSource, ?_⟩
        rw [last, Option.bind_some] at quantity
        cases listed : snapshotLayout.listed (deployment.fileRows source) warehouse sku with
        | none =>
            rw [listed, Option.getD_none] at quantity
            exact Or.inr ⟨listed_eq_none.mp listed, quantity⟩
        | some amount =>
            rw [listed, Option.getD_some] at quantity
            obtain ⟨row, lists, same⟩ := listed_eq_some listed
            exact Or.inl ⟨row, lists, quantity.trans same⟩
  · intro warehouse name
    have names : inventory.warehouses.nameOf warehouse =
        (snapshotLayout.applyAll (completed.map deployment.fileRows)).placeName warehouse := by
      rw [← view]
      rfl
    rw [names, Layout.placeName_applyAll]
    exact nameOfLast_iff fun rows => lastMentioning_iff
  · intro sku name
    have names : inventory.products.nameOf sku =
        (snapshotLayout.applyAll (completed.map deployment.fileRows)).itemName sku := by
      rw [← view]
      rfl
    rw [names, Layout.itemName_applyAll]
    exact nameOfLast_iff fun rows => lastMentioningItem_iff

end ClosedForm

/-- In every state of a locked run the inventory is the closed form of the completed
reports in completion order. -/
theorem inventory_closed_form (deployment : Deployment) (world : ServiceWorld)
    (run : LockedRun deployment world) :
    CompletedInOrder deployment world ∧
      ClosedForm deployment world.shared.completions world.shared.db.inventory := by
  have sound := run.sound
  refine ⟨⟨sound.once, ?_, sound.valid, completions_history run⟩, closedForm_of_view sound.inventory⟩
  intro source
  constructor
  · intro member
    obtain ⟨report, found, same, status⟩ := sound.completed source member
    exact ⟨report, ((Table.find_eq_some _).mp found).1, same, status⟩
  · rintro ⟨report, member, rfl, status⟩
    exact sound.listed report.id report ((Table.find_eq_some _).mpr ⟨member, rfl⟩) status

/-- The sample run to the end of the second apply. -/
def sampleApplied : List (ServiceAction sampleDeployment) := sampleActions ++ [.run 0 .none]

theorem sampleApplied_run :
    ((service sampleDeployment).runs ServiceWorld.empty sampleApplied).isSome = true := by
  decide +kernel

def appliedWorld : ServiceWorld :=
  ((service sampleDeployment).runs ServiceWorld.empty sampleApplied).get sampleApplied_run

theorem appliedWorld_locked : LockedRun sampleDeployment appliedWorld := by
  refine solo_locked ?_ (Option.some_get sampleApplied_run).symm
  simp [sampleApplied, sampleActions, sampleRegistration, sampleCycle, sampleStart, Action.Solo]

/-- The second file speaks for the warehouse: what it leaves out is zero. -/
theorem inventory_closed_form_appliedWorld :
    appliedWorld.shared.completions.map ReportSource.id = [1, 2] ∧
      appliedWorld.shared.db.inventory.quantityOf (ofString "W") (ofString "S") = some 0 ∧
      ClosedForm sampleDeployment appliedWorld.shared.completions
        appliedWorld.shared.db.inventory :=
  ⟨by decide +kernel, by decide +kernel,
    (inventory_closed_form sampleDeployment appliedWorld appliedWorld_locked).2⟩

end StockImport.Worker

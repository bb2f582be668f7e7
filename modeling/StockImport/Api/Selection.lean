import StockImport.Api.Pages
import StockImport.Db.Overlay
import StockImport.Db.StockChanges
import StockImport.Worker.Sound

/-!
# What a commit does to a selection

A list request selects the rows that meet its filters.  A transaction of the worker, or a
registration, spares the selection if it moves no row into it or out of it; whether it does
is seen from the state that it finds.
-/

set_option autoImplicit false

namespace StockImport.Api

open PyText Csv Db Tables Queries Snapshots Worker

/-! ## Reports by their status -/

def StatusAdmitted (wanted : Option ReportStatus) (status : ReportStatus) : Prop :=
  ∀ value ∈ wanted, status = value

/-- An update that asks for `processing`. -/
def fromProcessing (db : Database) (reportId : Nat) (status : ReportStatus) :
    Option (ReportStatus × ReportStatus) :=
  ((db.reports.find reportId).filter fun report => report.status = .processing).map
    fun report => (report.status, status)

/-- The status that a transaction takes from a report, and the one it gives it. -/
def statusMove (db : Database) : Transaction → Option (ReportStatus × ReportStatus)
  | .claim => (firstInQueue db.reports.rows).map fun report => (report.status, .processing)
  | .finalizeValidationFailure reportId _ _ => fromProcessing db reportId .failed
  | .markProcessingFailed reportId => fromProcessing db reportId .failed
  | .markApplyFailed reportId => fromProcessing db reportId .failed
  | .apply reportId => fromProcessing db reportId .completed
  | .writeStagingBatch _ _ => none
  | .writeErrorBatch _ _ => none
  | .insertDuplicateErrors _ _ => none
  | .errorCount _ => none
  | .markValidated _ _ => none

/-! ## The errors of a report -/

def ErrorsSpared (db : Database) (reportId : Nat) : Transaction → Prop
  | .claim => ∀ report ∈ firstInQueue db.reports.rows, report.id = reportId →
      db.errorsOf reportId = []
  | .writeErrorBatch other batch => other = reportId → batch = []
  | .insertDuplicateErrors other _ => other = reportId →
      duplicateRows (db.stagedRows other) = []
  | .markProcessingFailed other => other ≠ reportId
  | .markApplyFailed other => other ≠ reportId
  | .writeStagingBatch _ _ => True
  | .errorCount _ => True
  | .finalizeValidationFailure _ _ _ => True
  | .markValidated _ _ => True
  | .apply _ => True

/-! ## Warehouses and products -/

def EntryAdmitted (locale : Locale) (code query : Option Text) (entry : Text × Text) : Prop :=
  (∀ wanted ∈ code, entry.1 = wanted) ∧ ∀ text ∈ query,
    locale.icontains entry.1 text = true ∨ locale.icontains entry.2 text = true

/-- The names that an apply gives: each is admitted exactly where the row of its code was. -/
def CatalogSpared (locale : Locale) (catalog : Catalog) (code query : Option Text)
    (names : List (Text × Text)) : Prop :=
  ∀ entry ∈ names, EntryAdmitted locale code query entry ↔
    ∃ name ∈ catalog.nameOf entry.1, EntryAdmitted locale code query (entry.1, name)

/-! ## Stocks -/

/-- The filters of a stock request but the one on the quantity. -/
structure PairFilter where
  warehouseId : Option Nat
  warehouseCode : Option Text
  productId : Option Nat
  sku : Option Text

structure PairFilter.Admits (filter : PairFilter) (inventory : Inventory) (warehouse sku : Text) :
    Prop where
  warehouseId : ∀ id ∈ filter.warehouseId, inventory.warehouses.idOf warehouse = some id
  warehouseCode : ∀ code ∈ filter.warehouseCode, warehouse = code
  productId : ∀ id ∈ filter.productId, inventory.products.idOf sku = some id
  sku : ∀ code ∈ filter.sku, sku = code

def QuantityAdmitted (includeZero : Bool) (quantity : Option Quantity) : Prop :=
  ∃ value ∈ quantity, includeZero = false → value.value ≠ 0

/-- An apply of these rows, where the codes have their ids: each listed pair is admitted
exactly where its balance was, and no balance that is admitted without its zeros is set to
zero. -/
structure StocksSpared (filter : PairFilter) (includeZero : Bool) (before joined : Inventory)
    (staging : List ValidatedRow) : Prop where
  listed : ∀ row ∈ staging, filter.Admits joined row.warehouseCode row.sku →
    (QuantityAdmitted includeZero (some row.quantity) ↔
      QuantityAdmitted includeZero (before.quantityOf row.warehouseCode row.sku))
  missing : ∀ warehouse sku, filter.Admits joined warehouse sku →
    QuantityAdmitted includeZero (before.quantityOf warehouse sku) →
      includeZero = true ∨ missingPair before staging (warehouse, sku) = false

/-! ## What a request is spared -/

/-- The transaction moves no row into the selection or out of it. -/
def ListRequest.SparedBy (locale : Locale) (db : Database) (t : Transaction) :
    ListRequest → Prop
  | .reports status => ∀ move ∈ statusMove db t,
      (StatusAdmitted status move.1 ↔ StatusAdmitted status move.2)
  | .errors reportId => ErrorsSpared db reportId t
  | .warehouses code query => ∀ id, t = .apply id →
      CatalogSpared locale db.inventory.warehouses code query
        (lastNames ValidatedRow.warehouseCode ValidatedRow.warehouseName (db.stagedRows id))
  | .products sku query => ∀ id, t = .apply id →
      CatalogSpared locale db.inventory.products sku query
        (lastNames ValidatedRow.sku ValidatedRow.productName (db.stagedRows id))
  | .stocks warehouseId warehouseCode productId sku includeZero => ∀ id, t = .apply id →
      ∀ joined, Joined db.inventory (db.stagedRows id) db.now joined →
        StocksSpared ⟨warehouseId, warehouseCode, productId, sku⟩ includeZero db.inventory joined
          (db.stagedRows id)

/-- So does a registration, which adds a pending report. -/
def ListRequest.SparedByRegistration : ListRequest → Prop
  | .reports status => ¬ StatusAdmitted status .pending
  | .errors _ => True
  | .warehouses _ _ => True
  | .products _ _ => True
  | .stocks _ _ _ _ _ => True

/-- The lists of warehouses, products and stocks. -/
def ListRequest.OfInventory : ListRequest → Prop
  | .reports _ => False
  | .errors _ => False
  | .warehouses _ _ => True
  | .products _ _ => True
  | .stocks _ _ _ _ _ => True

/-- Of the transactions only an apply touches them. -/
theorem ListRequest.OfInventory.sparedBy {request : ListRequest} (inventory : request.OfInventory)
    (locale : Locale) (db : Database) {t : Transaction} (other : ∀ id, t ≠ .apply id) :
    request.SparedBy locale db t := by
  cases request with
  | reports _ | errors _ => exact inventory.elim
  | warehouses _ _ | products _ _ | stocks _ _ _ _ _ =>
      intro id same
      exact absurd same (other id)

theorem ListRequest.OfInventory.sparedByRegistration {request : ListRequest}
    (inventory : request.OfInventory) : request.SparedByRegistration := by
  cases request with
  | reports _ | errors _ => exact inventory.elim
  | warehouses _ _ | products _ _ | stocks _ _ _ _ _ => trivial

/-! ## Totals by keys -/

section Totals

variable {locale : Locale}

theorem ListRequest.total_eq (locale : Locale) (request : ListRequest) (db : Database) :
    request.total locale db = (request.queries locale db).itemQuery.rows.length := by
  have agree : (request.queries locale db).itemQuery = (request.queries locale db).countQuery :=
    request.queries_agree locale db
  rw [ListRequest.total, agree]

theorem ListQueries.restrictSome_source {Row Value : Type} (queries : ListQueries Row)
    (value : Option Value) (condition : Value → Row → Bool) :
    (queries.restrictSome value condition).itemQuery.source = queries.itemQuery.source := by
  cases value with
  | none => rfl
  | some value => rfl

/-- The report of an id is selected. -/
def ReportSelected (wanted : Option ReportStatus) (db : Database) (id : Nat) : Prop :=
  ∃ report ∈ db.reports.find id, StatusAdmitted wanted report.status

theorem reports_total {wanted : Option ReportStatus} {db db' : Database}
    (same : ∀ id, ReportSelected wanted db' id ↔ ReportSelected wanted db id) :
    (ListRequest.reports wanted).total locale db' = (ListRequest.reports wanted).total locale db := by
  have distinct : ∀ db : Database,
      ((reportQueries db wanted).itemQuery.rows.map Report.id).Nodup := by
    intro db
    apply Select.keys_nodup
    rw [reportQueries, ListQueries.restrictSome_source]
    exact db.reports.unique
  have rows : ∀ (db : Database) (report : Report),
      report ∈ (reportQueries db wanted).itemQuery.rows ↔
        report ∈ db.reports.rows ∧ StatusAdmitted wanted report.status :=
    fun db report => @ListRequest.mem_rows locale db (.reports wanted) report
  have keys : ∀ (db : Database) (id : Nat),
      id ∈ (reportQueries db wanted).itemQuery.rows.map Report.id ↔ ReportSelected wanted db id := by
    intro db id
    simp only [List.mem_map, ReportSelected, Option.mem_def, Table.find_eq_some, rows]
    constructor
    · intro selected
      obtain ⟨report, ⟨member, admitted⟩, rfl⟩ := selected
      exact ⟨report, ⟨member, rfl⟩, admitted⟩
    · intro selected
      obtain ⟨report, ⟨member, rfl⟩, admitted⟩ := selected
      exact ⟨report, ⟨member, admitted⟩, rfl⟩
  rw [ListRequest.total_eq, ListRequest.total_eq]
  exact length_eq_of_keys (distinct db') (distinct db) fun id =>
    (keys db' id).trans ((same id).trans (keys db id).symm)

theorem errors_total (reportId : Nat) (db : Database) :
    (ListRequest.errors reportId).total locale db = (db.errorsOf reportId).length := by
  simp [ListRequest.total, ListRequest.queries, errorQueries, ListQueries.select,
    ListQueries.restrict, Select.restrict, Select.rows, Database.errorsOf]

/-- The row of a code is selected. -/
def EntrySelected (locale : Locale) (code query : Option Text) (catalog : Catalog) (own : Text) :
    Prop :=
  ∃ name ∈ catalog.nameOf own, EntryAdmitted locale code query (own, name)

theorem catalog_total {code query : Option Text} {catalog catalog' : Catalog}
    (same : ∀ own, EntrySelected locale code query catalog' own ↔
      EntrySelected locale code query catalog own) :
    (catalogQueries locale catalog' code query).itemQuery.rows.length =
      (catalogQueries locale catalog code query).itemQuery.rows.length := by
  have distinct : ∀ catalog : Catalog,
      ((catalogQueries locale catalog code query).itemQuery.rows.map CatalogRow.code).Nodup := by
    intro catalog
    apply Select.keys_nodup
    rw [catalogQueries, ListQueries.restrictSome_source, ListQueries.restrictSome_source]
    exact catalog.table.unique
  have keys : ∀ (catalog : Catalog) (own : Text),
      own ∈ (catalogQueries locale catalog code query).itemQuery.rows.map CatalogRow.code ↔
        EntrySelected locale code query catalog own := by
    intro catalog own
    simp only [List.mem_map, mem_catalogQueries, EntrySelected, Catalog.nameOf, Option.mem_def,
      Option.map_eq_some_iff, Table.find_eq_some]
    constructor
    · intro selected
      obtain ⟨row, ⟨member, admitted⟩, rfl⟩ := selected
      exact ⟨row.name, ⟨row, ⟨member, rfl⟩, rfl⟩, admitted⟩
    · intro selected
      obtain ⟨_, ⟨row, ⟨member, rfl⟩, rfl⟩, admitted⟩ := selected
      exact ⟨row, ⟨member, admitted⟩, rfl⟩
  exact length_eq_of_keys (distinct catalog') (distinct catalog) fun own =>
    (keys catalog' own).trans ((same own).trans (keys catalog own).symm)

end Totals

/-! ## Stocks by their codes -/

section Joins

variable {inventory : Inventory}

/-- A joined row is a balance with the codes and the names of its references. -/
theorem balanceOf_joined {row : StockRow} (joined : row ∈ joinStocks inventory) :
    inventory.balanceOf row.warehouse.code row.product.code = some row.balance ∧
      inventory.warehouses.nameOf row.warehouse.code = some row.warehouse.name ∧
      inventory.products.nameOf row.product.code = some row.product.name := by
  obtain ⟨inBalances, inWarehouses, inProducts, warehouseId, productId⟩ := mem_joinStocks.mp joined
  have warehouse := (Table.find_eq_some inventory.warehouses.table).mpr ⟨inWarehouses, rfl⟩
  have product := (Table.find_eq_some inventory.products.table).mpr ⟨inProducts, rfl⟩
  have balance := (Table.find_eq_some inventory.balances).mpr ⟨inBalances, rfl⟩
  simp only [Inventory.balanceOf, Catalog.idOf, Catalog.nameOf, warehouse, product, Option.map_some,
    Option.bind_some, warehouseId, productId, and_true]
  exact balance

/-- A balance stands in the join under its codes. -/
theorem joined_balanceOf {warehouse product : Text} {balance : StockBalance}
    (found : inventory.balanceOf warehouse product = some balance) :
    ∃ row ∈ joinStocks inventory, row.balance = balance ∧ row.warehouse.code = warehouse ∧
      row.product.code = product := by
  simp only [Inventory.balanceOf, Option.bind_eq_some_iff] at found
  obtain ⟨warehouseId, knownWarehouse, productId, knownProduct, stored⟩ := found
  obtain ⟨member, key⟩ := (Table.find_eq_some inventory.balances).mp stored
  obtain ⟨row, ⟨joined, rfl⟩, _⟩ := joinStocks_balance member
  obtain ⟨_, inWarehouses, inProducts, ownWarehouse, ownProduct⟩ := mem_joinStocks.mp joined
  have ids : row.balance.warehouseId = warehouseId ∧ row.balance.productId = productId :=
    Prod.mk.injEq .. ▸ key
  have warehouseCode : inventory.warehouses.idOf row.warehouse.code = some warehouseId :=
    Catalog.idOf_eq_some.mpr ⟨_, inWarehouses, rfl, ownWarehouse.trans ids.1⟩
  have productCode : inventory.products.idOf row.product.code = some productId :=
    Catalog.idOf_eq_some.mpr ⟨_, inProducts, rfl, ownProduct.trans ids.2⟩
  exact ⟨row, joined, rfl, Catalog.idOf_injective warehouseCode knownWarehouse,
    Catalog.idOf_injective productCode knownProduct⟩

/-- The codes tell the joined rows apart. -/
theorem joined_of_codes {row row' : StockRow} (joined : row ∈ joinStocks inventory)
    (joined' : row' ∈ joinStocks inventory) (warehouse : row.warehouse.code = row'.warehouse.code)
    (product : row.product.code = row'.product.code) : row = row' := by
  have balance : row.balance = row'.balance := by
    have first := (balanceOf_joined joined).1
    rw [warehouse, product] at first
    exact Option.some.inj (first.symm.trans (balanceOf_joined joined').1)
  exact joined_of_balance joined joined' balance

def StockRow.codes (row : StockRow) : Text × Text := (row.warehouse.code, row.product.code)

theorem joinStocks_codes_nodup (inventory : Inventory) :
    ((joinStocks inventory).map StockRow.codes).Nodup := by
  refine List.Nodup.map_on ?_ (joinStocks_nodup inventory)
  intro row joined row' joined' same
  exact joined_of_codes joined joined' (congrArg Prod.fst same) (congrArg Prod.snd same)

/-- The balance of a pair of codes is selected. -/
def PairSelected (filter : PairFilter) (includeZero : Bool) (inventory : Inventory)
    (pair : Text × Text) : Prop :=
  filter.Admits inventory pair.1 pair.2 ∧
    QuantityAdmitted includeZero (inventory.quantityOf pair.1 pair.2)

theorem joined_ids {row : StockRow} (joined : row ∈ joinStocks inventory) :
    inventory.warehouses.idOf row.warehouse.code = some row.balance.warehouseId ∧
      inventory.products.idOf row.product.code = some row.balance.productId := by
  obtain ⟨_, inWarehouses, inProducts, warehouseId, productId⟩ := mem_joinStocks.mp joined
  exact ⟨Catalog.idOf_eq_some.mpr ⟨_, inWarehouses, rfl, warehouseId⟩,
    Catalog.idOf_eq_some.mpr ⟨_, inProducts, rfl, productId⟩⟩

/-- The filters of the query are those on the codes of a row. -/
theorem joined_selected {filter : PairFilter} {includeZero : Bool} {row : StockRow}
    (joined : row ∈ joinStocks inventory) :
    (∀ condition ∈ stockFilters filter.warehouseId filter.warehouseCode filter.productId filter.sku
        includeZero, condition row = true) ↔
      PairSelected filter includeZero inventory row.codes := by
  obtain ⟨warehouseId, productId⟩ := joined_ids joined
  have quantity : inventory.quantityOf row.warehouse.code row.product.code =
      some row.balance.quantity := by
    rw [Inventory.quantityOf, (balanceOf_joined joined).1, Option.map_some]
  rw [all_stockFilters]
  constructor
  · intro all
    obtain ⟨first, second, third, fourth, nonzero⟩ := all
    refine ⟨⟨?_, second, ?_, fourth⟩, _, quantity, nonzero⟩
    · intro id wanted
      rw [← first id wanted]
      exact warehouseId
    · intro id wanted
      rw [← third id wanted]
      exact productId
  · intro selected
    obtain ⟨admits, value, isValue, nonzero⟩ := selected
    cases isValue.symm.trans quantity
    refine ⟨?_, admits.warehouseCode, ?_, admits.sku, nonzero⟩
    · intro id wanted
      exact Option.some.inj (warehouseId.symm.trans (admits.warehouseId id wanted))
    · intro id wanted
      exact Option.some.inj (productId.symm.trans (admits.productId id wanted))

theorem stocks_total {filter : PairFilter} {includeZero : Bool} {inventory inventory' : Inventory}
    (same : ∀ pair, PairSelected filter includeZero inventory' pair ↔
      PairSelected filter includeZero inventory pair) :
    (stockQueries inventory' (stockFilters filter.warehouseId filter.warehouseCode
        filter.productId filter.sku includeZero)).itemQuery.rows.length =
      (stockQueries inventory (stockFilters filter.warehouseId filter.warehouseCode
        filter.productId filter.sku includeZero)).itemQuery.rows.length := by
  have keys : ∀ (inventory : Inventory) (pair : Text × Text),
      pair ∈ (stockQueries inventory (stockFilters filter.warehouseId filter.warehouseCode
          filter.productId filter.sku includeZero)).itemQuery.rows.map StockRow.codes ↔
        PairSelected filter includeZero inventory pair := by
    intro inventory pair
    simp only [List.mem_map, stockQueries, Select.mem_rows]
    constructor
    · intro selected
      obtain ⟨row, ⟨joined, all⟩, rfl⟩ := selected
      exact (joined_selected joined).mp all
    · intro selected
      obtain ⟨value, isValue, _⟩ := selected.2
      obtain ⟨balance, found, _⟩ := Option.map_eq_some_iff.mp isValue
      obtain ⟨row, joined, _, warehouse, product⟩ := joined_balanceOf found
      have codes : row.codes = pair := Prod.ext warehouse product
      rw [← codes] at selected
      exact ⟨row, ⟨joined, (joined_selected joined).mpr selected⟩, codes⟩
  exact length_eq_of_keys (Select.keys_nodup (joinStocks_codes_nodup inventory'))
    (Select.keys_nodup (joinStocks_codes_nodup inventory)) fun pair =>
      (keys inventory' pair).trans ((same pair).trans (keys inventory pair).symm)

end Joins

/-! ## What the transactions do -/

section Transactions

variable {t : Transaction} {s s' : Ledger} {reply : t.Reply}

/-- The status of a report is the one of before, or has been moved. -/
def Moved (db db' : Database) (move : Option (ReportStatus × ReportStatus)) (id : Nat) : Prop :=
  (db'.reports.find id).map Report.status = (db.reports.find id).map Report.status ∨
    ∃ change ∈ move, (db.reports.find id).map Report.status = some change.1 ∧
      (db'.reports.find id).map Report.status = some change.2

theorem Moved.selected {db db' : Database} {move : Option (ReportStatus × ReportStatus)} {id : Nat}
    (moved : Moved db db' move id) {wanted : Option ReportStatus}
    (spared : ∀ change ∈ move, (StatusAdmitted wanted change.1 ↔ StatusAdmitted wanted change.2)) :
    ReportSelected wanted db' id ↔ ReportSelected wanted db id := by
  have byStatus : ∀ db : Database, ReportSelected wanted db id ↔
      ∃ status ∈ (db.reports.find id).map Report.status, StatusAdmitted wanted status := by
    intro db
    simp [ReportSelected]
  rw [byStatus, byStatus]
  rcases moved with same | ⟨change, isMove, before, after⟩
  · rw [same]
  · simp [before, after, spared change isMove]

theorem Moved.of_same {db db' : Database} {id : Nat}
    (same : ∀ other, db'.reports.find other = db.reports.find other)
    (move : Option (ReportStatus × ReportStatus)) : Moved db db' move id :=
  Or.inl (by rw [same])

theorem Moved.of_tables {db db' : Database} {id other : Nat} {staged : List ValidatedRow}
    {errors : List ReportError} {inventory : Inventory}
    (changes : Changes db db' id ⟨db.reports.find id, staged, errors⟩ inventory)
    (move : Option (ReportStatus × ReportStatus)) : Moved db db' move other := by
  refine .of_same (fun other => ?_) move
  rw [changes.rows]
  split
  · next same => rw [same]
  · rfl

theorem Moved.of_processing {db db' : Database} {id other : Nat} {set : Report → Report}
    {staged : List ValidatedRow} {errors : List ReportError} {inventory : Inventory}
    {status : ReportStatus}
    (changes : Changes db db' id ⟨(db.reports.find id).map (whileProcessing set), staged, errors⟩
      inventory)
    (given : ∀ report, (set report).status = status) :
    Moved db db' (fromProcessing db id status) other := by
  have rows := changes.rows other
  by_cases same : other = id
  · rw [if_pos same] at rows
    unfold Moved fromProcessing
    rw [rows, same]
    cases found : db.reports.find id with
    | none => exact Or.inl rfl
    | some report =>
        by_cases processing : report.status = .processing
        · right
          simp [whileProcessing, processing, given]
        · left
          simp [whileProcessing, processing]
  · rw [if_neg same] at rows
    exact Or.inl (by rw [rows])

/-- A claim leaves the database as it is, or is about the first report of the queue. -/
theorem claim_first (db : Database) : (claimOrRecoverNextReport db).2 = db ∨
    ∃ report, firstInQueue db.reports.rows = some report ∧
      db.reports.find report.id = some report ∧
      Changes db (claimOrRecoverNextReport db).2 report.id ⟨some (report.claim db.now), [], []⟩
        db.inventory := by
  unfold claimOrRecoverNextReport
  cases first : firstInQueue db.reports.rows with
  | none => exact Or.inl rfl
  | some report =>
      have found : db.reports.find report.id = some report :=
        (Table.find_eq_some _).mpr ⟨(firstInQueue_some first).1, rfl⟩
      dsimp only
      split
      · exact Or.inl rfl
      · exact Or.inr ⟨report, rfl, found, claim_changes found⟩

theorem exec_moved (executed : t.exec s = .ok (reply, s')) (id : Nat) :
    Moved s.db s'.db (statusMove s.db t) id := by
  cases t with
  | claim =>
      cases executed
      rcases claim_first s.db with same | ⟨report, first, found, changes⟩
      · exact Or.inl (by rw [same])
      · have rows := changes.rows id
        by_cases own : id = report.id
        · rw [if_pos own] at rows
          refine Or.inr ⟨(report.status, .processing), ?_, ?_, ?_⟩
          · rw [statusMove, first]
            rfl
          · rw [own, found]
            rfl
          · rw [rows]
            rfl
        · rw [if_neg own] at rows
          exact Or.inl (by rw [rows])
  | writeStagingBatch other batch =>
      obtain ⟨db, written, rfl⟩ := store_ok executed
      exact .of_tables (writeStagingBatch_changes written) _
  | writeErrorBatch other batch =>
      obtain ⟨db, written, rfl⟩ := store_ok executed
      obtain ⟨added, _, changes⟩ := writeErrorBatch_changes written
      exact .of_tables changes _
  | insertDuplicateErrors other rawValueChars =>
      obtain ⟨db, written, rfl⟩ := store_ok executed
      obtain ⟨added, _, changes⟩ := insertErrors_changes written
      exact .of_tables changes _
  | errorCount other =>
      cases executed
      exact Or.inl rfl
  | finalizeValidationFailure other rowCount count =>
      cases executed
      exact .of_processing (finalizeValidationFailure_changes other rowCount count s.db)
        fun _ => rfl
  | markValidated other rowCount =>
      cases executed
      have rows := (markValidated_changes other rowCount s.db).rows id
      left
      rw [rows]
      split
      · next own =>
          rw [own, Option.map_map]
          congr 1
          funext report
          simp only [Function.comp_apply, whileProcessing]
          split
          · rfl
          · rfl
      · rfl
  | markProcessingFailed other =>
      obtain ⟨db, written, rfl⟩ := store_ok executed
      obtain ⟨added, changes⟩ := markFailed_changes written
      exact .of_processing changes fun _ => rfl
  | markApplyFailed other =>
      obtain ⟨db, written, rfl⟩ := store_ok executed
      obtain ⟨added, changes⟩ := markFailed_changes written
      exact .of_processing changes fun _ => rfl
  | apply other =>
      obtain ⟨db, ran, rfl⟩ := exec_apply executed
      obtain ⟨report, inventory, counters, found, ready, _, _, changes⟩ :=
        applyReport_changes ran
      have processing := (readyForApply_cases ready).1
      have asked : Changes s.db db other ⟨(s.db.reports.find other).map
          (whileProcessing (Report.complete s.db.now counters)), [], s.db.errorsOf other⟩
          inventory := by
        rw [whileProcessing_found found processing]
        exact changes
      exact .of_processing asked fun _ => rfl

/-- Every transaction of the worker but the apply leaves the inventory as it is. -/
theorem exec_inventory (executed : t.exec s = .ok (reply, s')) (other : ∀ id, t ≠ .apply id) :
    s'.db.inventory = s.db.inventory := by
  cases t with
  | claim =>
      cases executed
      rcases claim_first s.db with same | ⟨_, _, _, changes⟩
      · exact congrArg Database.inventory same
      · exact changes.inventory
  | writeStagingBatch id batch =>
      obtain ⟨db, written, rfl⟩ := store_ok executed
      exact (writeStagingBatch_changes written).inventory
  | writeErrorBatch id batch =>
      obtain ⟨db, written, rfl⟩ := store_ok executed
      obtain ⟨_, _, changes⟩ := writeErrorBatch_changes written
      exact changes.inventory
  | insertDuplicateErrors id rawValueChars =>
      obtain ⟨db, written, rfl⟩ := store_ok executed
      obtain ⟨_, _, changes⟩ := insertErrors_changes written
      exact changes.inventory
  | errorCount id =>
      cases executed
      rfl
  | finalizeValidationFailure id rowCount count =>
      cases executed
      rfl
  | markValidated id rowCount =>
      cases executed
      rfl
  | markProcessingFailed id =>
      obtain ⟨db, written, rfl⟩ := store_ok executed
      obtain ⟨_, changes⟩ := markFailed_changes written
      exact changes.inventory
  | markApplyFailed id =>
      obtain ⟨db, written, rfl⟩ := store_ok executed
      obtain ⟨_, changes⟩ := markFailed_changes written
      exact changes.inventory
  | apply id => exact absurd rfl (other id)

/-- What an apply has laid over the inventory. -/
theorem exec_overlays {id : Nat} {result : ApplyResult}
    (executed : Transaction.exec (.apply id) s = .ok (result, s')) :
    ∃ joined, Joined s.db.inventory (s.db.stagedRows id) s.db.now joined ∧
      s'.db.inventory.warehouses = joined.warehouses ∧
      s'.db.inventory.products = joined.products ∧
      snapshotLayout.Overlays (s.db.stagedRows id) s.db.inventory.view s'.db.inventory.view := by
  obtain ⟨db, ran, rfl⟩ := exec_apply executed
  obtain ⟨_, inventory, counters, _, _, statements, _, changes⟩ := applyReport_changes ran
  obtain ⟨joined, stocked, state, stocks, shape, _⟩ := applyStatements_cases statements
  obtain ⟨_, warehouses, products⟩ := applyExplicitStocks_spec stocks
  have same : db.inventory = inventory := changes.inventory
  refine ⟨joined, state, ?_, ?_, ?_⟩
  · rw [same, shape]
    exact warehouses
  · rw [same, shape]
    exact products
  · rw [same]
    exact applyStatements_overlays statements

theorem exec_errors {reportId : Nat} (executed : t.exec s = .ok (reply, s'))
    (spared : ErrorsSpared s.db reportId t) : s'.db.errorsOf reportId = s.db.errorsOf reportId := by
  cases t with
  | claim =>
      cases executed
      rcases claim_first s.db with same | ⟨report, first, _, changes⟩
      · exact congrArg (Database.errorsOf · reportId) same
      · rw [changes.errorsOf]
        split
        · next own => exact (spared report first own.symm).symm
        · rfl
  | writeStagingBatch id batch =>
      obtain ⟨db, written, rfl⟩ := store_ok executed
      rw [(writeStagingBatch_changes written).errorsOf]
      split
      · next own => rw [own]; rfl
      · rfl
  | writeErrorBatch id batch =>
      obtain ⟨db, written, rfl⟩ := store_ok executed
      obtain ⟨added, issues, changes⟩ := writeErrorBatch_changes written
      rw [changes.errorsOf]
      split
      · next own =>
          rw [spared own.symm, List.map_eq_nil_iff] at issues
          rw [own, issues, List.append_nil]
      · rfl
  | insertDuplicateErrors id rawValueChars =>
      obtain ⟨db, written, rfl⟩ := store_ok executed
      obtain ⟨added, issues, changes⟩ := insertErrors_changes written
      rw [changes.errorsOf]
      split
      · next own =>
          rw [spared own.symm, List.map_nil, List.map_eq_nil_iff] at issues
          rw [own, issues, List.append_nil]
      · rfl
  | errorCount id =>
      cases executed
      rfl
  | finalizeValidationFailure id rowCount count =>
      cases executed
      rfl
  | markValidated id rowCount =>
      cases executed
      rfl
  | markProcessingFailed id =>
      obtain ⟨db, written, rfl⟩ := store_ok executed
      obtain ⟨_, changes⟩ := markFailed_changes written
      rw [changes.errorsOf, if_neg spared.symm]
  | markApplyFailed id =>
      obtain ⟨db, written, rfl⟩ := store_ok executed
      obtain ⟨_, changes⟩ := markFailed_changes written
      rw [changes.errorsOf, if_neg spared.symm]
  | apply id =>
      obtain ⟨db, ran, rfl⟩ := exec_apply executed
      obtain ⟨_, _, _, _, _, _, _, changes⟩ := applyReport_changes ran
      rw [changes.errorsOf]
      split
      · next own => rw [own]
      · rfl

end Transactions

/-! ## What is spared is kept -/

theorem CatalogSpared.selected {locale : Locale} {catalog catalog' : Catalog}
    {code query : Option Text} {names : List (Text × Text)} {now : Nat}
    (spared : CatalogSpared locale catalog code query names)
    (distinct : (names.map Prod.fst).Nodup) (done : catalog.upsertNames names now = some catalog')
    (own : Text) : EntrySelected locale code query catalog' own ↔
      EntrySelected locale code query catalog own := by
  have nameOf := Catalog.upsertNames_nameOf distinct done own
  cases named : names.find? fun entry => entry.1 = own with
  | none =>
      rw [named, Option.map_none, Option.none_or] at nameOf
      rw [EntrySelected, nameOf, EntrySelected]
  | some entry =>
      have same : entry.1 = own := by simpa using List.find?_some named
      have effect := spared entry (List.mem_of_find?_eq_some named)
      rw [named, Option.map_some, Option.some_or] at nameOf
      rw [EntrySelected, nameOf, EntrySelected, ← same, ← effect]
      simp

section Applied

variable {filter : PairFilter} {includeZero : Bool} {before joined after : Inventory}
  {staging : List ValidatedRow} {now : Nat}

/-- Of the inventory a filter asks only for the ids of the two codes. -/
theorem PairFilter.admits_congr {inventory inventory' : Inventory} {warehouse sku : Text}
    (warehouses : inventory'.warehouses.idOf warehouse = inventory.warehouses.idOf warehouse)
    (products : inventory'.products.idOf sku = inventory.products.idOf sku) :
    filter.Admits inventory' warehouse sku ↔ filter.Admits inventory warehouse sku := by
  constructor
  · intro admits
    exact ⟨warehouses ▸ admits.warehouseId, admits.warehouseCode, products ▸ admits.productId,
      admits.sku⟩
  · intro admits
    exact ⟨warehouses.symm ▸ admits.warehouseId, admits.warehouseCode,
      products.symm ▸ admits.productId, admits.sku⟩

/-- A balance has kept the ids of its codes. -/
theorem joined_admits (state : Joined before staging now joined) {warehouse sku : Text}
    {quantity : Quantity} (found : before.quantityOf warehouse sku = some quantity) :
    filter.Admits joined warehouse sku ↔ filter.Admits before warehouse sku := by
  obtain ⟨balance, stored, _⟩ := Option.map_eq_some_iff.mp found
  simp only [Inventory.balanceOf, Option.bind_eq_some_iff] at stored
  obtain ⟨warehouseId, knownWarehouse, productId, knownProduct, _⟩ := stored
  have keptWarehouse :=
    Catalog.upsertNames_idOf (lastNames_nodup _ _ _) state.warehouses knownWarehouse
  have keptProduct := Catalog.upsertNames_idOf (lastNames_nodup _ _ _) state.products knownProduct
  exact PairFilter.admits_congr (keptWarehouse.trans knownWarehouse.symm)
    (keptProduct.trans knownProduct.symm)

theorem StocksSpared.quantity (spared : StocksSpared filter includeZero before joined staging)
    (overlays : snapshotLayout.Overlays staging before.view after.view) {warehouse sku : Text}
    (admits : filter.Admits joined warehouse sku) :
    QuantityAdmitted includeZero (after.quantityOf warehouse sku) ↔
      QuantityAdmitted includeZero (before.quantityOf warehouse sku) := by
  have laid := overlays.quantity warehouse sku
  simp only [Inventory.view] at laid
  rcases laid with ⟨row, member, lists, set⟩ | ⟨none, kept⟩
  · obtain ⟨rfl, rfl⟩ := lists
    rw [set]
    exact spared.listed row member admits
  · rw [kept]
    split
    · next mentioned =>
        constructor
        · intro zeroed
          obtain ⟨value, isValue, nonzero⟩ := zeroed
          obtain ⟨old, isOld, rfl⟩ := Option.map_eq_some_iff.mp isValue
          refine ⟨old, isOld, fun without => absurd rfl (nonzero without)⟩
        · intro admitted
          obtain ⟨old, isOld, nonzero⟩ := admitted
          refine ⟨0, by rw [Option.mem_def.mp isOld]; rfl, fun without => ?_⟩
          rcases spared.missing warehouse sku admits ⟨old, isOld, nonzero⟩ with zeros | fine
          · rw [zeros] at without
            cases without
          · exfalso
            have unlisted := listed_eq_none_iff.mpr none
            simp only [missingPair, mentioned, unlisted, Option.isNone_none, Bool.and_self,
              Bool.true_and, bne_eq_false_iff_eq] at fine
            cases (Option.mem_def.mp isOld).symm.trans fine
            exact nonzero without rfl
    · rfl

theorem StocksSpared.selected (spared : StocksSpared filter includeZero before joined staging)
    (state : Joined before staging now joined)
    (overlays : snapshotLayout.Overlays staging before.view after.view)
    (warehouses : after.warehouses = joined.warehouses)
    (products : after.products = joined.products) (pair : Text × Text) :
    PairSelected filter includeZero after pair ↔ PairSelected filter includeZero before pair := by
  have ids : filter.Admits after pair.1 pair.2 ↔ filter.Admits joined pair.1 pair.2 :=
    PairFilter.admits_congr (by rw [warehouses]) (by rw [products])
  unfold PairSelected
  rw [ids]
  constructor
  · intro selected
    obtain ⟨admits, admitted⟩ := selected
    have earlier := (spared.quantity overlays admits).mp admitted
    obtain ⟨quantity, found, nonzero⟩ := earlier
    exact ⟨(joined_admits state found).mp admits, quantity, found, nonzero⟩
  · intro selected
    obtain ⟨admits, admitted⟩ := selected
    obtain ⟨quantity, found, nonzero⟩ := admitted
    have later := (joined_admits state found).mpr admits
    exact ⟨later, (spared.quantity overlays later).mpr ⟨quantity, found, nonzero⟩⟩

end Applied

section Spared

variable {locale : Locale} {request : ListRequest}

/-- A transaction that spares the selection of a request keeps its total. -/
theorem exec_total {t : Transaction} {s s' : Ledger} {reply : t.Reply}
    (executed : t.exec s = .ok (reply, s')) (spared : request.SparedBy locale s.db t) :
    request.total locale s'.db = request.total locale s.db := by
  cases request with
  | reports wanted =>
      exact reports_total fun id => (exec_moved executed id).selected spared
  | errors reportId => rw [errors_total, errors_total, exec_errors executed spared]
  | warehouses code query =>
      rw [ListRequest.total_eq, ListRequest.total_eq]
      refine catalog_total fun own => ?_
      by_cases applies : ∃ id, t = .apply id
      · obtain ⟨id, rfl⟩ := applies
        obtain ⟨joined, state, warehouses, _, _⟩ := exec_overlays executed
        rw [warehouses]
        exact (spared id rfl).selected (lastNames_nodup _ _ _) state.warehouses own
      · rw [exec_inventory executed fun id same => applies ⟨id, same⟩]
  | products sku query =>
      rw [ListRequest.total_eq, ListRequest.total_eq]
      refine catalog_total fun own => ?_
      by_cases applies : ∃ id, t = .apply id
      · obtain ⟨id, rfl⟩ := applies
        obtain ⟨joined, state, _, products, _⟩ := exec_overlays executed
        rw [products]
        exact (spared id rfl).selected (lastNames_nodup _ _ _) state.products own
      · rw [exec_inventory executed fun id same => applies ⟨id, same⟩]
  | stocks warehouseId warehouseCode productId sku includeZero =>
      rw [ListRequest.total_eq, ListRequest.total_eq]
      refine @stocks_total ⟨warehouseId, warehouseCode, productId, sku⟩ includeZero _ _
        fun pair => ?_
      by_cases applies : ∃ id, t = .apply id
      · obtain ⟨id, rfl⟩ := applies
        obtain ⟨joined, state, warehouses, products, overlays⟩ := exec_overlays executed
        exact (spared id rfl joined state).selected state overlays warehouses products pair
      · rw [exec_inventory executed fun id same => applies ⟨id, same⟩]

/-- What happens outside the workers keeps a total, if no registration adds to it. -/
theorem environment_total {e : Environment} {db db' : Database}
    (happened : e.step db = some db')
    (spared : ∀ registration, e = .register registration → request.SparedByRegistration) :
    request.total locale db' = request.total locale db := by
  obtain ⟨inventory, data⟩ := Environment.step_cases happened
  cases request with
  | reports wanted =>
      refine reports_total fun id => ?_
      cases e with
      | tick =>
          cases happened
          rfl
      | register registration =>
          rcases data with same | ⟨new, fresh, changes⟩
          · have kept : db'.reports.find id = db.reports.find id := congrArg ReportData.report (same id)
            rw [ReportSelected, kept, ReportSelected]
          · have rows := changes.rows id
            by_cases own : id = new.id
            · rw [if_pos own] at rows
              refine iff_of_false ?_ ?_
              · intro selected
                obtain ⟨report, found, admitted⟩ := selected
                cases (Option.mem_def.mp found).symm.trans rows
                exact spared registration rfl admitted
              · intro selected
                obtain ⟨report, found, _⟩ := selected
                rw [own] at found
                cases (Option.mem_def.mp found).symm.trans fresh
            · rw [if_neg own] at rows
              rw [ReportSelected, rows, ReportSelected]
  | errors reportId =>
      rw [errors_total, errors_total]
      rcases data with same | ⟨new, _, changes⟩
      · exact congrArg (fun data => data.errors.length) (same reportId)
      · rw [changes.errorsOf]
        split
        · next own => rw [own]; rfl
        · rfl
  | warehouses code query => simp only [ListRequest.total, ListRequest.queries, inventory]
  | products sku query => simp only [ListRequest.total, ListRequest.queries, inventory]
  | stocks warehouseId warehouseCode productId sku includeZero =>
      simp only [ListRequest.total, ListRequest.queries, inventory]

end Spared

end StockImport.Api

import StockImport.Api.Files
import StockImport.Db.Growth

/-!
# What is found under an id that was shown

Clients keep the ids of what they have listed.  Every later import may rename the rows and
change the quantities; what an id stands for stays.
-/

set_option autoImplicit false

namespace StockImport.Api

open PyText Csv Db Tables Queries Transactional Worker

/-! ## get_warehouse and get_product -/

inductive LookupException where
  | warehouseNotFound
  | productNotFound
  deriving DecidableEq, Repr

/-- `session.get`, with the exception for no row. -/
def getRow (catalog : Catalog) (missing : LookupException) (id : Nat) :
    Except LookupException CatalogRow :=
  match catalog.table.rows.find? fun row => row.id = id with
  | none => .error missing
  | some row => .ok row

def getWarehouse (warehouseId : Nat) (db : Database) : Except LookupException CatalogRow :=
  getRow db.inventory.warehouses .warehouseNotFound warehouseId

def getProduct (productId : Nat) (db : Database) : Except LookupException CatalogRow :=
  getRow db.inventory.products .productNotFound productId

theorem getRow_ok {catalog : Catalog} {missing : LookupException} {id : Nat} {row : CatalogRow} :
    getRow catalog missing id = .ok row ↔ row ∈ catalog.table.rows ∧ row.id = id := by
  rw [← find?_key_eq_some catalog.ids]
  unfold getRow
  cases catalog.table.rows.find? fun row => row.id = id with
  | none => simp
  | some found => simp

/-- A row that is still there is found under its id. -/
theorem getRow_stays {catalog later : Catalog} (missing : LookupException)
    (grows : catalog.table.rows.map CatalogRow.identity ⊆ later.table.rows.map CatalogRow.identity)
    {row : CatalogRow} (member : row ∈ catalog.table.rows) :
    ∃ now, getRow later missing row.id = .ok now ∧ now.identity = row.identity := by
  obtain ⟨now, inLater, same⟩ := List.mem_map.mp (grows (List.mem_map_of_mem member))
  exact ⟨now, getRow_ok.mpr ⟨inLater, congrArg Prod.fst same⟩, same⟩

/-! ## The stock of a pair of ids -/

/-- The request for the stock of one pair of ids. -/
abbrev pairOf (item : StockReadModel) : ListRequest :=
  .stocks (some item.warehouseId) none (some item.productId) none true

theorem joined_stays {before after : Inventory} (grows : Grows before after) {row : StockRow}
    (joined : row ∈ joinStocks before) :
    ∃ now ∈ joinStocks after, now.balance.identity = row.balance.identity ∧
      now.warehouse.identity = row.warehouse.identity ∧
      now.product.identity = row.product.identity := by
  obtain ⟨inBalances, inWarehouses, inProducts, warehouseId, productId⟩ := mem_joinStocks.mp joined
  obtain ⟨balance, balanceLater, sameBalance⟩ :=
    List.mem_map.mp (grows.balances (List.mem_map_of_mem inBalances))
  obtain ⟨warehouse, warehouseLater, sameWarehouse⟩ :=
    List.mem_map.mp (grows.warehouses (List.mem_map_of_mem inWarehouses))
  obtain ⟨product, productLater, sameProduct⟩ :=
    List.mem_map.mp (grows.products (List.mem_map_of_mem inProducts))
  have ids := StockBalance.of_identity sameBalance
  refine ⟨((balance, warehouse), product), ?_, sameBalance, sameWarehouse, sameProduct⟩
  exact mem_joinStocks.mpr ⟨balanceLater, warehouseLater, productLater,
    ((CatalogRow.of_identity sameWarehouse).1.trans warehouseId).trans ids.1.symm,
    ((CatalogRow.of_identity sameProduct).1.trans productId).trans ids.2.symm⟩

/-- One row has the pair. -/
theorem pairOf_matches {locale : Locale} {db : Database} {item : StockReadModel} {row : StockRow}
    (joined : row ∈ joinStocks db.inventory) (warehouseId : row.warehouse.id = item.warehouseId)
    (productId : row.product.id = item.productId) (other : StockRow) :
    (pairOf item).Matches locale db other ↔ other = row := by
  have own := mem_joinStocks.mp joined
  have rowWarehouse : row.balance.warehouseId = item.warehouseId :=
    own.2.2.2.1.symm.trans warehouseId
  have rowProduct : row.balance.productId = item.productId := own.2.2.2.2.symm.trans productId
  constructor
  · intro ⟨inTables, sameWarehouse, _, sameProduct, _⟩
    have key : other.balance.key = row.balance.key :=
      Prod.ext ((sameWarehouse _ rfl).trans rowWarehouse.symm)
        ((sameProduct _ rfl).trans rowProduct.symm)
    have balance : other.balance = row.balance :=
      List.inj_on_of_nodup_map db.inventory.balances.unique inTables.1 own.1 key
    exact joined_of_balance (mem_joinStocks.mpr inTables) joined balance
  · rintro rfl
    refine ⟨own, ?_, by simp, ?_, by simp, by simp⟩
    · intro id wanted
      cases wanted
      exact rowWarehouse
    · intro id wanted
      cases wanted
      exact rowProduct

/-- It is the whole reply. -/
theorem pair_reply {locale : Locale} {db : Database} {item : StockReadModel} {row : StockRow}
    (joined : row ∈ joinStocks db.inventory) (warehouseId : row.warehouse.id = item.warehouseId)
    (productId : row.product.id = item.productId) {limit : Nat} (positive : 0 < limit)
    {items : List StockReadModel} (reply : (pairOf item).IsReply locale limit 0 db items) :
    items = [row.readModel] := by
  obtain ⟨page, ⟨listing, isListing, rfl⟩, rfl⟩ := reply
  have once : listing.Nodup :=
    isListing.perm.nodup_iff.mpr (Select.rows_nodup (joinStocks_nodup db.inventory))
  have only : ∀ other, other ∈ listing ↔ other ∈ [row] := by
    intro other
    rw [isListing.perm.mem_iff, (pairOf item).mem_rows, List.mem_singleton]
    exact pairOf_matches joined warehouseId productId other
  have single : listing = [row] :=
    List.perm_singleton.mp ((List.perm_ext_iff_of_nodup once (List.nodup_singleton row)).mpr only)
  rw [single, window, List.drop_zero, List.take_of_length_le positive]
  rfl

/-! ## Later moments of a run -/

section Later

variable {deployment : Deployment}

theorem step_grows {world next : ServiceWorld} {action : ServiceAction deployment}
    (stepped : (service deployment).step world action = some next) :
    Grows world.shared.db.inventory next.shared.db.inventory := by
  rcases step_shared stepped with ⟨same, _⟩ | ⟨e, _, happened, _⟩ |
    ⟨_, _, _, _, t, reply, _, _, _, executed, _⟩
  · rw [same]
    exact .refl _
  · rw [(environment_joins happened).inventory]
    exact .refl _
  · cases exec_rowEffect executed with
    | moved _ _ _ _ _ _ inventory =>
        rw [inventory]
        exact .refl _
    | applied _ _ _ _ statements _ _ => exact applyStatements_grows statements

variable (run : ServiceRun deployment) {earlier moment : Nat}

theorem committed_grows (later : earlier ≤ moment) :
    Grows (committed run earlier).inventory (committed run moment).inventory := by
  induction later with
  | refl => exact .refl _
  | @step moment _ ih =>
      refine ih.trans ?_
      unfold committed
      rcases run.moves moment with still | ⟨action, stepped⟩
      · rw [still]
        exact .refl _
      · exact step_grows stepped

theorem report_stays (later : earlier ≤ moment) {id : Nat} {report : Report}
    (found : (committed run earlier).reports.find id = some report) :
    ∃ now, (committed run moment).reports.find id = some now ∧
      Report.registration now = Report.registration report := by
  induction later with
  | refl => exact ⟨report, found, rfl⟩
  | @step moment _ ih =>
      obtain ⟨before, foundBefore, same⟩ := ih
      unfold committed at foundBefore ⊢
      rcases run.moves moment with still | ⟨action, stepped⟩
      · rw [still]
        exact ⟨before, foundBefore, same⟩
      · obtain ⟨now, foundNow, moves⟩ := step_rowMoves stepped foundBefore
        exact ⟨now, foundNow, moves.registration.trans same⟩

end Later

/-! ## What was shown -/

/-- Two items about one balance, apart from names, quantity and time of update. -/
structure SamePair (item now : StockReadModel) : Prop where
  warehouseId : now.warehouseId = item.warehouseId
  warehouseCode : now.warehouseCode = item.warehouseCode
  productId : now.productId = item.productId
  sku : now.sku = item.sku
  createdAt : now.createdAt = item.createdAt

/-- The ids of a stock lead to its warehouse, to its product and, together, to itself. -/
structure StockLeadsTo (locale : Locale) (db : Database) (item : StockReadModel) : Prop where
  warehouse : ∃ now, getWarehouse item.warehouseId db = .ok now ∧ now.code = item.warehouseCode
  product : ∃ now, getProduct item.productId db = .ok now ∧ now.code = item.sku
  stock : ∃ now, SamePair item now ∧ ∀ limit items, 0 < limit →
    (pairOf item).IsReply locale limit 0 db items → items = [now]

/-- What the ids of an item lead to. -/
def ListRequest.LeadsTo (locale : Locale) (db : Database) :
    (request : ListRequest) → request.Item → Prop
  | .reports _ => fun report => ∃ now, db.reports.find report.id = some now ∧
      Report.registration now = Report.registration report
  | .errors reportId => fun error => error.reportId = reportId ∧
      (ListRequest.errors reportId).found db = true
  | .warehouses _ _ => fun warehouse => ∃ now, getWarehouse warehouse.id db = .ok now ∧
      now.identity = warehouse.identity
  | .products _ _ => fun product => ∃ now, getProduct product.id db = .ok now ∧
      now.identity = product.identity
  | .stocks _ _ _ _ _ => StockLeadsTo locale db

theorem ListRequest.IsReply.shows {locale : Locale} {request : ListRequest} {limit offset : Nat}
    {db : Database} {items : List request.Item} {item : request.Item}
    (reply : request.IsReply locale limit offset db items) (member : item ∈ items) :
    ∃ row, request.Matches locale db row ∧ request.present row = item := by
  obtain ⟨page, ⟨listing, isListing, rfl⟩, rfl⟩ := reply
  obtain ⟨row, inPage, rfl⟩ := List.mem_map.mp member
  have inListing : row ∈ listing := List.mem_of_mem_drop (List.mem_of_mem_take inPage)
  exact ⟨row, (request.mem_rows row).mp (isListing.perm.mem_iff.mp inListing), rfl⟩

theorem stock_leadsTo {before after : Database} (grows : Grows before.inventory after.inventory)
    (locale : Locale) {row : StockRow} (joined : row ∈ joinStocks before.inventory) :
    StockLeadsTo locale after row.readModel := by
  have own := mem_joinStocks.mp joined
  obtain ⟨warehouse, foundWarehouse, sameWarehouse⟩ :=
    getRow_stays .warehouseNotFound grows.warehouses own.2.1
  obtain ⟨product, foundProduct, sameProduct⟩ :=
    getRow_stays .productNotFound grows.products own.2.2.1
  obtain ⟨now, stays, balance, nowWarehouse, nowProduct⟩ := joined_stays grows joined
  obtain ⟨warehouseId, warehouseCode⟩ := CatalogRow.of_identity nowWarehouse
  obtain ⟨productId, sku⟩ := CatalogRow.of_identity nowProduct
  constructor
  · exact ⟨warehouse, foundWarehouse, (CatalogRow.of_identity sameWarehouse).2⟩
  · exact ⟨product, foundProduct, (CatalogRow.of_identity sameProduct).2⟩
  · refine ⟨now.readModel, ⟨warehouseId, warehouseCode, productId, sku, congrArg Prod.snd balance⟩, ?_⟩
    intro limit items positive reply
    exact pair_reply stays warehouseId productId positive reply

/-- Whatever is committed after a list was shown, its ids lead to what was shown. -/
theorem shown_ids_stay (deployment : Deployment) (run : ServiceRun deployment) (locale : Locale)
    (request : ListRequest) (reading : Reading request) (limit offset : Nat)
    (page : ListPage request.Item) (answers : Answers run locale reading limit offset (some page))
    (moment : Nat) (later : reading.listed ≤ moment) :
    ∀ item ∈ page.items, request.LeadsTo locale (committed run moment) item := by
  intro item member
  obtain ⟨row, shown, rfl⟩ := (Responds.items answers).shows member
  have grows := committed_grows run later
  cases request with
  | reports status =>
      obtain ⟨inTable, _⟩ := shown
      have found := (Table.find_eq_some (committed run reading.listed).reports).mpr ⟨inTable, rfl⟩
      exact report_stays run later found
  | errors reportId =>
      -- the report was looked for before the errors were listed
      have order : reading.checked ≤ reading.counted ∧ reading.counted ≤ reading.listed :=
        reading.inOrder
      have found : (ListRequest.errors reportId).found (committed run reading.checked) = true := by
        cases answers with
        | page found _ => exact found
      obtain ⟨report, isReport⟩ := Option.isSome_iff_exists.mp found
      obtain ⟨now, foundNow, _⟩ :=
        report_stays run ((order.1.trans order.2).trans later) isReport
      exact ⟨shown.2, Option.isSome_iff_exists.mpr ⟨now, foundNow⟩⟩
  | warehouses code query => exact getRow_stays .warehouseNotFound grows.warehouses shown.1
  | products sku query => exact getRow_stays .productNotFound grows.products shown.1
  | stocks warehouseId warehouseCode productId sku includeZero =>
      exact stock_leadsTo grows locale (mem_joinStocks.mpr shown.1)

/-- All stocks, listed after the first apply. -/
def firstReading : Reading (.stocks none none none none true) := ⟨37, 37, 37, by decide⟩

/-- The second apply leaves every pair that the first has shown under its ids. -/
theorem shown_ids_stay_appliedRun :
    ∃ page, Answers appliedRun plainLocale firstReading 50 0 (some page) ∧ page.items ≠ [] ∧
      ∀ item ∈ page.items, (ListRequest.stocks none none none none true).LeadsTo plainLocale
        (committed appliedRun sampleApplied.length) item := by
  have later : firstReading.listed ≤ sampleApplied.length := by decide +kernel
  have any : 0 < (ListRequest.stocks none none none none true).total plainLocale
      (committed appliedRun firstReading.listed) := by decide +kernel
  obtain ⟨page, answers, _, items⟩ := exists_answer appliedRun plainLocale firstReading 50 0 rfl
  refine ⟨page, answers, ?_, shown_ids_stay sampleDeployment appliedRun plainLocale _ firstReading
    50 0 page answers _ later⟩
  intro empty
  rw [empty, List.length_nil] at items
  omega

end StockImport.Api

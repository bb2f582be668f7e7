import StockImport.Db.Schema
import StockImport.Library.Queries

/-!
# The list endpoints

`list_reports`, `list_errors`, `list_warehouses`, `list_products` and `list_stocks`.
Each builds an item query and a count query side by side and issues both in one
transaction; what the database decides by its locale is a parameter.
-/

set_option autoImplicit false

namespace StockImport.Api

open PyText Csv Db Queries

/-- The collation of the text columns, under which different texts may compare equal, and
`icontains(query, autoescape=True)`. -/
structure Locale where
  collate : Text → Text → Ordering
  trans : Std.TransCmp collate
  icontains : (value query : Text) → Bool

instance (locale : Locale) : Std.TransCmp locale.collate := locale.trans

/-! ## Queries -/

/-- The two queries of an endpoint. -/
structure ListQueries (Row : Type) where
  itemQuery : Select Row
  countQuery : Select Row

section Building

variable {Row : Type}

def ListQueries.select (source : List Row) : ListQueries Row := ⟨⟨source, []⟩, ⟨source, []⟩⟩

def ListQueries.restrict (queries : ListQueries Row) (condition : Row → Bool) : ListQueries Row :=
  ⟨queries.itemQuery.restrict condition, queries.countQuery.restrict condition⟩

/-- `if value is not None:` a condition on both queries. -/
def ListQueries.restrictSome {Value : Type} (queries : ListQueries Row) (value : Option Value)
    (condition : Value → Row → Bool) : ListQueries Row :=
  match value with
  | none => queries
  | some value => queries.restrict (condition value)

end Building

def reportQueries (db : Database) (status : Option ReportStatus) : ListQueries Report :=
  (ListQueries.select db.reports.rows).restrictSome status fun status report =>
    report.status = status

def errorQueries (db : Database) (reportId : Nat) : ListQueries ReportError :=
  (ListQueries.select db.errors).restrict fun error => error.reportId = reportId

/-- The warehouses or the products, by code and by a search in code and name. -/
def catalogQueries (locale : Locale) (catalog : Catalog) (code query : Option Text) :
    ListQueries CatalogRow :=
  ((ListQueries.select catalog.table.rows).restrictSome code fun code row =>
    row.code = code).restrictSome query fun query row =>
      locale.icontains row.code query || locale.icontains row.name query

/-- A balance with its warehouse and its product. -/
abbrev StockRow := (StockBalance × CatalogRow) × CatalogRow

def StockRow.balance (row : StockRow) : StockBalance := row.1.1

def StockRow.warehouse (row : StockRow) : CatalogRow := row.1.2

def StockRow.product (row : StockRow) : CatalogRow := row.2

def joinStocks (inventory : Inventory) : List StockRow :=
  innerJoin
    (innerJoin inventory.balances.rows inventory.warehouses.table.rows
      fun balance warehouse => warehouse.id = balance.warehouseId)
    inventory.products.table.rows
    fun joined product => product.id = joined.1.productId

def stockFilters (warehouseId : Option Nat) (warehouseCode : Option Text) (productId : Option Nat)
    (sku : Option Text) (includeZero : Bool) : List (StockRow → Bool) :=
  (warehouseId.map fun id (row : StockRow) => decide (row.balance.warehouseId = id)).toList ++
    (warehouseCode.map fun code (row : StockRow) => decide (row.warehouse.code = code)).toList ++
    (productId.map fun id (row : StockRow) => decide (row.balance.productId = id)).toList ++
    (sku.map fun sku (row : StockRow) => decide (row.product.code = sku)).toList ++
    if includeZero then [] else [fun row => decide (row.balance.quantity.value ≠ 0)]

def stockQueries (inventory : Inventory) (filters : List (StockRow → Bool)) :
    ListQueries StockRow :=
  ⟨⟨joinStocks inventory, filters⟩, ⟨joinStocks inventory, filters⟩⟩

structure StockReadModel where
  warehouseId : Nat
  warehouseCode : Text
  warehouseName : Text
  productId : Nat
  sku : Text
  productName : Text
  quantity : Quantity
  createdAt : Nat
  updatedAt : Nat
  deriving DecidableEq, Repr

def StockRow.readModel (row : StockRow) : StockReadModel where
  warehouseId := row.warehouse.id
  warehouseCode := row.warehouse.code
  warehouseName := row.warehouse.name
  productId := row.product.id
  sku := row.product.code
  productName := row.product.name
  quantity := row.balance.quantity
  createdAt := row.balance.createdAt
  updatedAt := row.balance.updatedAt

/-! ## Requests -/

inductive ListRequest where
  | reports (status : Option ReportStatus)
  | errors (reportId : Nat)
  | warehouses (code query : Option Text)
  | products (sku query : Option Text)
  | stocks (warehouseId : Option Nat) (warehouseCode : Option Text) (productId : Option Nat)
      (sku : Option Text) (includeZero : Bool)
  deriving DecidableEq, Repr

namespace ListRequest

abbrev Row : ListRequest → Type
  | .reports _ => Report
  | .errors _ => ReportError
  | .warehouses _ _ => CatalogRow
  | .products _ _ => CatalogRow
  | .stocks _ _ _ _ _ => StockRow

abbrev Item : ListRequest → Type
  | .reports _ => Report
  | .errors _ => ReportError
  | .warehouses _ _ => CatalogRow
  | .products _ _ => CatalogRow
  | .stocks _ _ _ _ _ => StockReadModel

def present : (request : ListRequest) → request.Row → request.Item
  | .reports _ => fun row => row
  | .errors _ => fun row => row
  | .warehouses _ _ => fun row => row
  | .products _ _ => fun row => row
  | .stocks _ _ _ _ _ => StockRow.readModel

def queries (locale : Locale) (db : Database) : (request : ListRequest) → ListQueries request.Row
  | .reports status => reportQueries db status
  | .errors reportId => errorQueries db reportId
  | .warehouses code query => catalogQueries locale db.inventory.warehouses code query
  | .products sku query => catalogQueries locale db.inventory.products sku query
  | .stocks warehouseId warehouseCode productId sku includeZero =>
      stockQueries db.inventory (stockFilters warehouseId warehouseCode productId sku includeZero)

def catalogOrder (locale : Locale) : CatalogRow → CatalogRow → Ordering :=
  compareLex (orderBy locale.collate CatalogRow.code) (orderBy compare CatalogRow.id)

/-- `ORDER BY`.  A missing line number comes first. -/
def order (locale : Locale) : (request : ListRequest) → request.Row → request.Row → Ordering
  | .reports _ =>
      compareLex (descending (orderBy compare Report.createdAt))
        (descending (orderBy compare Report.id))
  | .errors _ =>
      compareLex (orderBy compare fun error : ReportError => error.lineNumber)
        (orderBy compare ReportError.id)
  | .warehouses _ _ => catalogOrder locale
  | .products _ _ => catalogOrder locale
  | .stocks _ _ _ _ _ =>
      compareLex (orderBy locale.collate fun row : StockRow => row.warehouse.code)
        (compareLex (orderBy locale.collate fun row : StockRow => row.product.code)
          (compareLex (orderBy compare fun row : StockRow => row.warehouse.id)
            (orderBy compare fun row : StockRow => row.product.id)))

example : compare (none : Option Nat) (some 0) = .lt := by decide

/-- Whether the endpoint goes on; `list_errors` looks for its report first. -/
def found (db : Database) : ListRequest → Bool
  | .errors reportId => (db.reports.find reportId).isSome
  | _ => true

/-- `list_reports` selects its items before it counts, the others count first. -/
def countsFirst : ListRequest → Bool
  | .reports _ => false
  | _ => true

/-- The reply of the count query. -/
def total (locale : Locale) (request : ListRequest) (db : Database) : Nat :=
  (request.queries locale db).countQuery.rows.length

/-- A reply of the item query. -/
def IsReply (locale : Locale) (request : ListRequest) (limit offset : Nat) (db : Database)
    (items : List request.Item) : Prop :=
  ∃ page, IsPage (request.order locale) (request.queries locale db).itemQuery.rows limit offset page ∧
    items = page.map request.present

end ListRequest

structure ListPage (Item : Type) where
  items : List Item
  total : Nat
  limit : Nat
  offset : Nat

/-- A response, with the states that its statements see; nothing for `ReportNotFoundError`. -/
inductive Responds (locale : Locale) (request : ListRequest) (limit offset : Nat)
    (checked counted listed : Database) : Option (ListPage request.Item) → Prop
  | notFound (missing : request.found checked = false) :
      Responds locale request limit offset checked counted listed none
  | page {items : List request.Item} (found : request.found checked = true)
      (reply : request.IsReply locale limit offset listed items) :
      Responds locale request limit offset checked counted listed
        (some ⟨items, request.total locale counted, limit, offset⟩)

/-! ## What the queries select -/

section Selected

variable {Row : Type}

/-- Both queries select the same rows. -/
def ListQueries.Agree (queries : ListQueries Row) : Prop := queries.itemQuery = queries.countQuery

theorem ListQueries.select_agree (source : List Row) : (ListQueries.select source).Agree := rfl

theorem ListQueries.Agree.restrict {queries : ListQueries Row} (agree : queries.Agree)
    (condition : Row → Bool) : (queries.restrict condition).Agree := by
  unfold ListQueries.Agree at agree
  rw [ListQueries.Agree, ListQueries.restrict, agree]

theorem ListQueries.Agree.restrictSome {Value : Type} {queries : ListQueries Row}
    (agree : queries.Agree) (value : Option Value) (condition : Value → Row → Bool) :
    (queries.restrictSome value condition).Agree := by
  cases value with
  | none => exact agree
  | some value => exact agree.restrict _

theorem ListQueries.mem_restrictSome {Value : Type} {queries : ListQueries Row}
    {value : Option Value} {condition : Value → Row → Bool} {row : Row} :
    row ∈ (queries.restrictSome value condition).itemQuery.rows ↔
      row ∈ queries.itemQuery.rows ∧ ∀ v ∈ value, condition v row = true := by
  cases value with
  | none => simp [ListQueries.restrictSome]
  | some v =>
      rw [ListQueries.restrictSome, ListQueries.restrict, Select.mem_restrict]
      simp

theorem ListQueries.mem_select {source : List Row} {row : Row} :
    row ∈ (ListQueries.select source).itemQuery.rows ↔ row ∈ source := by
  simp [ListQueries.select, Select.mem_rows]

end Selected

end StockImport.Api

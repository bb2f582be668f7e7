import StockImport.Csv.Validation
import StockImport.Library.Tables

/-!
# The database schema

The tables of the service with their keys and foreign keys.  Timestamps are
readings of the database clock, on which transactions start; generated ids come
from counters.
-/

set_option autoImplicit false

namespace StockImport.Db

open PyText Tables Csv

inductive ReportStatus where
  | pending
  | processing
  | completed
  | failed
  deriving DecidableEq, Repr

inductive FailureKind where
  | validation
  | processing
  deriving DecidableEq, Repr

structure Report where
  id : Nat
  status : ReportStatus
  originalFilename : String
  objectBucket : String
  objectKey : String
  sizeBytes : Nat
  checksumSha256 : Option String
  createdAt : Nat
  processingStartedAt : Option Nat
  finishedAt : Option Nat
  rowCount : Nat
  errorCount : Nat
  stocksCreated : Nat
  stocksUpdated : Nat
  stocksZeroed : Nat
  failureKind : Option FailureKind
  failureMessage : Option String
  deriving DecidableEq, Repr

structure StagingRow extends ValidatedRow where
  reportId : Nat
  deriving DecidableEq, Repr

def StagingRow.key (row : StagingRow) : Nat × Nat := (row.reportId, row.lineNumber)

structure ReportError extends ValidationIssue where
  id : Nat
  reportId : Nat
  createdAt : Nat
  deriving DecidableEq, Repr

/-- A row of `warehouses`, or of `products`, where `code` is the `sku`. -/
structure CatalogRow where
  id : Nat
  code : Text
  name : Text
  createdAt : Nat
  updatedAt : Nat
  deriving DecidableEq, Repr

structure StockBalance where
  warehouseId : Nat
  productId : Nat
  quantity : Quantity
  createdAt : Nat
  updatedAt : Nat
  deriving DecidableEq, Repr

def StockBalance.key (balance : StockBalance) : Nat × Nat :=
  (balance.warehouseId, balance.productId)

instance : Zero Quantity := ⟨⟨0, by decide, by decide⟩⟩

/-- A table with a unique code and generated ids. -/
structure Catalog where
  table : Table CatalogRow CatalogRow.code
  nextId : Nat
  ids : (table.rows.map CatalogRow.id).Nodup
  below : ∀ row ∈ table.rows, row.id < nextId

def Catalog.empty : Catalog := ⟨.empty, 1, List.nodup_nil, by simp [Table.empty]⟩

def Catalog.idOf (catalog : Catalog) (code : Text) : Option Nat :=
  (catalog.table.find code).map CatalogRow.id

def Catalog.nameOf (catalog : Catalog) (code : Text) : Option Text :=
  (catalog.table.find code).map CatalogRow.name

def Catalog.Has (catalog : Catalog) (id : Nat) : Prop := ∃ code, catalog.idOf code = some id

/-- Warehouses, products and balances, every balance with both its references. -/
structure Inventory where
  warehouses : Catalog
  products : Catalog
  balances : Table StockBalance StockBalance.key
  references : ∀ balance ∈ balances.rows,
    warehouses.Has balance.warehouseId ∧ products.Has balance.productId

def Inventory.empty : Inventory := ⟨.empty, .empty, .empty, by simp [Table.empty]⟩

structure Database where
  reports : Table Report Report.id
  staging : Table StagingRow StagingRow.key
  errors : List ReportError
  nextErrorId : Nat
  inventory : Inventory
  now : Nat

def Database.empty : Database := ⟨.empty, .empty, [], 1, .empty, 0⟩

/-- The staging rows of a report. -/
def Database.stagingOf (db : Database) (reportId : Nat) : List StagingRow :=
  db.staging.rows.filter fun row => row.reportId = reportId

def Database.errorsOf (db : Database) (reportId : Nat) : List ReportError :=
  db.errors.filter fun error => error.reportId = reportId

/-! ## What a text or JSON column takes -/

/-- Neither NUL nor a surrogate, which a text or JSON column refuses.  The length of a
text is not limited here: that the codes of a row fit into the entries of their indexes
(some 2.7 kB) is assumed. -/
def storableText (text : Text) : Bool := text.all fun c => c != 0 && !(0xD800 ≤ c && c ≤ 0xDFFF)

def storableRow (row : ValidatedRow) : Bool :=
  storableText row.warehouseCode && storableText row.warehouseName && storableText row.sku &&
    storableText row.productName

def storableValue : RawValue → Bool
  | .text value => storableText value
  | .list items => items.all storableText
  | .number _ => true
  | .flag _ => true

def storableIssue (issue : ValidationIssue) : Bool :=
  (issue.rawData.getD []).all fun entry => storableValue entry.2

/-! ## Codes and ids -/

theorem Catalog.idOf_eq_some {catalog : Catalog} {code : Text} {id : Nat} :
    catalog.idOf code = some id ↔ ∃ row ∈ catalog.table.rows, row.code = code ∧ row.id = id := by
  simp only [Catalog.idOf, Option.map_eq_some_iff, Table.find_eq_some]
  constructor
  · rintro ⟨row, ⟨member, same⟩, sameId⟩
    exact ⟨row, member, same, sameId⟩
  · rintro ⟨row, member, same, sameId⟩
    exact ⟨row, ⟨member, same⟩, sameId⟩

theorem Catalog.idOf_injective {catalog : Catalog} {code code' : Text} {id : Nat}
    (first : catalog.idOf code = some id) (second : catalog.idOf code' = some id) :
    code = code' := by
  obtain ⟨row, member, rfl, rowId⟩ := Catalog.idOf_eq_some.mp first
  obtain ⟨row', member', rfl, rowId'⟩ := Catalog.idOf_eq_some.mp second
  have same : row = row' :=
    List.inj_on_of_nodup_map catalog.ids member member' (rowId.trans rowId'.symm)
  rw [same]

theorem Catalog.idOf_below {catalog : Catalog} {code : Text} {id : Nat}
    (found : catalog.idOf code = some id) : id < catalog.nextId := by
  obtain ⟨row, member, _, rfl⟩ := Catalog.idOf_eq_some.mp found
  exact catalog.below row member

end StockImport.Db

import StockImport.Api.Reads

/-!
# Paging through a fixed state

Every order ends in columns that tell the rows of its endpoint apart, so all pages are
cut out of one listing, whatever the database does with rows of equal sort keys.
-/

set_option autoImplicit false

namespace StockImport.Api

open PyText Csv Db Queries

/-! ## What a request asks for -/

def CatalogMatches (locale : Locale) (catalog : Catalog) (code query : Option Text)
    (row : CatalogRow) : Prop :=
  row ∈ catalog.table.rows ∧ (∀ wanted ∈ code, row.code = wanted) ∧
    ∀ text ∈ query,
      locale.icontains row.code text = true ∨ locale.icontains row.name text = true

/-- The rows a request is about: the rows of its tables, joined along their references,
that meet every given filter. -/
def ListRequest.Matches (locale : Locale) (db : Database) :
    (request : ListRequest) → request.Row → Prop
  | .reports status => fun report =>
      report ∈ db.reports.rows ∧ ∀ wanted ∈ status, report.status = wanted
  | .errors reportId => fun error => error ∈ db.errors ∧ error.reportId = reportId
  | .warehouses code query => CatalogMatches locale db.inventory.warehouses code query
  | .products sku query => CatalogMatches locale db.inventory.products sku query
  | .stocks warehouseId warehouseCode productId sku includeZero => fun row =>
      (row.balance ∈ db.inventory.balances.rows ∧
        row.warehouse ∈ db.inventory.warehouses.table.rows ∧
        row.product ∈ db.inventory.products.table.rows ∧
        row.warehouse.id = row.balance.warehouseId ∧ row.product.id = row.balance.productId) ∧
      (∀ id ∈ warehouseId, row.balance.warehouseId = id) ∧
      (∀ code ∈ warehouseCode, row.warehouse.code = code) ∧
      (∀ id ∈ productId, row.balance.productId = id) ∧
      (∀ code ∈ sku, row.product.code = code) ∧
      (includeZero = false → row.balance.quantity.value ≠ 0)

theorem ListRequest.queries_agree (locale : Locale) (db : Database) (request : ListRequest) :
    (request.queries locale db).Agree := by
  cases request with
  | reports status => exact (ListQueries.select_agree _).restrictSome _ _
  | errors reportId => exact (ListQueries.select_agree _).restrict _
  | warehouses code query =>
      exact ((ListQueries.select_agree _).restrictSome _ _).restrictSome _ _
  | products sku query =>
      exact ((ListQueries.select_agree _).restrictSome _ _).restrictSome _ _
  | stocks warehouseId warehouseCode productId sku includeZero => rfl

theorem mem_catalogQueries {locale : Locale} {catalog : Catalog} {code query : Option Text}
    {row : CatalogRow} :
    row ∈ (catalogQueries locale catalog code query).itemQuery.rows ↔
      CatalogMatches locale catalog code query row := by
  unfold catalogQueries CatalogMatches
  rw [ListQueries.mem_restrictSome, ListQueries.mem_restrictSome, ListQueries.mem_select, and_assoc]
  simp only [decide_eq_true_eq, Bool.or_eq_true]

theorem mem_joinStocks {inventory : Inventory} {row : StockRow} :
    row ∈ joinStocks inventory ↔
      row.balance ∈ inventory.balances.rows ∧ row.warehouse ∈ inventory.warehouses.table.rows ∧
        row.product ∈ inventory.products.table.rows ∧ row.warehouse.id = row.balance.warehouseId ∧
        row.product.id = row.balance.productId := by
  unfold joinStocks StockRow.balance StockRow.warehouse StockRow.product
  rw [mem_innerJoin, mem_innerJoin]
  simp only [decide_eq_true_eq]
  tauto

theorem all_stockFilters {warehouseId : Option Nat} {warehouseCode : Option Text}
    {productId : Option Nat} {sku : Option Text} {includeZero : Bool} {row : StockRow} :
    (∀ condition ∈ stockFilters warehouseId warehouseCode productId sku includeZero,
        condition row = true) ↔
      (∀ id ∈ warehouseId, row.balance.warehouseId = id) ∧
      (∀ code ∈ warehouseCode, row.warehouse.code = code) ∧
      (∀ id ∈ productId, row.balance.productId = id) ∧
      (∀ code ∈ sku, row.product.code = code) ∧
      (includeZero = false → row.balance.quantity.value ≠ 0) := by
  unfold stockFilters
  cases includeZero <;> simp [or_imp, forall_and]

/-- The item query selects what the request asks for. -/
theorem ListRequest.mem_rows {locale : Locale} {db : Database} (request : ListRequest)
    (row : request.Row) :
    row ∈ (request.queries locale db).itemQuery.rows ↔ request.Matches locale db row := by
  cases request with
  | reports status =>
      simp only [queries, reportQueries, Matches]
      rw [ListQueries.mem_restrictSome, ListQueries.mem_select]
      simp only [decide_eq_true_eq]
  | errors reportId =>
      simp only [queries, errorQueries, Matches, ListQueries.restrict]
      rw [Select.mem_restrict, ListQueries.mem_select, decide_eq_true_eq]
  | warehouses code query => exact mem_catalogQueries
  | products sku query => exact mem_catalogQueries
  | stocks warehouseId warehouseCode productId sku includeZero =>
      simp only [queries, stockQueries, Matches]
      rw [Select.mem_rows, mem_joinStocks, all_stockFilters]

/-- Every balance stands in the join, with one warehouse and one product. -/
theorem joinStocks_balance {inventory : Inventory} {balance : StockBalance}
    (member : balance ∈ inventory.balances.rows) :
    ∃! row : StockRow, row ∈ joinStocks inventory ∧ row.balance = balance := by
  obtain ⟨⟨code, hasWarehouse⟩, ⟨sku, hasProduct⟩⟩ := inventory.references balance member
  obtain ⟨warehouse, inWarehouses, -, warehouseId⟩ := Catalog.idOf_eq_some.mp hasWarehouse
  obtain ⟨product, inProducts, -, productId⟩ := Catalog.idOf_eq_some.mp hasProduct
  refine ⟨((balance, warehouse), product), ⟨?_, rfl⟩, ?_⟩
  · exact mem_joinStocks.mpr ⟨member, inWarehouses, inProducts, warehouseId, productId⟩
  · rintro ⟨⟨other, warehouse'⟩, product'⟩ ⟨joined, same⟩
    obtain ⟨-, inWarehouses', inProducts', warehouseId', productId'⟩ := mem_joinStocks.mp joined
    change other = balance at same
    subst same
    have sameWarehouse : warehouse' = warehouse :=
      List.inj_on_of_nodup_map inventory.warehouses.ids inWarehouses' inWarehouses
        (warehouseId'.trans warehouseId.symm)
    have sameProduct : product' = product :=
      List.inj_on_of_nodup_map inventory.products.ids inProducts' inProducts
        (productId'.trans productId.symm)
    rw [sameWarehouse, sameProduct]

/-! ## The rows are told apart -/

theorem joined_of_balance {inventory : Inventory} {row row' : StockRow}
    (joined : row ∈ joinStocks inventory) (joined' : row' ∈ joinStocks inventory)
    (balance : row.balance = row'.balance) : row = row' := by
  obtain ⟨_, _, only⟩ := joinStocks_balance (mem_joinStocks.mp joined).1
  exact (only row ⟨joined, rfl⟩).trans (only row' ⟨joined', balance.symm⟩).symm

/-- The primary key of `report_errors`. -/
def UniqueErrorIds (db : Database) : Prop := (db.errors.map ReportError.id).Nodup

instance (db : Database) : Decidable (UniqueErrorIds db) := inferInstanceAs (Decidable (List.Nodup _))

theorem joinStocks_nodup (inventory : Inventory) : (joinStocks inventory).Nodup :=
  innerJoin_nodup
    (innerJoin_nodup inventory.balances.unique.of_map inventory.warehouses.ids.of_map)
    inventory.products.ids.of_map

theorem ListQueries.restrictSome_nodup {Row Value : Type} {queries : ListQueries Row}
    {value : Option Value} {condition : Value → Row → Bool}
    (distinct : queries.itemQuery.source.Nodup) :
    (queries.restrictSome value condition).itemQuery.source.Nodup := by
  cases value with
  | none => exact distinct
  | some value => exact distinct

theorem ListRequest.rows_nodup {locale : Locale} {db : Database} (keys : UniqueErrorIds db)
    (request : ListRequest) : (request.queries locale db).itemQuery.rows.Nodup := by
  apply Select.rows_nodup
  cases request with
  | reports status => exact ListQueries.restrictSome_nodup db.reports.unique.of_map
  | errors reportId => exact keys.of_map
  | warehouses code query =>
      exact ListQueries.restrictSome_nodup
        (ListQueries.restrictSome_nodup db.inventory.warehouses.ids.of_map)
  | products sku query =>
      exact ListQueries.restrictSome_nodup
        (ListQueries.restrictSome_nodup db.inventory.products.ids.of_map)
  | stocks warehouseId warehouseCode productId sku includeZero =>
      exact joinStocks_nodup db.inventory

instance (locale : Locale) (request : ListRequest) : Std.TransCmp (request.order locale) := by
  cases request with
  | reports status => exact inferInstanceAs (Std.TransCmp (compareLex _ _))
  | errors reportId => exact inferInstanceAs (Std.TransCmp (compareLex _ _))
  | warehouses code query => exact inferInstanceAs (Std.TransCmp (compareLex _ _))
  | products sku query => exact inferInstanceAs (Std.TransCmp (compareLex _ _))
  | stocks warehouseId warehouseCode productId sku includeZero =>
      exact inferInstanceAs (Std.TransCmp (compareLex _ (compareLex _ (compareLex _ _))))

theorem catalogOrder_separates (locale : Locale) (catalog : Catalog) :
    Separates (ListRequest.catalogOrder locale) catalog.table.rows := by
  intro first firstMember second secondMember equal
  obtain ⟨-, sameId⟩ := compareLex_eq_eq.mp equal
  exact List.inj_on_of_nodup_map catalog.ids firstMember secondMember (orderBy_compare_eq_eq.mp sameId)

/-- The rows of each endpoint differ in the last columns of its order. -/
theorem ListRequest.order_separates {locale : Locale} {db : Database} (keys : UniqueErrorIds db)
    (request : ListRequest) :
    Separates (request.order locale) (request.queries locale db).itemQuery.rows := by
  intro first firstMember second secondMember equal
  rw [mem_rows] at firstMember secondMember
  cases request with
  | reports status =>
      obtain ⟨-, sameId⟩ := compareLex_eq_eq.mp equal
      have id := orderBy_compare_eq_eq.mp (descending_eq_eq.mp sameId)
      exact List.inj_on_of_nodup_map db.reports.unique firstMember.1 secondMember.1 id.symm
  | errors reportId =>
      obtain ⟨-, sameId⟩ := compareLex_eq_eq.mp equal
      have id := orderBy_compare_eq_eq.mp sameId
      exact List.inj_on_of_nodup_map keys firstMember.1 secondMember.1 id
  | warehouses code query =>
      exact catalogOrder_separates locale _ first firstMember.1 second secondMember.1 equal
  | products sku query =>
      exact catalogOrder_separates locale _ first firstMember.1 second secondMember.1 equal
  | stocks warehouseId warehouseCode productId sku includeZero =>
      obtain ⟨-, later⟩ := compareLex_eq_eq.mp equal
      obtain ⟨-, ids⟩ := compareLex_eq_eq.mp later
      obtain ⟨sameWarehouse, sameProduct⟩ := compareLex_eq_eq.mp ids
      have warehouse := orderBy_compare_eq_eq.mp sameWarehouse
      have product := orderBy_compare_eq_eq.mp sameProduct
      obtain ⟨firstBalance, -, -, firstWarehouse, firstProduct⟩ := firstMember.1
      obtain ⟨secondBalance, -, -, secondWarehouse, secondProduct⟩ := secondMember.1
      have key : first.balance.key = second.balance.key :=
        Prod.ext (firstWarehouse.symm.trans (warehouse.trans secondWarehouse))
          (firstProduct.symm.trans (product.trans secondProduct))
      have balance : first.balance = second.balance :=
        List.inj_on_of_nodup_map db.inventory.balances.unique firstBalance secondBalance key
      exact joined_of_balance (mem_joinStocks.mpr firstMember.1) (mem_joinStocks.mpr secondMember.1)
        balance

/-! ## Pages -/

theorem Responds.items {locale : Locale} {request : ListRequest} {limit offset : Nat}
    {checked counted listed : Database} {page : ListPage request.Item}
    (responds : Responds locale request limit offset checked counted listed (some page)) :
    request.IsReply locale limit offset listed page.items := by
  cases responds with
  | page found reply => exact reply

theorem Responds.total {locale : Locale} {request : ListRequest} {limit offset : Nat}
    {checked counted listed : Database} {page : ListPage request.Item}
    (responds : Responds locale request limit offset checked counted listed (some page)) :
    page.total = request.total locale counted := by
  cases responds with
  | page found reply => rfl

/-- Code points compared one by one, and a search that ignores the case of A to Z. -/
def plainLocale : Locale where
  collate := List.compareLex compare
  trans := inferInstance
  icontains value query :=
    let lower (text : Text) : Text := text.map fun c => if 65 ≤ c ∧ c ≤ 90 then c + 32 else c
    (List.range (value.length + 1)).any fun start =>
      (lower query).isPrefixOf ((lower value).drop start)

end StockImport.Api

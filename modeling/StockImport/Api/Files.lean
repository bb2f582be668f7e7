import StockImport.Api.Snapshots
import StockImport.Worker.ClosedForm
import StockImport.Worker.Overlapping
import StockImport.Worker.Verdict

/-!
# What a client reads of its file

The pages of a report's errors are cut out of one list that the file alone decides, and
the pages of a warehouse's stocks give back the rows of the last file about it.
-/

set_option autoImplicit false

namespace StockImport.Api

open PyText Csv Db Tables Queries Transactional Worker Snapshots

/-! ## The ids of the errors -/

/-- The ids of the errors rise in the order of the insertions. -/
structure ErrorsNumbered (db : Database) : Prop where
  rising : (db.errors.map ReportError.id).Pairwise (· < ·)
  below : ∀ id ∈ db.errors.map ReportError.id, id < db.nextErrorId

section Numbered

variable {db db' : Database}

theorem newErrors_ids (reportId now : Nat) (issues : List ValidationIssue) : ∀ nextId,
    (newErrors reportId now nextId issues).map ReportError.id =
      List.range' nextId issues.length := by
  induction issues with
  | nil => exact fun _ => rfl
  | cons issue rest ih =>
      intro nextId
      simp only [newErrors, List.map_cons, ih, List.length_cons, List.range'_succ]

theorem ErrorsNumbered.insertErrors {reportId : Nat} {issues : List ValidationIssue}
    (numbered : ErrorsNumbered db) (inserted : db.insertErrors reportId issues = .ok db') :
    ErrorsNumbered db' := by
  unfold Database.insertErrors at inserted
  split at inserted
  · cases inserted
    have ids := newErrors_ids reportId db.now issues db.nextErrorId
    constructor
    · rw [List.map_append, ids, List.pairwise_append]
      refine ⟨numbered.rising, List.pairwise_lt_range', ?_⟩
      intro old inTable new inBatch
      have small := numbered.below old inTable
      have large := (List.mem_range'_1.mp inBatch).1
      omega
    · intro id member
      rw [List.map_append, ids, List.mem_append, List.mem_range'_1] at member
      dsimp only
      rcases member with old | new
      · have small := numbered.below id old
        omega
      · omega
  · cases inserted

theorem ErrorsNumbered.deleteErrors (numbered : ErrorsNumbered db) (reportId : Nat) :
    ErrorsNumbered (db.deleteErrors reportId) := by
  have fewer := (List.filter_sublist (p := fun error : ReportError => error.reportId ≠ reportId)
    (l := db.errors)).map ReportError.id
  exact ⟨numbered.rising.sublist fewer, fun id member => numbered.below id (fewer.subset member)⟩

/-- Statements on the other tables. -/
theorem ErrorsNumbered.of_same (numbered : ErrorsNumbered db) (errors : db'.errors = db.errors)
    (next : db'.nextErrorId = db.nextErrorId) : ErrorsNumbered db' :=
  ⟨errors ▸ numbered.rising, errors ▸ next ▸ numbered.below⟩

theorem ErrorsNumbered.markFailed {issue : ValidationIssue} {set : Nat → Report → Report}
    {keeps : ∀ count report, (set count report).id = report.id} {id : Nat}
    (numbered : ErrorsNumbered db) (marked : markFailed issue set keeps id db = .ok db') :
    ErrorsNumbered db' := by
  unfold Db.markFailed at marked
  split at marked
  · cases marked
  · next db'' inserted =>
      cases marked
      have cleared : ErrorsNumbered (db.deleteStaging id) := numbered.of_same rfl rfl
      exact (cleared.insertErrors inserted).of_same rfl rfl

theorem ErrorsNumbered.exec {t : Transaction} {reply : t.Reply} {s s' : Ledger}
    (numbered : ErrorsNumbered s.db) (executed : t.exec s = .ok (reply, s')) :
    ErrorsNumbered s'.db := by
  cases t with
  | claim =>
      cases executed
      unfold claimOrRecoverNextReport
      split
      · exact numbered
      · next report _ =>
          split
          · exact numbered
          · have cleared : ErrorsNumbered (s.db.deleteStaging report.id) := numbered.of_same rfl rfl
            exact (cleared.deleteErrors report.id).of_same rfl rfl
  | writeStagingBatch id batch =>
      obtain ⟨db, written, rfl⟩ := store_ok executed
      unfold Db.writeStagingBatch at written
      split at written
      · split at written
        · cases written
        · cases written
          exact numbered.of_same rfl rfl
      · cases written
  | writeErrorBatch id batch =>
      obtain ⟨db, written, rfl⟩ := store_ok executed
      unfold Db.writeErrorBatch at written
      split at written
      · exact numbered.insertErrors written
      · cases written
  | insertDuplicateErrors id rawValueChars =>
      obtain ⟨db, written, rfl⟩ := store_ok executed
      exact numbered.insertErrors written
  | errorCount id =>
      cases executed
      exact numbered
  | finalizeValidationFailure id rowCount count =>
      cases executed
      exact numbered.of_same rfl rfl
  | markValidated id rowCount =>
      cases executed
      exact numbered.of_same rfl rfl
  | markProcessingFailed id =>
      obtain ⟨db, written, rfl⟩ := store_ok executed
      exact numbered.markFailed written
  | markApplyFailed id =>
      obtain ⟨db, written, rfl⟩ := store_ok executed
      exact numbered.markFailed written
  | apply id =>
      obtain ⟨db, ran, rfl⟩ := exec_apply executed
      unfold applyReport at ran
      split at ran
      · cases ran
      · split at ran
        · cases ran
        · split at ran
          · cases ran
          · cases ran
            exact numbered.of_same rfl rfl

end Numbered

section Runs

variable {deployment : Deployment} {world : ServiceWorld}

/-- The primary key of the errors, in every state of any run. -/
theorem AnyRun.errorsNumbered (run : AnyRun deployment world) :
    ErrorsNumbered world.shared.db := by
  induction run with
  | start => exact ⟨List.Pairwise.nil, by simp [ServiceWorld.empty, Ledger.empty, Database.empty]⟩
  | step action _ _ stepped ih =>
      rcases step_shared stepped with ⟨same, _⟩ | ⟨e, _, happened, _⟩ |
        ⟨_, _, _, _, t, reply, _, _, _, executed, _⟩
      · exact same ▸ ih
      · obtain ⟨db, moved, same⟩ := Option.map_eq_some_iff.mp happened
        rw [← same]
        cases e with
        | tick =>
            cases moved
            exact ih.of_same rfl rfl
        | register registration =>
            simp only [Environment.step] at moved
            split at moved
            · cases moved
            · obtain ⟨reports, _, rfl⟩ := Option.map_eq_some_iff.mp moved
              exact ih.of_same rfl rfl
      · exact ih.exec executed

theorem errorsNumbered_of_locked (run : LockedRun deployment world) :
    ErrorsNumbered world.shared.db :=
  AnyRun.errorsNumbered (run.weaken fun _ _ _ _ => trivial)

end Runs

theorem ErrorsNumbered.unique {db : Database} (numbered : ErrorsNumbered db) :
    UniqueErrorIds db :=
  numbered.rising.imp Nat.ne_of_lt

/-! ## The one listing of a state -/

section Listing

variable {locale : Locale} {db : Database}

theorem ListRequest.exists_listing (locale : Locale) (db : Database) (request : ListRequest) :
    ∃ listing, IsListing (request.order locale) (request.queries locale db).itemQuery.rows listing :=
  exists_isListing _ _

/-- Every page is cut out of it. -/
theorem ListRequest.page_of_listing (keys : UniqueErrorIds db) (request : ListRequest)
    {listing : List request.Row} {limit offset : Nat} {items : List request.Item}
    (isListing : IsListing (request.order locale) (request.queries locale db).itemQuery.rows listing)
    (reply : request.IsReply locale limit offset db items) :
    items = (window limit offset listing).map request.present := by
  obtain ⟨page, ⟨other, otherListing, rfl⟩, rfl⟩ := reply
  rw [otherListing.unique (request.order_separates keys) isListing]

theorem ListRequest.total_of_listing (request : ListRequest) {listing : List request.Row}
    (isListing : IsListing (request.order locale) (request.queries locale db).itemQuery.rows listing) :
    request.total locale db = listing.length := by
  have agree : (request.queries locale db).itemQuery = (request.queries locale db).countQuery :=
    request.queries_agree locale db
  rw [ListRequest.total, ← agree, isListing.perm.length_eq]

theorem ListRequest.strict_listing (keys : UniqueErrorIds db) (request : ListRequest)
    {listing : List request.Row}
    (isListing : IsListing (request.order locale) (request.queries locale db).itemQuery.rows listing) :
    listing.Pairwise fun first second => request.order locale first second = .lt :=
  isListing.strict (request.order_separates keys) (request.rows_nodup keys)

/-- A request that goes on has pages at all offsets. -/
theorem ListRequest.exists_pages (locale : Locale) (db : Database) (request : ListRequest)
    (limit : Nat) (found : request.found db = true) :
    ∃ pages : Nat → ListPage request.Item, ∀ offset,
      Responds locale request limit offset db db db (some (pages offset)) := by
  choose items replies using fun offset => request.exists_reply locale limit offset db
  exact ⟨fun offset => ⟨items offset, request.total locale db, limit, offset⟩,
    fun offset => .page found (replies offset)⟩

end Listing

/-! ## The errors of a file -/

/-- By the line, errors without one first; those of one line stay in their order. -/
def byLine (issues : List ValidationIssue) : List ValidationIssue :=
  sortedBy compare ValidationIssue.lineNumber issues

def errorsOfFile (deployment : Deployment) (source : ReportSource) : List ValidationIssue :=
  deployment.fileIssues source ++ deployment.duplicateErrors source

theorem map_window {Row Item : Type} (present : Row → Item) (limit offset : Nat)
    (listing : List Row) :
    (window limit offset listing).map present = window limit offset (listing.map present) := by
  rw [window, window, List.map_take, List.map_drop]

/-- A page of the errors of a report, whatever the database does with equal keys. -/
theorem errors_page {db : Database} (numbered : ErrorsNumbered db) {locale : Locale}
    {reportId limit offset : Nat} {items : List ReportError}
    (reply : (ListRequest.errors reportId).IsReply locale limit offset db items) :
    items.map ReportError.toValidationIssue =
      window limit offset (byLine ((db.errorsOf reportId).map ReportError.toValidationIssue)) := by
  have rows : ((ListRequest.errors reportId).queries locale db).itemQuery.rows =
      db.errorsOf reportId := by
    simp [ListRequest.queries, errorQueries, ListQueries.select, ListQueries.restrict,
      Select.restrict, Select.rows, Database.errorsOf]
  have rising : (db.errorsOf reportId).Pairwise fun first second => first.id < second.id := by
    have all := List.pairwise_map.mp numbered.rising
    exact all.filter _
  have sorted : IsListing ((ListRequest.errors reportId).order locale)
      ((ListRequest.errors reportId).queries locale db).itemQuery.rows
      (sortedBy compare (fun error : ReportError => error.lineNumber) (db.errorsOf reportId)) := by
    rw [rows]
    exact sortedBy_isListing rising
  have shown := (ListRequest.errors reportId).page_of_listing numbered.unique sorted reply
  rw [shown, byLine, ← map_sortedBy (fun _ => rfl), ← map_window]
  exact congrArg (List.map ReportError.toValidationIssue) (List.map_id _)

/-- The report of the file has been decided. -/
structure Decided (deployment : Deployment) (source : ReportSource) (world : ServiceWorld) :
    Prop where
  run : LockedRun deployment world
  judged : ∃ report ∈ world.shared.db.reports.rows, reportSource report = source ∧ Judged report

theorem Decided.errors {deployment : Deployment} {source : ReportSource} {world : ServiceWorld}
    (decided : Decided deployment source world) :
    (world.shared.db.errorsOf source.id).map ReportError.toValidationIssue =
      errorsOfFile deployment source := by
  obtain ⟨run, report, member, rfl, judged⟩ := decided
  have found : world.shared.db.reports.find report.id = some report :=
    (Table.find_eq_some _).mpr ⟨member, rfl⟩
  exact ((run.verdict report found).follows run.sound found judged).errors

/-- A client that pages through the errors of a decided report, each statement of each
request at a moment of its own, reads the errors of its file by their lines. -/
theorem errors_shown (deployment : Deployment) (locale : Locale) (source : ReportSource)
    (checked counted listed : Nat → ServiceWorld)
    (countedDecided : ∀ offset, Decided deployment source (counted offset))
    (listedDecided : ∀ offset, Decided deployment source (listed offset))
    (limit : Nat) (pages : Nat → ListPage ReportError)
    (answered : ∀ offset, Responds locale (.errors source.id) limit offset
      (checked offset).shared.db (counted offset).shared.db (listed offset).shared.db
      (some (pages offset))) :
    (∀ offset, (pages offset).total = (errorsOfFile deployment source).length ∧
      (pages offset).items.map ReportError.toValidationIssue =
        window limit offset (byLine (errorsOfFile deployment source))) ∧
    ∀ n, (errorsOfFile deployment source).length ≤ n * limit →
      ((List.range n).flatMap fun k =>
        (pages (k * limit)).items.map ReportError.toValidationIssue) =
          byLine (errorsOfFile deployment source) := by
  have shown : ∀ offset, (pages offset).total = (errorsOfFile deployment source).length ∧
      (pages offset).items.map ReportError.toValidationIssue =
        window limit offset (byLine (errorsOfFile deployment source)) := by
    intro offset
    have items := (answered offset).items
    constructor
    · rw [(answered offset).total, ← (countedDecided offset).errors, List.length_map]
      simp [ListRequest.total, ListRequest.queries, errorQueries, ListQueries.select,
        ListQueries.restrict, Select.restrict, Select.rows, Database.errorsOf]
    · rw [errors_page (errorsNumbered_of_locked (listedDecided offset).run) items,
        (listedDecided offset).errors]
  refine ⟨shown, fun n covered => ?_⟩
  simp only [(shown _).2]
  refine flatMap_windows_all ?_
  rw [byLine, sortedBy, List.length_insertionSort]
  exact covered

theorem decided_straightWorld :
    Decided (wrongDeployment 2 Nat.two_pos) ⟨1, "originals", "wrong"⟩ straightWorld where
  run := straightWorld_locked
  judged := by
    have failed : ∃ report ∈ straightWorld.shared.db.reports.rows,
        reportSource report = ⟨1, "originals", "wrong"⟩ ∧
          report.status = .failed ∧ report.failureKind = some .validation := by
      decide +kernel
    obtain ⟨report, member, same, failed⟩ := failed
    exact ⟨report, member, same, Or.inr failed⟩

/-- Two pages of one error each: the repeated pair of line 3 was inserted last. -/
theorem errors_shown_straightWorld : ∃ pages : Nat → ListPage ReportError,
    ((List.range 2).flatMap fun k =>
      (pages (k * 1)).items.map ReportError.toValidationIssue).map
        (fun issue => (issue.lineNumber, issue.code)) =
      [(some 3, .duplicateWarehouseSku), (some 4, .invalidQuantity)] := by
  have found : (ListRequest.errors 1).found straightWorld.shared.db = true := by decide +kernel
  obtain ⟨pages, answered⟩ :=
    (ListRequest.errors 1).exists_pages plainLocale straightWorld.shared.db 1 found
  have shown := (errors_shown (wrongDeployment 2 Nat.two_pos) plainLocale
    ⟨1, "originals", "wrong"⟩ (fun _ => straightWorld) (fun _ => straightWorld)
    (fun _ => straightWorld) (fun _ => decided_straightWorld) (fun _ => decided_straightWorld) 1
    pages answered).2 2 (by decide +kernel)
  have sorted : (byLine (errorsOfFile (wrongDeployment 2 Nat.two_pos)
      ⟨1, "originals", "wrong"⟩)).map (fun issue => (issue.lineNumber, issue.code)) =
      [(some 3, .duplicateWarehouseSku), (some 4, .invalidQuantity)] := by decide +kernel
  refine ⟨pages, ?_⟩
  rw [shown]
  exact sorted

/-! ## The stocks of a warehouse -/

theorem LastWith.unique {α : Type} {l : List α} {has : α → Prop} {x y : α}
    (first : LastWith l has x) (second : LastWith l has y) : x = y := by
  classical
  have isFirst := filter_getLast?_eq_some (p := fun z => decide (has z)) (l := l) (x := x)
  have isSecond := filter_getLast?_eq_some (p := fun z => decide (has z)) (l := l) (x := y)
  simp only [decide_eq_true_eq] at isFirst isSecond
  exact Option.some.inj ((isFirst.mpr first).symm.trans (isSecond.mpr second))

/-- The rows of the file that the warehouse has in stock. -/
def stockedRows (deployment : Deployment) (source : ReportSource) (warehouse : Text) :
    List ValidatedRow :=
  (deployment.fileRows source).filter fun row => row.warehouseCode = warehouse ∧ row.quantity ≠ 0

/-- What the items say of a warehouse is what `source` says, the last file about it; the
products have their latest names. -/
structure ShowsSnapshot (deployment : Deployment) (locale : Locale)
    (completed : List ReportSource) (source : ReportSource) (warehouse : Text)
    (items : List StockReadModel) : Prop where
  stocks : (items.map fun item => (item.sku, item.quantity)).Perm
    ((stockedRows deployment source warehouse).map fun row => (row.sku, row.quantity))
  warehouse : ∀ item ∈ items, item.warehouseCode = warehouse ∧ ∃ row,
    Highest ValidatedRow.warehouseCode (deployment.fileRows source) warehouse row ∧
      row.warehouseName = item.warehouseName
  products : ∀ item ∈ items, ∃ other row,
    LastWith completed (deployment.MentionsProduct item.sku) other ∧
      Highest ValidatedRow.sku (deployment.fileRows other) item.sku row ∧
      row.productName = item.productName
  sorted : items.Pairwise fun first second => (locale.collate first.sku second.sku).isLE = true

section Stocks

variable {inventory : Inventory} {deployment : Deployment} {completed : List ReportSource}
  {source : ReportSource} {warehouse : Text}

/-- The stock of a warehouse in the closed form: the rows of the last file about it. -/
theorem closedForm_stocked (closed : ClosedForm deployment completed inventory)
    (last : LastWith completed (deployment.MentionsWarehouse warehouse) source)
    (distinct : DistinctPairs (deployment.fileRows source)) (sku : Text) (quantity : Quantity) :
    (∃ balance, inventory.balanceOf warehouse sku = some balance ∧ balance.quantity = quantity ∧
        quantity ≠ 0) ↔
      ∃ row ∈ stockedRows deployment source warehouse, (row.sku, row.quantity) = (sku, quantity) := by
  simp only [stockedRows, List.mem_filter, decide_eq_true_eq, Prod.mk.injEq]
  constructor
  · rintro ⟨balance, found, rfl, nonzero⟩
    obtain ⟨other, lastOther, ⟨row, listed, same⟩ | ⟨_, zero⟩⟩ :=
      closed.quantity warehouse sku balance found
    · obtain ⟨inFile, sameWarehouse, sameSku⟩ := listed
      rw [LastWith.unique last lastOther]
      exact ⟨row, ⟨inFile, sameWarehouse, same ▸ nonzero⟩, sameSku, same.symm⟩
    · exact absurd zero nonzero
  · rintro ⟨row, ⟨inFile, sameWarehouse, nonzero⟩, rfl, rfl⟩
    have listed : deployment.ListsRow warehouse row.sku source row := ⟨inFile, sameWarehouse, rfl⟩
    have member : source ∈ completed := by
      obtain ⟨before, after, shape, _⟩ := last
      simp [shape]
    obtain ⟨balance, found⟩ :=
      (closed.present warehouse row.sku).mpr ⟨source, member, row, listed⟩
    obtain ⟨other, lastOther, decides⟩ := closed.quantity warehouse row.sku balance found
    rw [← LastWith.unique last lastOther] at decides
    rcases decides with ⟨row', ⟨inFile', sameWarehouse', sameSku'⟩, same⟩ | ⟨none, _⟩
    · have equal : row' = row := List.inj_on_of_nodup_map distinct inFile' inFile
        (Prod.ext (sameWarehouse'.trans sameWarehouse.symm) sameSku')
      exact ⟨balance, found, equal ▸ same, nonzero⟩
    · exact absurd listed (none row)

/-- The joined rows of a warehouse with a quantity say what those rows say. -/
theorem stocked_perm (closed : ClosedForm deployment completed inventory)
    (last : LastWith completed (deployment.MentionsWarehouse warehouse) source)
    (distinct : DistinctPairs (deployment.fileRows source)) {listing : List StockRow}
    (once : listing.Nodup)
    (complete : ∀ row, row ∈ listing ↔ row ∈ joinStocks inventory ∧
      row.warehouse.code = warehouse ∧ row.balance.quantity ≠ 0) :
    (listing.map fun row => (row.product.code, row.balance.quantity)).Perm
      ((stockedRows deployment source warehouse).map fun row => (row.sku, row.quantity)) := by
  have shown : (listing.map fun row => (row.product.code, row.balance.quantity)).Nodup := by
    refine once.map_on fun row member row' member' same => ?_
    obtain ⟨joined, code, _⟩ := (complete row).mp member
    obtain ⟨joined', code', _⟩ := (complete row').mp member'
    exact joined_of_codes joined joined' (code.trans code'.symm) (congrArg Prod.fst same)
  have rows : ((stockedRows deployment source warehouse).map
      fun row => (row.sku, row.quantity)).Nodup := by
    refine (distinct.of_map.filter _).map_on fun row member row' member' same => ?_
    simp only [stockedRows, List.mem_filter, decide_eq_true_eq] at member member'
    exact List.inj_on_of_nodup_map distinct member.1 member'.1
      (Prod.ext (member.2.1.trans member'.2.1.symm) (congrArg Prod.fst same))
  refine (List.perm_ext_iff_of_nodup shown rows).mpr fun (sku, quantity) => ?_
  rw [List.mem_map, List.mem_map, ← closedForm_stocked closed last distinct]
  constructor
  · rintro ⟨row, member, same⟩
    obtain ⟨joined, rfl, nonzero⟩ := (complete row).mp member
    cases same
    exact ⟨row.balance, (balanceOf_joined joined).1, rfl, nonzero⟩
  · rintro ⟨balance, found, rfl, nonzero⟩
    obtain ⟨row, joined, rfl, code, rfl⟩ := joined_balanceOf found
    exact ⟨row, (complete row).mpr ⟨joined, code, nonzero⟩, rfl⟩

end Stocks

/-- The request for what a warehouse has in stock. -/
abbrev stockOf (warehouse : Text) : ListRequest := .stocks none (some warehouse) none none false

section Snapshot

variable {deployment : Deployment} {locale : Locale} {world : ServiceWorld}
  {source : ReportSource} {warehouse : Text}

theorem stockOf_matches {db : Database} {row : StockRow} :
    (stockOf warehouse).Matches locale db row ↔ row ∈ joinStocks db.inventory ∧
      row.warehouse.code = warehouse ∧ row.balance.quantity ≠ 0 := by
  have nonzero : row.balance.quantity.value ≠ 0 ↔ row.balance.quantity ≠ 0 := by
    refine not_congr ⟨fun zero => ?_, fun zero => zero ▸ rfl⟩
    cases quantity : row.balance.quantity with
    | mk value positive bounded =>
        rw [quantity] at zero
        cases zero
        rfl
  rw [ListRequest.Matches, mem_joinStocks]
  simp [nonzero]

/-- Within a warehouse the stocks come in the order of the products. -/
theorem stockOf_bySku {first second : StockRow}
    (sameCode : first.warehouse.code = second.warehouse.code)
    (before : (stockOf warehouse).order locale first second = .lt) :
    (locale.collate first.product.code second.product.code).isLE = true := by
  have codes : locale.collate first.warehouse.code second.warehouse.code = .eq := by
    rw [sameCode]
    exact Std.ReflCmp.compare_self
  change (locale.collate first.warehouse.code second.warehouse.code).then
    ((locale.collate first.product.code second.product.code).then _) = .lt at before
  rw [codes] at before
  change (locale.collate first.product.code second.product.code).isLE = true
  cases order : locale.collate first.product.code second.product.code with
  | lt | eq => rfl
  | gt => simp [order] at before

/-- The listing of the stocks of a warehouse. -/
theorem shows_of_listing (run : LockedRun deployment world)
    (last : LastWith world.shared.completions (deployment.MentionsWarehouse warehouse) source)
    {listing : List StockRow} (once : listing.Nodup)
    (complete : ∀ row, row ∈ listing ↔ (stockOf warehouse).Matches locale world.shared.db row)
    (ordered : listing.Pairwise fun first second =>
      (stockOf warehouse).order locale first second = .lt) :
    ShowsSnapshot deployment locale world.shared.completions source warehouse
      (listing.map StockRow.readModel) := by
  have sound := run.sound
  have closed := closedForm_of_view sound.inventory
  have distinct : DistinctPairs (deployment.fileRows source) := by
    obtain ⟨before, after, shape, _⟩ := last
    obtain ⟨rowCount, valid⟩ := sound.valid source (by simp [shape])
    exact valid.distinct
  have selected : ∀ row, row ∈ listing ↔ row ∈ joinStocks world.shared.db.inventory ∧
      row.warehouse.code = warehouse ∧ row.balance.quantity ≠ 0 :=
    fun row => (complete row).trans stockOf_matches
  constructor
  · rw [List.map_map]
    exact stocked_perm closed last distinct once selected
  · intro item member
    obtain ⟨row, inListing, rfl⟩ := List.mem_map.mp member
    obtain ⟨joined, code, _⟩ := (selected row).mp inListing
    have named := (balanceOf_joined joined).2.1
    rw [code] at named
    obtain ⟨other, highest, lastOther, isHighest, same⟩ := (closed.warehouseName _ _).mp named
    rw [← LastWith.unique last lastOther] at isHighest
    exact ⟨code, highest, isHighest, same⟩
  · intro item member
    obtain ⟨row, inListing, rfl⟩ := List.mem_map.mp member
    exact (closed.productName _ _).mp (balanceOf_joined ((selected row).mp inListing).1).2.2
  · rw [List.pairwise_map]
    refine ordered.imp_of_mem fun {first second} member member' before => ?_
    have first := ((selected first).mp member).2.1
    exact stockOf_bySku (first.trans ((selected second).mp member').2.1.symm) before

/-- The pages of the stocks of a warehouse, read in one state, are the stocks of the last
file about it. -/
theorem snapshot_shown (deployment : Deployment) (locale : Locale) (world : ServiceWorld)
    (run : LockedRun deployment world) (warehouse : Text) (source : ReportSource)
    (last : LastWith world.shared.completions (deployment.MentionsWarehouse warehouse) source)
    (limit : Nat) (pages : Nat → ListPage StockReadModel)
    (answered : ∀ offset, Responds locale (stockOf warehouse) limit offset world.shared.db
      world.shared.db world.shared.db (some (pages offset))) :
    (∀ offset, (pages offset).total = (stockedRows deployment source warehouse).length) ∧
    ∀ n, (stockedRows deployment source warehouse).length ≤ n * limit →
      ShowsSnapshot deployment locale world.shared.completions source warehouse
        ((List.range n).flatMap fun k => (pages (k * limit)).items) := by
  have keys := (errorsNumbered_of_locked run).unique
  obtain ⟨listing, isListing⟩ := (stockOf warehouse).exists_listing locale world.shared.db
  have shows := shows_of_listing run last
    (isListing.perm.nodup_iff.mpr ((stockOf warehouse).rows_nodup keys))
    (fun row => isListing.perm.mem_iff.trans ((stockOf warehouse).mem_rows row))
    ((stockOf warehouse).strict_listing keys isListing)
  have length : listing.length = (stockedRows deployment source warehouse).length := by
    have lengths := shows.stocks.length_eq
    simpa using lengths
  constructor
  · intro offset
    rw [(answered offset).total, (stockOf warehouse).total_of_listing isListing, length]
  · intro n covered
    have shown : ∀ offset, (pages offset).items =
        (window limit offset listing).map StockRow.readModel :=
      fun offset => (stockOf warehouse).page_of_listing keys isListing (answered offset).items
    simp only [shown]
    rw [← List.map_flatMap, flatMap_windows_all (length ▸ covered)]
    exact shows

end Snapshot

/-- The second file of the sample speaks for the warehouse. -/
theorem snapshot_shown_appliedWorld : ∃ pages : Nat → ListPage StockReadModel,
    (∀ offset, (pages offset).total = 1) ∧
    ((List.range 1).flatMap fun k => (pages (k * 50)).items).map
      (fun item => (item.sku, item.quantity.value)) = [(ofString "T", 5)] := by
  have last : LastWith appliedWorld.shared.completions
      (sampleDeployment.MentionsWarehouse (ofString "W")) ⟨2, "originals", "second"⟩ := by
    refine ⟨[⟨1, "originals", "first"⟩], [], by decide +kernel, ?_, by simp⟩
    have mentioned : ∃ row ∈ sampleDeployment.fileRows ⟨2, "originals", "second"⟩,
        row.warehouseCode = ofString "W" := by decide +kernel
    exact mentioned
  have stocked : (stockedRows sampleDeployment ⟨2, "originals", "second"⟩ (ofString "W")).map
      (fun row => (row.sku, row.quantity.value)) = [(ofString "T", 5)] := by decide +kernel
  obtain ⟨pages, answered⟩ :=
    (stockOf (ofString "W")).exists_pages plainLocale appliedWorld.shared.db 50 rfl
  obtain ⟨totals, shows⟩ := snapshot_shown sampleDeployment plainLocale appliedWorld
    appliedWorld_locked (ofString "W") ⟨2, "originals", "second"⟩ last 50 pages answered
  have length := congrArg List.length stocked
  rw [List.length_map] at length
  refine ⟨pages, fun offset => (totals offset).trans length, ?_⟩
  have stocks := (shows 1 (by rw [length]; decide)).stocks.map fun pair => (pair.1, pair.2.value)
  simp only [List.map_map, Function.comp_def] at stocks
  rw [stocked] at stocks
  exact List.perm_singleton.mp stocks

end StockImport.Api

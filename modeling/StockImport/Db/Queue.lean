import StockImport.Db.Transactions

/-!
# The order of the queue

Reports wait in the order of `created_at` and id.  A claim takes the first open
report.
-/

set_option autoImplicit false

namespace StockImport.Db

open Tables

/-- A smaller `(created_at, id)`. -/
def Report.Before (report other : Report) : Prop :=
  report.createdAt < other.createdAt ∨ (report.createdAt = other.createdAt ∧ report.id < other.id)

def Report.Terminal (report : Report) : Prop :=
  report.status = .completed ∨ report.status = .failed

theorem Report.isOpen_eq_false {report : Report} : report.isOpen = false ↔ report.Terminal := by
  unfold Report.isOpen Report.Terminal
  cases report.status <;> simp

theorem Report.precedes_iff {report other : Report} :
    report.precedes other = true ↔ ¬ other.Before report := by
  simp only [Report.precedes, Report.Before, Bool.or_eq_true, Bool.and_eq_true, decide_eq_true_eq]
  omega

theorem Report.Before.trans_not {report best other : Report} (first : ¬ report.Before best)
    (second : ¬ other.Before report) : ¬ other.Before best := by
  unfold Report.Before at first second ⊢
  omega

theorem firstInQueue_none {reports : List Report} (none : firstInQueue reports = none) :
    ∀ other ∈ reports, other.isOpen = false := by
  induction reports with
  | nil =>
      intro other member
      cases member
  | cons report rest ih =>
      simp only [firstInQueue] at none
      split at none
      · split at none
        · cases none
        · split at none <;> cases none
      · next closed =>
          intro other member
          rcases List.mem_cons.mp member with rfl | later
          · simpa using closed
          · exact ih none other later

/-- No open report stands before the first. -/
theorem firstInQueue_first {reports : List Report} {first : Report}
    (found : firstInQueue reports = some first) :
    ∀ other ∈ reports, other.isOpen = true → ¬ other.Before first := by
  induction reports generalizing first with
  | nil => cases found
  | cons report rest ih =>
      intro other member isOpen
      simp only [firstInQueue] at found
      split at found
      · split at found
        · next none =>
            cases found
            rcases List.mem_cons.mp member with rfl | later
            · simp [Report.Before]
            · rw [firstInQueue_none none other later] at isOpen
              cases isOpen
        · next best foundBest =>
            split at found
            · next precedes =>
                cases found
                rcases List.mem_cons.mp member with rfl | later
                · exact Report.precedes_iff.mp precedes
                · exact ih foundBest other later isOpen
            · next follows =>
                cases found
                rcases List.mem_cons.mp member with rfl | later
                · simp [Report.Before]
                · rw [Report.precedes_iff, not_not] at follows
                  refine Report.Before.trans_not ?_ (ih foundBest other later isOpen)
                  unfold Report.Before at follows ⊢
                  omega
      · next closed =>
          rcases List.mem_cons.mp member with rfl | later
          · exact absurd isOpen closed
          · exact ih found other later isOpen

/-- Whether a validation is complete depends on the data of its report alone. -/
theorem validationIsComplete_congr {db db' : Database} {report : Report}
    (same : db'.dataOf report.id = db.dataOf report.id) :
    validationIsComplete db' report = validationIsComplete db report := by
  have staged := congrArg (fun data => data.staged.length) same
  have errors : db'.errorsOf report.id = db.errorsOf report.id := congrArg ReportData.errors same
  simp only [Database.dataOf, Database.stagedRows, List.length_map] at staged
  simp only [validationIsComplete, staged, errors]

theorem validationIsComplete_cases {db : Database} {report : Report}
    (complete : validationIsComplete db report = true) :
    report.rowCount ≠ 0 ∧ report.errorCount = 0 ∧
      (db.stagedRows report.id).length = report.rowCount ∧ db.errorsOf report.id = [] := by
  unfold validationIsComplete at complete
  split at complete
  · cases complete
  · next counts =>
      rw [not_or, not_not] at counts
      simp only [Bool.and_eq_true, decide_eq_true_eq, List.length_eq_zero_iff] at complete
      exact ⟨counts.1, counts.2, (by simpa [Database.stagedRows] using complete.1), complete.2⟩

/-- What a claim finds. -/
structure ClaimsFirst (db db' : Database) (report : Report) (ready : Bool) : Prop where
  found : db.reports.find report.id = some report
  isOpen : report.isOpen = true
  first : ∀ other ∈ db.reports.rows, other.isOpen = true → ¬ other.Before report
  complete : ready = true ↔ report.status = .processing ∧ validationIsComplete db report = true
  kept : ready = true → db' = db
  cleared : ready = false →
    Changes db db' report.id ⟨some (report.claim db.now), [], []⟩ db.inventory

theorem claim_first {db db' : Database} {source : ReportSource} {ready : Bool}
    (claimed : claimOrRecoverNextReport db = (some (source, ready), db')) :
    ∃ report, reportSource report = source ∧ ClaimsFirst db db' report ready := by
  unfold claimOrRecoverNextReport at claimed
  cases first : firstInQueue db.reports.rows with
  | none => simp [first] at claimed
  | some report =>
      obtain ⟨member, isOpen⟩ := firstInQueue_some first
      have found : db.reports.find report.id = some report :=
        (Table.find_eq_some _).mpr ⟨member, rfl⟩
      simp only [first] at claimed
      split at claimed
      · next complete =>
          cases claimed
          exact ⟨report, rfl, found, isOpen, firstInQueue_first first, by simp [complete],
            fun _ => rfl, (by simp)⟩
      · next incomplete =>
          cases claimed
          exact ⟨report, rfl, found, isOpen, firstInQueue_first first, by simp [incomplete],
            (by simp), fun _ => claim_changes found⟩

theorem ClaimsFirst.before {db db' : Database} {report : Report} {ready : Bool}
    (claims : ClaimsFirst db db' report ready) :
    ∀ other ∈ db.reports.rows, other.Before report → other.Terminal := by
  intro other member before
  by_contra running
  exact claims.first other member
    (by simpa using fun closed => running (Report.isOpen_eq_false.mp closed)) before

theorem claim_none {db db' : Database} (claimed : claimOrRecoverNextReport db = (none, db')) :
    db' = db ∧ ∀ report ∈ db.reports.rows, report.Terminal := by
  unfold claimOrRecoverNextReport at claimed
  cases first : firstInQueue db.reports.rows with
  | none =>
      simp only [first, Prod.mk.injEq, true_and] at claimed
      exact ⟨claimed.symm, fun report member =>
        Report.isOpen_eq_false.mp (firstInQueue_none first report member)⟩
  | some report =>
      simp only [first] at claimed
      split at claimed <;> cases claimed

end StockImport.Db

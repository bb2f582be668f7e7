import StockImport.Api.Selection
import StockImport.Worker.ClosedForm

/-!
# Lists while others commit

The statements of a list request run in one `READ COMMITTED` transaction, each on the
state that is committed when it starts.  The total and the items describe one state as
long as no commit between the two statements moves a row into what the request selects, or
out of it.
-/

set_option autoImplicit false

namespace StockImport.Api

open PyText Csv Db Queries Transactional Worker

abbrev ServiceRun (deployment : Deployment) := Timeline (service deployment) ServiceWorld.empty

/-- The committed state of a moment. -/
def committed {deployment : Deployment} (run : ServiceRun deployment) (moment : Nat) : Database :=
  (run.world moment).shared.db

/-- The moments at which the statements of a request start, in its order. -/
structure Reading (request : ListRequest) where
  checked : Nat
  counted : Nat
  listed : Nat
  inOrder : if request.countsFirst then checked ≤ counted ∧ counted ≤ listed
    else checked ≤ listed ∧ listed ≤ counted

/-- The response to a request whose statements start at these moments. -/
def Answers {deployment : Deployment} (run : ServiceRun deployment) (locale : Locale)
    {request : ListRequest} (reading : Reading request) (limit offset : Nat)
    (response : Option (ListPage request.Item)) : Prop :=
  Responds locale request limit offset (committed run reading.checked)
    (committed run reading.counted) (committed run reading.listed) response

/-- The total and the items are those of one state. -/
structure Describes (locale : Locale) (request : ListRequest) (limit offset : Nat)
    (page : ListPage request.Item) (db : Database) : Prop where
  total : page.total = request.total locale db
  items : request.IsReply locale limit offset db page.items

section Commits

variable {deployment : Deployment}

/-- A transaction of a worker commits between this moment and the next. -/
def CommitsAt (run : ServiceRun deployment) (moment : Nat) (t : Transaction) : Prop :=
  ∃ attempt reply, (run.world (moment + 1)).history =
    (run.world moment).history ++ [(attempt, (⟨t, reply⟩ : Commit workerInterface))]

/-- A registration is committed between this moment and the next. -/
def RegistersAt (run : ServiceRun deployment) (moment : Nat) : Prop :=
  ∃ registration, Environment.step (committed run moment) (.register registration) =
    some (committed run (moment + 1))

/-- What is committed next spares the selection of the request. -/
structure SparesAt (run : ServiceRun deployment) (locale : Locale) (request : ListRequest)
    (moment : Nat) : Prop where
  transactions : ∀ t, CommitsAt run moment t → request.SparedBy locale (committed run moment) t
  registrations : RegistersAt run moment → request.SparedByRegistration

variable {run : ServiceRun deployment} {locale : Locale} {request : ListRequest}

/-- The inventory lists are spared where no apply commits. -/
theorem SparesAt.of_no_apply (inventory : request.OfInventory) {moment : Nat}
    (none : ∀ id, ¬ CommitsAt run moment (.apply id)) : SparesAt run locale request moment := by
  refine ⟨?_, fun _ => inventory.sparedByRegistration⟩
  intro t commits
  refine inventory.sparedBy locale _ ?_
  intro id same
  rw [same] at commits
  exact none id commits

theorem SparesAt.total {moment : Nat} (spares : SparesAt run locale request moment) :
    request.total locale (committed run (moment + 1)) =
      request.total locale (committed run moment) := by
  obtain ⟨transactions, registrations⟩ := spares
  unfold CommitsAt committed at transactions
  unfold RegistersAt committed at registrations
  unfold committed
  rcases run.moves moment with still | ⟨action, stepped⟩
  · rw [still]
  · rcases step_shared stepped with ⟨same, -⟩ | ⟨e, -, happened, -⟩ |
      ⟨w, fault, before, thread, t, reply, -, -, -, executed, grown⟩
    · rw [same]
    · obtain ⟨db, environment, same⟩ := Option.map_eq_some_iff.mp happened
      rw [← same] at registrations ⊢
      refine environment_total environment ?_
      rintro registration rfl
      exact registrations ⟨registration, environment⟩
    · exact exec_total executed (transactions t ⟨before.attempt, reply, grown⟩)

end Commits

/-! ## Responses -/

/-- A page has the rows of its state from the offset on, up to the limit. -/
theorem ListRequest.IsReply.length_eq {locale : Locale} {request : ListRequest}
    {limit offset : Nat} {db : Database} {items : List request.Item}
    (reply : request.IsReply locale limit offset db items) :
    items.length = min limit (request.total locale db - offset) := by
  obtain ⟨page, ⟨listing, isListing, rfl⟩, rfl⟩ := reply
  have agree : (request.queries locale db).itemQuery = (request.queries locale db).countQuery :=
    request.queries_agree locale db
  rw [ListRequest.total, ← agree, ← isListing.perm.length_eq, List.length_map, window,
    List.length_take, List.length_drop]

theorem ListRequest.exists_reply (locale : Locale) (request : ListRequest) (limit offset : Nat)
    (db : Database) : ∃ items, request.IsReply locale limit offset db items := by
  obtain ⟨listing, isListing⟩ :=
    exists_isListing (request.order locale) (request.queries locale db).itemQuery.rows
  exact ⟨_, window limit offset listing, ⟨listing, isListing, rfl⟩, rfl⟩

/-- Every request that goes on is answered. -/
theorem exists_answer {deployment : Deployment} (run : ServiceRun deployment) (locale : Locale)
    {request : ListRequest} (reading : Reading request) (limit offset : Nat)
    (found : request.found (committed run reading.checked) = true) :
    ∃ page, Answers run locale reading limit offset (some page) ∧
      page.total = request.total locale (committed run reading.counted) ∧
      page.items.length =
        min limit (request.total locale (committed run reading.listed) - offset) := by
  obtain ⟨items, reply⟩ := request.exists_reply locale limit offset (committed run reading.listed)
  exact ⟨_, .page found reply, rfl, reply.length_eq⟩

/-- The sample run: the apply of the first report commits between moments 36 and 37. -/
def sampleRun : ServiceRun sampleDeployment :=
  Timeline.replay (service sampleDeployment) ServiceWorld.empty sampleActions

theorem sampleRun_totals :
    (ListRequest.warehouses none none).total plainLocale (committed sampleRun 36) = 0 ∧
      (ListRequest.warehouses none none).total plainLocale (committed sampleRun 37) = 1 := by
  decide +kernel

/-- All warehouses, counted before the apply and listed after it. -/
def tornReading : Reading (.warehouses none none) := ⟨36, 36, 37, by decide⟩

theorem torn_answer :
    ∃ page, Answers sampleRun plainLocale tornReading 50 0 (some page) ∧ page.total = 0 ∧
      page.items.length = 1 := by
  obtain ⟨noneBefore, oneAfter⟩ := sampleRun_totals
  obtain ⟨page, answers, total, items⟩ := exists_answer sampleRun plainLocale tornReading 50 0 rfl
  refine ⟨page, answers, total.trans noneBefore, ?_⟩
  simp only [tornReading, oneAfter] at items
  exact items

theorem torn_answer_has_no_state :
    ¬ ∀ (deployment : Deployment) (run : ServiceRun deployment) (locale : Locale)
        (request : ListRequest) (reading : Reading request) (limit offset : Nat)
        (page : ListPage request.Item),
      Answers run locale reading limit offset (some page) →
        ∃ moment, Describes locale request limit offset page (committed run moment) := by
  intro claim
  obtain ⟨page, answers, total, items⟩ := torn_answer
  obtain ⟨moment, describes⟩ := claim _ _ _ _ _ _ _ page answers
  have length := describes.items.length_eq
  rw [← describes.total, total, items] at length
  omega

/-- In every run, a response is that of one state committed between its statements, if
each commit between them spares the selection of the request. -/
theorem list_response_describes_one_state (deployment : Deployment)
    (run : ServiceRun deployment) (locale : Locale) (request : ListRequest)
    (reading : Reading request) (limit offset : Nat) (page : ListPage request.Item)
    (answers : Answers run locale reading limit offset (some page))
    (spared : ∀ moment, min reading.counted reading.listed ≤ moment →
      moment < max reading.counted reading.listed → SparesAt run locale request moment) :
    ∃ moment, min reading.counted reading.listed ≤ moment ∧
      moment ≤ max reading.counted reading.listed ∧
      Describes locale request limit offset page (committed run moment) := by
  have total : request.total locale (committed run reading.counted) =
      request.total locale (committed run reading.listed) :=
    constant_between (fun moment => request.total locale (committed run moment))
      fun moment above below => (spared moment above below).total.symm
  refine ⟨reading.listed, Nat.min_le_right _ _, Nat.le_max_right _ _, ?_, answers.items⟩
  exact answers.total.trans total

/-! ## A rename between the statements -/

/-- The transaction that has committed last. -/
def lastTransaction {deployment : Deployment} (run : ServiceRun deployment) (moment : Nat) :
    Option Transaction :=
  (run.world moment).history.getLast?.map fun entry => entry.2.transaction

theorem CommitsAt.last {deployment : Deployment} {run : ServiceRun deployment} {moment : Nat}
    {t : Transaction} (commits : CommitsAt run moment t) :
    lastTransaction run (moment + 1) = some t := by
  obtain ⟨attempt, reply, grown⟩ := commits
  rw [lastTransaction, grown, List.getLast?_concat, Option.map_some]

/-- The sample run up to its second apply. -/
def appliedRun : ServiceRun sampleDeployment :=
  Timeline.replay (service sampleDeployment) ServiceWorld.empty sampleApplied

/-- All warehouses, counted before the cycle of the second apply and listed after it. -/
def renamedReading : Reading (.warehouses none none) := ⟨60, 60, 73, by decide⟩

/-- The second file names the warehouse of the first anew. -/
theorem second_apply_renames :
    (∀ moment ∈ List.range' 60 12, lastTransaction appliedRun (moment + 1) = some .claim) ∧
      lastTransaction appliedRun 73 = some (.apply 2) ∧
      (∀ entry ∈ lastNames ValidatedRow.warehouseCode ValidatedRow.warehouseName
          ((committed appliedRun 72).stagedRows 2),
        ((committed appliedRun 72).inventory.warehouses.nameOf entry.1).isSome = true) ∧
      (committed appliedRun 72).inventory.warehouses.nameOf (ofString "W") =
        some (ofString "w") ∧
      (committed appliedRun 73).inventory.warehouses.nameOf (ofString "W") =
        some (ofString "v") ∧
      (ListRequest.warehouses none none).total plainLocale (committed appliedRun 73) = 1 := by
  decide +kernel

/-- Its row stays among all warehouses. -/
theorem renamed_spares {moment : Nat} (above : 60 ≤ moment) (below : moment < 73) :
    SparesAt appliedRun plainLocale (.warehouses none none) moment := by
  obtain ⟨claims, applies, known, -⟩ := second_apply_renames
  have all : ∀ entry, EntryAdmitted plainLocale none none entry := by
    intro entry
    refine ⟨?_, ?_⟩
    · intro wanted isNone
      cases isNone
    · intro text isNone
      cases isNone
  rcases Nat.lt_succ_iff_lt_or_eq.mp below with earlier | rfl
  · have inventory : (ListRequest.warehouses none none).OfInventory := trivial
    refine .of_no_apply inventory fun id commits => ?_
    have claimed := claims moment (List.mem_range'_1.mpr ⟨above, earlier⟩)
    cases commits.last.symm.trans claimed
  · refine ⟨?_, fun _ => trivial⟩
    rintro _ commits id rfl
    cases commits.last.symm.trans applies
    intro entry named
    obtain ⟨name, isName⟩ := Option.isSome_iff_exists.mp (known entry named)
    exact iff_of_true (all entry) ⟨name, isName, all (entry.1, name)⟩

/-- The renamed warehouse is counted under its old name and listed under its new one. -/
theorem list_response_describes_one_state_renamedReading :
    ∃ page, Answers appliedRun plainLocale renamedReading 50 0 (some page) ∧
      page.items.length = 1 ∧
      (committed appliedRun 72).inventory.warehouses.nameOf (ofString "W") =
        some (ofString "w") ∧
      (committed appliedRun 73).inventory.warehouses.nameOf (ofString "W") =
        some (ofString "v") ∧
      ∃ moment, 60 ≤ moment ∧ moment ≤ 73 ∧
        Describes plainLocale (.warehouses none none) 50 0 page (committed appliedRun moment) := by
  obtain ⟨-, -, -, old, new, one⟩ := second_apply_renames
  obtain ⟨page, answers, -, items⟩ := exists_answer appliedRun plainLocale renamedReading 50 0 rfl
  refine ⟨page, answers, ?_, old, new,
    list_response_describes_one_state sampleDeployment appliedRun plainLocale _ renamedReading 50 0
      page answers fun moment above below => renamed_spares above below⟩
  simp only [renamedReading, one] at items
  exact items

end StockImport.Api

import StockImport.Worker.Lifecycle

/-!
# The lock connection

`process_next_report` holds a session-level advisory lock on one connection of the
pool.  The same connection, in one implicit transaction, answers the liveness checks
and the unlock in the `finally` block; closing it rolls the transaction back and
gives it to the pool, which releases no session-level lock.
-/

set_option autoImplicit false

namespace StockImport.Worker

open Csv Db Transactional

/-- What comes of a statement sent on the lock connection. -/
inductive StatementResult where
  | success
  | statementError
  | sessionLost
  deriving DecidableEq, Repr

/-- The lock connection with the backend session behind it. -/
structure LockConnection where
  sessionAlive : Bool
  /-- How often the session holds the advisory lock: locks of one session stack. -/
  locksHeld : Nat
  /-- The transaction has failed and waits for its rollback. -/
  aborted : Bool
  invalidated : Bool
  deriving DecidableEq, Repr

namespace LockConnection

/-- A session of the pool, its transaction begun. -/
def connect (locksHeld : Nat) : LockConnection := ⟨true, locksHeld, false, false⟩

def pgTryAdvisoryLock (connection : LockConnection) : LockConnection :=
  { connection with locksHeld := connection.locksHeld + 1 }

def pgAdvisoryUnlock (connection : LockConnection) : LockConnection :=
  { connection with locksHeld := connection.locksHeld - 1 }

/-- A statement and whether it went well.  In an aborted transaction none does. -/
def execute (statement : LockConnection → LockConnection) (connection : LockConnection) :
    StatementResult → Bool × LockConnection
  | .sessionLost => (false, { connection with sessionAlive := false, invalidated := true })
  | .statementError => (false, { connection with aborted := true })
  | .success => if connection.aborted then (false, connection) else (true, statement connection)

/-- `close`: the pool rolls back what is open. -/
def close (connection : LockConnection) : LockConnection := { connection with aborted := false }

/-- No session is left that holds the lock. -/
def GivenBack (connection : LockConnection) : Prop :=
  connection.sessionAlive = false ∨ connection.locksHeld = 0

instance (connection : LockConnection) : Decidable connection.GivenBack :=
  inferInstanceAs (Decidable (_ ∨ _))

/-- A statement on the connection, with the results of what was sent: an invalidated
connection raises by itself. -/
inductive Sends (statement : LockConnection → LockConnection) (connection : LockConnection) :
    List StatementResult → Bool → LockConnection → Prop
  | refused (known : connection.invalidated = true) : Sends statement connection [] false connection
  | sent (result : StatementResult) (usable : connection.invalidated = false) :
      Sends statement connection [result] (execute statement connection result).1
        (execute statement connection result).2

/-- A course of a program: its liveness checks as `ensure_lock_connection_alive` answers
them, its calls and transactions answered anyhow, and an exception raised anywhere. -/
inductive Course {α : Type} :
    WorkerProgram α → LockConnection → List StatementResult → Except PyException α →
      LockConnection → Prop
  | done (result : Except PyException α) (connection : LockConnection) :
      Course (.done result) connection [] result connection
  | interrupted (program : WorkerProgram α) (e : PyException) (connection : LockConnection) :
      Course program connection [] (.error e) connection
  | checkLock {next : Bool → WorkerProgram α} {connection checked final : LockConnection}
      {first later : List StatementResult} {alive : Bool} {result : Except PyException α}
      (check : Sends id connection first alive checked)
      (rest : Course (next alive) checked later result final) :
      Course (.checkLock next) connection (first ++ later) result final
  | call {c : ExternalCall} {next : Except PyException Unit → WorkerProgram α}
      {connection final : LockConnection} {results : List StatementResult}
      {result : Except PyException α} (answer : Except PyException Unit)
      (rest : Course (next answer) connection results result final) :
      Course (.call c next) connection results result final
  | transact {t : Transaction} {next : Except PyException t.Reply → WorkerProgram α}
      {connection final : LockConnection} {results : List StatementResult}
      {result : Except PyException α} (answer : Except PyException t.Reply)
      (rest : Course (next answer) connection results result final) :
      Course (.transact t next) connection results result final

/-- `process_next_report` from the acquired lock to its end, on a session that held the
lock `locksHeld` times before: whatever comes of the processing, `finally` unlocks, its
errors are swallowed, and the connection is closed. -/
inductive ProcessNextReport (deployment : Deployment) (delivery : Delivery deployment)
    (locksHeld : Nat) :
    List StatementResult → Except PyException WorkerCycleOutcome → LockConnection → Prop
  | course {checks last : List StatementResult} {result : Except PyException WorkerCycleOutcome}
      {connection final : LockConnection} {released : Bool}
      (processing : Course (process deployment delivery) (connect locksHeld).pgTryAdvisoryLock
        checks result connection)
      (unlock : Sends pgAdvisoryUnlock connection last released final) :
      ProcessNextReport deployment delivery locksHeld (checks ++ last) result final.close

/-! ## What the results of the statements say about the connection -/

/-- The connection after statements with these results, while it holds the lock. -/
structure Follows (locksHeld : Nat) (results : List StatementResult)
    (connection : LockConnection) : Prop where
  invalidated : connection.invalidated = true ↔ StatementResult.sessionLost ∈ results
  sessionAlive : connection.sessionAlive = !connection.invalidated
  locksHeld : connection.locksHeld = locksHeld
  aborted : connection.invalidated = false →
    (connection.aborted = true ↔ StatementResult.statementError ∈ results)

theorem Follows.acquired (locksHeld : Nat) :
    Follows (locksHeld + 1) [] (connect locksHeld).pgTryAdvisoryLock where
  invalidated := by simp [connect, pgTryAdvisoryLock]
  sessionAlive := rfl
  locksHeld := rfl
  aborted := by simp [connect, pgTryAdvisoryLock]

theorem Follows.check {locksHeld : Nat} {results sent : List StatementResult}
    {connection checked : LockConnection} {alive : Bool}
    (follows : Follows locksHeld results connection)
    (check : Sends id connection sent alive checked) :
    Follows locksHeld (results ++ sent) checked := by
  obtain ⟨invalidated, sessionAlive, held, aborted⟩ := follows
  cases check with
  | refused known =>
      rw [List.append_nil]
      exact ⟨invalidated, sessionAlive, held, aborted⟩
  | sent result usable =>
      have notLost : StatementResult.sessionLost ∉ results := by
        rw [← invalidated, usable]
        decide
      have before := aborted usable
      cases result with
      | sessionLost => constructor <;> simp [execute, held]
      | statementError => constructor <;> simp [execute, usable, sessionAlive, held, notLost]
      | success =>
          have same : (execute id connection .success).2 = connection := by
            simp only [execute]
            split <;> rfl
          rw [same]
          constructor <;> simp [usable, sessionAlive, held, notLost, before]

theorem Follows.course {α : Type} {locksHeld : Nat} {program : WorkerProgram α}
    {connection final : LockConnection} {sent : List StatementResult}
    {result : Except PyException α} (course : Course program connection sent result final) :
    ∀ results, Follows locksHeld results connection →
      Follows locksHeld (results ++ sent) final := by
  induction course with
  | done result connection =>
      intro results follows
      rwa [List.append_nil]
  | interrupted program e connection =>
      intro results follows
      rwa [List.append_nil]
  | checkLock check rest inductionHypothesis =>
      intro results follows
      rw [← List.append_assoc]
      exact inductionHypothesis _ (follows.check check)
  | call answer rest inductionHypothesis =>
      intro results follows
      exact inductionHypothesis results follows
  | transact answer rest inductionHypothesis =>
      intro results follows
      exact inductionHypothesis results follows

theorem Follows.unlock {locksHeld : Nat} {results sent : List StatementResult}
    {connection final : LockConnection} {released : Bool}
    (follows : Follows (locksHeld + 1) results connection)
    (unlock : Sends pgAdvisoryUnlock connection sent released final) :
    final.close.GivenBack ↔
      StatementResult.sessionLost ∈ results ++ sent ∨
        locksHeld = 0 ∧ StatementResult.statementError ∉ results ++ sent := by
  obtain ⟨invalidated, sessionAlive, held, aborted⟩ := follows
  cases unlock with
  | refused known =>
      have lost := invalidated.mp known
      simp [GivenBack, close, sessionAlive, known, lost]
  | sent result usable =>
      have notLost : StatementResult.sessionLost ∉ results := by
        rw [← invalidated, usable]
        decide
      have before := aborted usable
      cases result with
      | sessionLost => simp [GivenBack, close, execute]
      | statementError =>
          simp [GivenBack, close, execute, sessionAlive, usable, held, notLost]
      | success =>
          by_cases failed : StatementResult.statementError ∈ results
          · have isAborted := before.mpr failed
            simp [GivenBack, close, execute, isAborted, sessionAlive, usable, held, notLost, failed]
          · have notAborted : connection.aborted = false := by
              rw [← Bool.not_eq_true, before]
              exact failed
            simp [GivenBack, close, execute, pgAdvisoryUnlock, notAborted, sessionAlive, usable,
              held, notLost, failed]

theorem ProcessNextReport.givenBack_iff {deployment : Deployment} {delivery : Delivery deployment}
    {locksHeld : Nat} {results : List StatementResult}
    {outcome : Except PyException WorkerCycleOutcome} {final : LockConnection}
    (run : ProcessNextReport deployment delivery locksHeld results outcome final) :
    final.GivenBack ↔
      StatementResult.sessionLost ∈ results ∨
        locksHeld = 0 ∧ StatementResult.statementError ∉ results := by
  cases run with
  | course processing unlock =>
      have checked := (Follows.course processing [] (.acquired locksHeld))
      rw [List.nil_append] at checked
      exact checked.unlock unlock

/-! ## A session through many cycles -/

/-- How often the session that the next cycle is given holds the lock: this one, or a
new one where this has ended. -/
def pooled (connection : LockConnection) : Nat :=
  if connection.sessionAlive then connection.locksHeld else 0

theorem pooled_eq_zero_iff (connection : LockConnection) :
    connection.pooled = 0 ↔ connection.GivenBack := by
  unfold pooled GivenBack
  cases connection.sessionAlive <;> simp

/-- Cycles one after the other on the same pooled connection. -/
inductive Cycles (deployment : Deployment) : Nat → List (List StatementResult) → Nat → Prop
  | nil (locksHeld : Nat) : Cycles deployment locksHeld [] locksHeld
  | cons {delivery : Delivery deployment} {locksHeld last : Nat} {results : List StatementResult}
      {rest : List (List StatementResult)} {outcome : Except PyException WorkerCycleOutcome}
      {final : LockConnection}
      (cycle : ProcessNextReport deployment delivery locksHeld results outcome final)
      (later : Cycles deployment final.pooled rest last) :
      Cycles deployment locksHeld (results :: rest) last

/-- While every cycle is free of statement errors or loses its session, the pool holds
no lock between the cycles. -/
theorem Cycles.pool_holds_no_lock {deployment : Deployment} {locksHeld last : Nat}
    {results : List (List StatementResult)} (cycles : Cycles deployment locksHeld results last)
    (benign : ∀ cycle ∈ results, StatementResult.sessionLost ∈ cycle ∨
      StatementResult.statementError ∉ cycle) :
    locksHeld = 0 → last = 0 := by
  induction cycles with
  | nil locksHeld => exact id
  | cons cycle later inductionHypothesis =>
      intro free
      refine inductionHypothesis (fun c member => benign c (List.mem_cons_of_mem _ member)) ?_
      rw [pooled_eq_zero_iff, cycle.givenBack_iff]
      exact (benign _ List.mem_cons_self).imp_right fun clean => ⟨free, clean⟩

end LockConnection

/-- A claimed report to apply, and a first liveness check that fails in a living session:
the unlock that follows fails as well. -/
theorem failedCheck_run :
    LockConnection.ProcessNextReport sampleDeployment sampleDelivery 0 [.statementError, .success]
      (.error .lockConnectionLost) ⟨true, 1, false, false⟩ := by
  have check : LockConnection.Sends id (LockConnection.connect 0).pgTryAdvisoryLock [.statementError] false
      ⟨true, 1, true, false⟩ := .sent .statementError rfl
  have processing : LockConnection.Course (process sampleDeployment sampleDelivery)
      (LockConnection.connect 0).pgTryAdvisoryLock ([.statementError] ++ []) (.error .lockConnectionLost)
      ⟨true, 1, true, false⟩ := by
    refine .transact (.ok (some (sampleSource, true))) ?_
    exact .checkLock check (.done _ _)
  have unlock : LockConnection.Sends LockConnection.pgAdvisoryUnlock ⟨true, 1, true, false⟩
      [.success] false ⟨true, 1, true, false⟩ := .sent .success rfl
  exact .course processing unlock

theorem failedCheck_keeps_lock :
    ¬ ∀ (deployment : Deployment) (delivery : Delivery deployment)
        (results : List StatementResult) (outcome : Except PyException WorkerCycleOutcome)
        (final : LockConnection),
      LockConnection.ProcessNextReport deployment delivery 0 results outcome final →
        final.GivenBack := by
  intro claim
  have kept := claim _ _ _ _ _ failedCheck_run
  exact absurd kept (by decide)

/-- The lock is given back exactly where the session did not hold it before and no
statement failed in it, or the session has been lost. -/
theorem advisory_lock_given_back (deployment : Deployment) (delivery : Delivery deployment)
    (locksHeld : Nat) (results : List StatementResult)
    (outcome : Except PyException WorkerCycleOutcome) (final : LockConnection)
    (run : LockConnection.ProcessNextReport deployment delivery locksHeld results outcome final) :
    final.GivenBack ↔
      StatementResult.sessionLost ∈ results ∨
        locksHeld = 0 ∧ StatementResult.statementError ∉ results :=
  run.givenBack_iff

theorem advisory_lock_given_back_failedCheck :
    (⟨true, 1, false, false⟩ : LockConnection).GivenBack ↔
      StatementResult.sessionLost ∈ [StatementResult.statementError, .success] ∨
        0 = 0 ∧ StatementResult.statementError ∉ [StatementResult.statementError, .success] :=
  advisory_lock_given_back _ _ _ _ _ _ failedCheck_run

end StockImport.Worker

import StockImport.Library.Soundness

/-!
# Tasks side by side

Programs that run over one store at the same time and behind no lock, each for a task
of its own.  What the transactions of one task do, every other task can rely on
(`Separated`); each program is then proved for itself.
-/

set_option autoImplicit false

namespace Transactional

/-- A running program and the task it was started for. -/
structure Job (i : Interface) (Task α : Type) where
  task : Task
  thread : Thread i α

def Job.start {i : Interface} {Task α : Type} (task : Task) (program : Program i α) :
    Job i Task α :=
  ⟨task, ⟨0, true, [], program⟩⟩

abbrev Pool (i : Interface) (Task Name α : Type) := Name → Option (Job i Task α)

section Pool

variable {i : Interface} {State Task Name α : Type} [DecidableEq Name]

/-- One request of the job of that name. -/
def Pool.run (exec : (t : i.Transaction) → State → Except i.Exception (i.Reply t × State))
    (pool : Pool i Task Name α) (name : Name) (fault : Fault i) (s : State) :
    Option (State × Pool i Task Name α) :=
  match pool name with
  | none => none
  | some job =>
      (job.thread.run exec fault s).map fun after =>
        (after.2.1, Function.update pool name (some { job with thread := after.1 }))

theorem Pool.run_some
    {exec : (t : i.Transaction) → State → Except i.Exception (i.Reply t × State)}
    {pool pool' : Pool i Task Name α} {name : Name} {fault : Fault i} {s s' : State}
    (ran : pool.run exec name fault s = some (s', pool')) :
    ∃ job thread commit, pool name = some job ∧
      job.thread.run exec fault s = some (thread, s', commit) ∧
        pool' = Function.update pool name (some { job with thread := thread }) := by
  unfold Pool.run at ran
  cases found : pool name with
  | none => simp [found] at ran
  | some job =>
      simp only [found, Option.map_eq_some_iff, Prod.mk.injEq] at ran
      obtain ⟨⟨thread, after, commit⟩, executed, rfl, rfl⟩ := ran
      exact ⟨job, thread, commit, rfl, executed, rfl⟩

/-- A job whose program has ended asks for nothing. -/
theorem Pool.run_done
    {exec : (t : i.Transaction) → State → Except i.Exception (i.Reply t × State)}
    {pool pool' : Pool i Task Name α} {name : Name} {fault : Fault i} {s s' : State} {job : Job i Task α}
    {result : Except i.Exception α} (found : pool name = some job)
    (ended : job.thread.program = .done result) :
    pool.run exec name fault s ≠ some (s', pool') := by
  intro ran
  obtain ⟨job', _, _, found', executed, _⟩ := Pool.run_some ran
  cases found.symm.trans found'
  simp [Thread.run, ended] at executed

/-- The invariant is kept by every task, the others can rely on each, and every request of
a task may fail with what is raisable. -/
structure Separated (exec : (t : i.Transaction) → State → Except i.Exception (i.Reply t × State))
    (name : Task → Name) (spec : Task → Spec i State) (raisable : i.Exception → Prop)
    (invariant : State → Prop) : Prop where
  executes : ∀ task, (spec task).exec = exec
  raises : ∀ task c e, raisable e → (spec task).raises c e
  fails : ∀ task t e, raisable e → (spec task).fails t e
  unknown : ∀ task t e, raisable e → (spec task).unknown t e
  keeps : ∀ task log t reply s s', invariant s → (spec task).pre log t s →
    exec t s = .ok (reply, s') → invariant s'
  apart : ∀ task other log t reply s s', name task ≠ name other → invariant s →
    (spec task).pre log t s → exec t s = .ok (reply, s') → (spec other).rely s s'

/-- Each job runs under its own name and meets its own specification. -/
def Pool.Tracks (name : Task → Name) (spec : Task → Spec i State) (post : Task → Post i State α)
    (pool : Pool i Task Name α) (s : State) : Prop :=
  ∀ n job, pool n = some job → name job.task = n ∧ job.thread.alive = true ∧
    wp (spec job.task) job.thread.program (post job.task) job.thread.log s

variable {exec : (t : i.Transaction) → State → Except i.Exception (i.Reply t × State)}
  {name : Task → Name} {spec : Task → Spec i State} {post : Task → Post i State α}
  {raisable : i.Exception → Prop} {invariant : State → Prop} {pool pool' : Pool i Task Name α} {s s' : State}

omit [DecidableEq Name] in
theorem Pool.Tracks.empty : Pool.Tracks name spec post (fun _ : Name => none) s := by
  intro n job found
  cases found

omit [DecidableEq Name] in
/-- What every job can rely on. -/
theorem Pool.Tracks.rely (tracks : pool.Tracks name spec post s)
    (others : ∀ n job, pool n = some job → (spec job.task).rely s s') :
    pool.Tracks name spec post s' := by
  intro n job found
  obtain ⟨named, alive, holds⟩ := tracks n job found
  exact ⟨named, alive, wp_stable _ _ _ _ _ _ (others n job found) holds⟩

theorem Pool.Tracks.start {task : Task} {program : Program i α}
    (tracks : pool.Tracks name spec post s) (holds : wp (spec task) program (post task) [] s) :
    Pool.Tracks name spec post (Function.update pool (name task) (some (Job.start task program)))
      s := by
  intro n job found
  rcases update_eq_some found with ⟨rfl, rfl⟩ | ⟨_, was⟩
  · exact ⟨rfl, rfl, holds⟩
  · exact tracks n job was

theorem Pool.Tracks.stop (tracks : pool.Tracks name spec post s) (n : Name) :
    Pool.Tracks name spec post (Function.update pool n none) s := by
  intro other job found
  exact tracks other job (update_none_eq_some found).2

/-- One request: nothing happens to the store, or a transaction of the job that meets its
precondition. -/
theorem Pool.Tracks.request (separated : Separated exec name spec raisable invariant)
    (tracks : pool.Tracks name spec post s) {n : Name} {fault : Fault i}
    (permitted : ∀ e, fault = .fails e ∨ fault = .unknown e → raisable e)
    (ran : pool.run exec n fault s = some (s', pool')) :
    ∃ job thread, pool n = some job ∧ name job.task = n ∧
      pool' = Function.update pool n (some { job with thread := thread }) ∧
      thread.alive = true ∧ wp (spec job.task) thread.program (post job.task) thread.log s' ∧
      (s' = s ∨ ∃ t reply, (spec job.task).pre job.thread.log t s ∧ exec t s = .ok (reply, s')) := by
  obtain ⟨job, thread, commit, found, executed, rfl⟩ := Pool.run_some ran
  obtain ⟨named, alive, holds⟩ := tracks n job found
  obtain ⟨_, kept, effect⟩ := Thread.run_cases executed
  have executed' := executed
  rw [← separated.executes job.task] at executed'
  obtain ⟨after, committed⟩ := Thread.run_wp holds
    (fun dead => absurd (alive.symm.trans dead) Bool.noConfusion)
    (fun c _ e _ faulty => separated.raises job.task c e (permitted e faulty))
    (fun t _ e _ faulty => separated.fails job.task t e (permitted e (Or.inl faulty)))
    (fun t _ e _ faulty => separated.unknown job.task t e (permitted e (Or.inr faulty))) executed'
  refine ⟨job, thread, found, named, rfl, kept.trans alive, after, ?_⟩
  rcases effect with ⟨same, _, _⟩ | ⟨t, reply, _, _, done, rfl, _⟩
  · exact Or.inl same
  · exact Or.inr ⟨t, reply, (committed _ rfl).1, done⟩

/-- One request keeps the invariant and what all jobs have to meet. -/
theorem Pool.Tracks.run (separated : Separated exec name spec raisable invariant) (holds : invariant s)
    (tracks : pool.Tracks name spec post s) {n : Name} {fault : Fault i}
    (permitted : ∀ e, fault = .fails e ∨ fault = .unknown e → raisable e)
    (ran : pool.run exec n fault s = some (s', pool')) :
    invariant s' ∧ pool'.Tracks name spec post s' := by
  obtain ⟨job, thread, found, named, rfl, alive, after, effect⟩ := tracks.request separated permitted ran
  have others : ∀ other job', other ≠ n → pool other = some job' →
      (spec job'.task).rely s s' := by
    intro other job' different found'
    rcases effect with rfl | ⟨t, reply, pre, executed⟩
    · exact (spec job'.task).rely_refl _
    · refine separated.apart job.task job'.task _ t reply s s' ?_ holds pre executed
      rw [named, (tracks other job' found').1]
      exact Ne.symm different
  constructor
  · rcases effect with rfl | ⟨t, reply, pre, executed⟩
    · exact holds
    · exact separated.keeps job.task _ t reply s s' holds pre executed
  · intro other job' found'
    rcases update_eq_some found' with ⟨rfl, rfl⟩ | ⟨different, was⟩
    · exact ⟨named, alive, after⟩
    · obtain ⟨named', alive', holds'⟩ := tracks other job' was
      exact ⟨named', alive', wp_stable _ _ _ _ _ _ (others other job' (Ne.symm different) was) holds'⟩

end Pool

/-! ## A program on its own -/

section Alone

variable {i : Interface} {State α β : Type}

/-- A program that nobody disturbs, where `faults` says what goes wrong. -/
def Program.alone (exec : (t : i.Transaction) → State → Except i.Exception (i.Reply t × State))
    (faults : i.Transaction → State → Fault i) : Program i α → State →
      Except i.Exception α × State
  | .done result, s => (result, s)
  | .checkLock next, s => (next true).alone exec faults s
  | .call _ next, s => (next (.ok ())).alone exec faults s
  | .transact t next, s =>
      match exec t s, faults t s with
      | .ok (reply, s'), .none => (next (.ok reply)).alone exec faults s'
      | .ok (_, s'), .unknown e => (next (.error e)).alone exec faults s'
      | .ok _, .fails e => (next (.error e)).alone exec faults s
      | .error _, .fails e => (next (.error e)).alone exec faults s
      | .error e, _ => (next (.error e)).alone exec faults s

variable {exec : (t : i.Transaction) → State → Except i.Exception (i.Reply t × State)}
  {faults : i.Transaction → State → Fault i}

theorem alone_andThen (p : Program i α) (f : Except i.Exception α → Program i β) : ∀ s,
    (p.andThen f).alone exec faults s =
      (f (p.alone exec faults s).1).alone exec faults (p.alone exec faults s).2 := by
  induction p with
  | done result => exact fun s => rfl
  | checkLock next ih => exact fun s => ih true s
  | call c next ih => exact fun s => ih (.ok ()) s
  | transact t next ih =>
      intro s
      simp only [Program.andThen, Program.alone]
      split
      · exact ih _ _
      · exact ih _ _
      · exact ih _ _
      · exact ih _ _
      · exact ih _ _

theorem alone_bind_ok {p : Program i α} {f : α → Program i β} {s s' : State} {value : α}
    (ended : p.alone exec faults s = (.ok value, s')) :
    (p >>= f).alone exec faults s = (f value).alone exec faults s' := by
  refine (alone_andThen p _ s).trans ?_
  rw [ended]
  rfl

theorem alone_bind_error {p : Program i α} {f : α → Program i β} {s s' : State} {e : i.Exception}
    (ended : p.alone exec faults s = (.error e, s')) :
    (p >>= f).alone exec faults s = (.error e, s') := by
  refine (alone_andThen p _ s).trans ?_
  rw [ended]
  rfl

theorem alone_handle_ok {p : Program i α} {handler : i.Exception → Program i α} {s s' : State}
    {value : α} (ended : p.alone exec faults s = (.ok value, s')) :
    (p.handle handler).alone exec faults s = (.ok value, s') := by
  refine (alone_andThen p _ s).trans ?_
  rw [ended]
  rfl

theorem alone_handle_error {p : Program i α} {handler : i.Exception → Program i α}
    {s s' : State} {e : i.Exception} (ended : p.alone exec faults s = (.error e, s')) :
    (p.handle handler).alone exec faults s = (handler e).alone exec faults s' := by
  refine (alone_andThen p _ s).trans ?_
  rw [ended]
  rfl

/-- Requests of one job in turn. -/
def Pool.runs {Task Name : Type} [DecidableEq Name]
    (exec : (t : i.Transaction) → State → Except i.Exception (i.Reply t × State)) (name : Name) :
    List (Fault i) → Pool i Task Name α → State → Option (State × Pool i Task Name α)
  | [], pool, s => some (s, pool)
  | fault :: rest, pool, s =>
      (pool.run exec name fault s).bind fun after => Pool.runs exec name rest after.2 after.1

/-- Some requests of the job of that name, and of no other, bring it to this end. -/
def Pool.Finishes {Task Name : Type} [DecidableEq Name]
    (exec : (t : i.Transaction) → State → Except i.Exception (i.Reply t × State)) (name : Name)
    (pool : Pool i Task Name α) (s : State) (task : Task) (ended : Except i.Exception α × State) :
    Prop :=
  ∃ plan pool' job, Pool.runs exec name plan pool s = some (ended.2, pool') ∧
    pool' name = some job ∧ job.task = task ∧ job.thread.program = .done ended.1

theorem Pool.Finishes.cons {Task Name : Type} [DecidableEq Name] {name : Name}
    {pool : Pool i Task Name α} {task : Task} {fault : Fault i} {s s' : State}
    {thread thread' : Thread i α} {commit : Option (Commit i)} {ended : Except i.Exception α × State}
    (found : pool name = some ⟨task, thread⟩)
    (ran : thread.run exec fault s = some (thread', s', commit))
    (later : Pool.Finishes exec name (Function.update pool name (some ⟨task, thread'⟩)) s' task ended) :
    Pool.Finishes exec name pool s task ended := by
  obtain ⟨plan, pool', job, executed, last⟩ := later
  refine ⟨fault :: plan, pool', job, ?_, last⟩
  simp only [Pool.runs, Pool.run, found, ran, Option.map_some, Option.bind_some]
  exact executed

/-- A job that nobody disturbs ends as its program does on its own. -/
theorem alone_finishes {Task Name : Type} [DecidableEq Name] (name : Name) (task : Task)
    (attempt : Nat) (p : Program i α) :
    ∀ (log : List (Commit i)) (pool : Pool i Task Name α) (s : State),
      pool name = some ⟨task, ⟨attempt, true, log, p⟩⟩ →
      Pool.Finishes exec name pool s task (p.alone exec faults s) := by
  induction p with
  | done result => exact fun log pool s found => ⟨[], pool, _, rfl, found, rfl, rfl⟩
  | checkLock next ih =>
      intro log pool s found
      have ran : Thread.run exec .none ⟨attempt, true, log, .checkLock next⟩ s =
          some (⟨attempt, true, log, next true⟩, s, none) := rfl
      exact Pool.Finishes.cons found ran (ih true log _ s (Function.update_self _ _ _))
  | call c next ih =>
      intro log pool s found
      have ran : Thread.run exec .none ⟨attempt, true, log, .call c next⟩ s =
          some (⟨attempt, true, log, next (.ok ())⟩, s, none) := rfl
      exact Pool.Finishes.cons found ran (ih (.ok ()) log _ s (Function.update_self _ _ _))
  | transact t next ih =>
      intro log pool s found
      have answered : ∀ answer log' s' commit,
          Thread.run exec (faults t s) ⟨attempt, true, log, .transact t next⟩ s =
            some (⟨attempt, true, log', next answer⟩, s', commit) →
          Pool.Finishes exec name pool s task ((next answer).alone exec faults s') :=
        fun answer log' s' commit ran =>
          Pool.Finishes.cons found ran (ih answer log' _ s' (Function.update_self _ _ _))
      simp only [Program.alone]
      split
      · next reply s' executed fault =>
          refine answered _ (log ++ [⟨t, reply⟩]) _ (some ⟨t, reply⟩) ?_
          simp only [Thread.run, executed, fault]
      · next reply s' e executed fault =>
          refine answered _ (log ++ [⟨t, reply⟩]) _ (some ⟨t, reply⟩) ?_
          simp only [Thread.run, executed, fault]
      · next executed fault =>
          refine answered _ log _ none ?_
          simp only [Thread.run, executed, fault]
      · next executed fault =>
          refine answered _ log _ none ?_
          simp only [Thread.run, executed, fault]
      · next executed fault =>
          refine answered _ log _ none ?_
          simp only [Thread.run, executed]

end Alone

end Transactional

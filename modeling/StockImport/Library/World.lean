import StockImport.Library.Program
import Mathlib.Logic.Function.Basic

/-!
# Workers behind an advisory lock

Any number of workers run programs over one store.  A worker starts a program
when it gets the lock; the lock belongs to a connection, and when the connection
drops the lock is free again although the program goes on.
-/

set_option autoImplicit false

namespace Transactional

structure Thread (i : Interface) (α : Type) where
  attempt : Nat
  alive : Bool
  log : List (Commit i)
  program : Program i α

/-- What goes wrong in one request. -/
inductive Fault (i : Interface) where
  | none
  /-- A call raises; a transaction is rolled back. -/
  | fails (e : i.Exception)
  /-- A call raises; a transaction commits and its program sees an exception. -/
  | unknown (e : i.Exception)

inductive Action (i : Interface) (Worker Env Start : Type) where
  | environment (e : Env)
  | acquire (w : Worker) (start : Start)
  | drop (w : Worker)
  | run (w : Worker) (fault : Fault i)
  /-- The end of a cycle, or a crash. -/
  | leave (w : Worker)

def Action.worker {i : Interface} {Worker Env Start : Type} :
    Action i Worker Env Start → Option Worker
  | .environment _ => none
  | .acquire w _ => some w
  | .drop w => some w
  | .run w _ => some w
  | .leave w => some w

structure System (i : Interface) (State Env Start α : Type) where
  exec : (t : i.Transaction) → State → Except i.Exception (i.Reply t × State)
  environment : Env → State → Option State
  program : Start → Program i α

structure World (i : Interface) (State Worker α : Type) where
  shared : State
  threads : Worker → Option (Thread i α)
  /-- Whose connection holds the lock. -/
  owner : Option Worker
  /-- Who got the lock last. -/
  current : Option Worker
  attempts : Nat
  /-- The commits of all workers, each with the attempt that made it. -/
  history : List (Nat × Commit i)

/-- The value at a point after one update. -/
theorem update_eq_some {ι β : Type} [DecidableEq ι] {f : ι → Option β} {i j : ι}
    {b c : β} (found : Function.update f i (some b) j = some c) :
    (i = j ∧ b = c) ∨ (i ≠ j ∧ f j = some c) := by
  by_cases same : i = j
  · subst same
    rw [Function.update_self] at found
    exact Or.inl ⟨rfl, Option.some.inj found⟩
  · rw [Function.update_of_ne (Ne.symm same)] at found
    exact Or.inr ⟨same, found⟩

theorem update_none_eq_some {ι β : Type} [DecidableEq ι] {f : ι → Option β} {i j : ι} {c : β}
    (found : Function.update f i none j = some c) : i ≠ j ∧ f j = some c := by
  by_cases same : i = j
  · subst same
    rw [Function.update_self] at found
    cases found
  · rw [Function.update_of_ne (Ne.symm same)] at found
    exact ⟨same, found⟩

section Step

variable {i : Interface} {State Worker Env Start α : Type}

/-- One request of a program, with what it commits. -/
def Thread.run (exec : (t : i.Transaction) → State → Except i.Exception (i.Reply t × State))
    (fault : Fault i) (thread : Thread i α) (s : State) :
    Option (Thread i α × State × Option (Commit i)) :=
  match thread.program with
  | .done _ => none
  | .checkLock next => some ({ thread with program := next thread.alive }, s, none)
  | .call _ next =>
      match fault with
      | .none => some ({ thread with program := next (.ok ()) }, s, none)
      | .fails e => some ({ thread with program := next (.error e) }, s, none)
      | .unknown e => some ({ thread with program := next (.error e) }, s, none)
  | .transact t next =>
      match exec t s, fault with
      | .ok (reply, s'), .none =>
          some ({ thread with program := next (.ok reply), log := thread.log ++ [⟨t, reply⟩] },
            s', some ⟨t, reply⟩)
      | .ok (reply, s'), .unknown e =>
          some ({ thread with program := next (.error e), log := thread.log ++ [⟨t, reply⟩] },
            s', some ⟨t, reply⟩)
      | .ok _, .fails e => some ({ thread with program := next (.error e) }, s, none)
      | .error _, .fails e => some ({ thread with program := next (.error e) }, s, none)
      | .error e, _ => some ({ thread with program := next (.error e) }, s, none)

variable [DecidableEq Worker]

/-- The lock once the connection of `w` is gone. -/
def World.release (world : World i State Worker α) (w : Worker) : Option Worker :=
  if world.owner = some w then none else world.owner

def System.step (sys : System i State Env Start α) (world : World i State Worker α) :
    Action i Worker Env Start → Option (World i State Worker α)
  | .environment e =>
      (sys.environment e world.shared).map fun s => { world with shared := s }
  | .acquire w start =>
      if world.owner.isNone && (world.threads w).isNone then
        some
          { world with
            threads := Function.update world.threads w
              (some ⟨world.attempts, true, [], sys.program start⟩)
            owner := some w
            current := some w
            attempts := world.attempts + 1 }
      else none
  | .drop w =>
      (world.threads w).map fun thread =>
        { world with
          threads := Function.update world.threads w (some { thread with alive := false })
          owner := world.release w }
  | .leave w =>
      (world.threads w).map fun _ =>
        { world with threads := Function.update world.threads w none, owner := world.release w }
  | .run w fault =>
      match world.threads w with
      | none => none
      | some thread =>
          (thread.run sys.exec fault world.shared).map fun after =>
            { world with
              shared := after.2.1
              threads := Function.update world.threads w (some after.1)
              history := world.history ++
                (after.2.2.map fun commit => (thread.attempt, commit)).toList }

/-- A whole run; nothing where an action is not possible. -/
def System.runs (sys : System i State Env Start α) :
    World i State Worker α → List (Action i Worker Env Start) → Option (World i State Worker α)
  | world, [] => some world
  | world, action :: rest => (sys.step world action).bind fun next => sys.runs next rest

/-- The worlds that runs of allowed actions reach. -/
inductive Reachable (sys : System i State Env Start α)
    (allowed : World i State Worker α → Action i Worker Env Start → Prop)
    (start : World i State Worker α) : World i State Worker α → Prop
  | start : Reachable sys allowed start start
  | step {world next : World i State Worker α} (action : Action i Worker Env Start)
      (before : Reachable sys allowed start world) (admitted : allowed world action)
      (stepped : sys.step world action = some next) : Reachable sys allowed start next

theorem Reachable.weaken {sys : System i State Env Start α}
    {allowed weaker : World i State Worker α → Action i Worker Env Start → Prop}
    {start world : World i State Worker α}
    (implies : ∀ world action, Reachable sys allowed start world → allowed world action →
      weaker world action)
    (reachable : Reachable sys allowed start world) : Reachable sys weaker start world := by
  induction reachable with
  | start => exact .start
  | step action before admitted stepped ih =>
      exact .step action ih (implies _ action before admitted) stepped

/-- A run of actions that are allowed everywhere. -/
theorem reachable_runs {sys : System i State Env Start α}
    {allowed : World i State Worker α → Action i Worker Env Start → Prop}
    {start : World i State Worker α} :
    ∀ (actions : List (Action i Worker Env Start)) (world last : World i State Worker α),
      (∀ action ∈ actions, ∀ world, allowed world action) → Reachable sys allowed start world →
        sys.runs world actions = some last → Reachable sys allowed start last := by
  intro actions
  induction actions with
  | nil =>
      intro world last _ before ran
      cases ran
      exact before
  | cons action rest ih =>
      intro world last admitted before ran
      simp only [System.runs] at ran
      cases stepped : sys.step world action with
      | none => simp [stepped] at ran
      | some next =>
          simp only [stepped, Option.bind_some] at ran
          exact ih next last (fun action member => admitted action (List.mem_cons_of_mem _ member))
            (.step action before (admitted action (by simp) world) stepped) ran

/-! ## Disciplines -/

/-- Nobody gets the lock while another program still runs. -/
def Serialised (world : World i State Worker α) : Action i Worker Env Start → Prop
  | .acquire _ _ => ∀ w, world.threads w = none
  | _ => True

/-- A worker whose connection is gone does not commit. -/
def Fenced (sys : System i State Env Start α) (world : World i State Worker α) :
    Action i Worker Env Start → Prop
  | .run w fault => ∀ thread thread' s commit, world.threads w = some thread →
      thread.run sys.exec fault world.shared = some (thread', s, some commit) →
        thread.alive = true
  | _ => True

/-- Only the worker that got the lock last commits. -/
def Exclusive (sys : System i State Env Start α) (world : World i State Worker α) :
    Action i Worker Env Start → Prop
  | .run w fault => ∀ thread thread' s commit, world.threads w = some thread →
      thread.run sys.exec fault world.shared = some (thread', s, some commit) →
        world.current = some w
  | _ => True

/-- The faults of an action are among those the specification counts with. -/
def Permits (spec : Spec i State) (world : World i State Worker α) :
    Action i Worker Env Start → Prop
  | .run w (.fails e) => ∀ thread, world.threads w = some thread →
      match thread.program with
      | .call c _ => spec.raises c e
      | .transact t _ => spec.fails t e
      | _ => True
  | .run w (.unknown e) => ∀ thread, world.threads w = some thread →
      match thread.program with
      | .call c _ => spec.raises c e
      | .transact t _ => spec.unknown t e
      | _ => True
  | _ => True

/-- The start of every run: no program is running. -/
def World.Idle (world : World i State Worker α) : Prop :=
  (∀ w, world.threads w = none) ∧ world.owner = none ∧ world.history = []

/-! ## Runs that are tested -/

/-- What the next request of a worker commits. -/
def System.commitOf (sys : System i State Env Start α) (world : World i State Worker α) :
    Action i Worker Env Start → Option i.Transaction
  | .run w fault => (world.threads w).bind fun thread =>
      (thread.run sys.exec fault world.shared).bind fun after => after.2.2.map Commit.transaction
  | _ => none

omit [DecidableEq Worker] in
theorem commitOf_run {sys : System i State Env Start α} {world : World i State Worker α}
    {w : Worker} {fault : Fault i} {thread thread' : Thread i α} {s : State} {commit : Commit i}
    (running : world.threads w = some thread)
    (ran : thread.run sys.exec fault world.shared = some (thread', s, some commit)) :
    sys.commitOf world (.run w fault) = some commit.transaction := by
  simp only [System.commitOf, running, ran, Option.bind_some, Option.map_some]

omit [DecidableEq Worker] in
theorem exclusive_of_commitOf {sys : System i State Env Start α} {world : World i State Worker α}
    {action : Action i Worker Env Start}
    (own : ∀ t ∈ sys.commitOf world action, world.current = action.worker) :
    Exclusive sys world action := by
  cases action with
  | environment _ | acquire _ _ | drop _ | leave _ => trivial
  | run w fault =>
      intro thread thread' s commit running ran
      exact own commit.transaction (commitOf_run running ran)

/-- Every commit of these actions passes a test in the world it finds. -/
def System.commitsPass (sys : System i State Env Start α)
    (test : World i State Worker α → Action i Worker Env Start → i.Transaction → Bool) :
    World i State Worker α → List (Action i Worker Env Start) → Bool
  | _, [] => true
  | world, action :: rest =>
      (sys.commitOf world action).all (test world action) &&
        (sys.step world action).all fun next => sys.commitsPass test next rest

/-- A run whose commits have been tested, if the test is all that its actions need. -/
theorem reachable_commitsPass {sys : System i State Env Start α}
    {allowed : World i State Worker α → Action i Worker Env Start → Prop}
    {start : World i State Worker α}
    (test : World i State Worker α → Action i Worker Env Start → i.Transaction → Bool) :
    ∀ (actions : List (Action i Worker Env Start)) (world last : World i State Worker α),
      (∀ action ∈ actions, ∀ world, (∀ t ∈ sys.commitOf world action, test world action t = true) →
        allowed world action) → Reachable sys allowed start world →
        sys.commitsPass test world actions = true → sys.runs world actions = some last →
          Reachable sys allowed start last := by
  intro actions
  induction actions with
  | nil =>
      intro world last _ before _ ran
      cases ran
      exact before
  | cons action rest ih =>
      intro world last admits before passes ran
      simp only [System.runs] at ran
      simp only [System.commitsPass, Bool.and_eq_true, Option.all_eq_true] at passes
      obtain ⟨own, later⟩ := passes
      cases stepped : sys.step world action with
      | none => simp [stepped] at ran
      | some next =>
          simp only [stepped, Option.bind_some] at ran
          have admitted := admits action List.mem_cons_self world own
          exact ih next last (fun action member => admits action (List.mem_cons_of_mem _ member))
            (.step action before admitted stepped) (later next stepped) ran

/-! ## What a step does -/

theorem step_environment {sys : System i State Env Start α} {world next : World i State Worker α}
    {e : Env} (stepped : sys.step world (.environment e) = some next) :
    ∃ s, sys.environment e world.shared = some s ∧ next = { world with shared := s } := by
  simp only [System.step, Option.map_eq_some_iff] at stepped
  obtain ⟨s, happened, rfl⟩ := stepped
  exact ⟨s, happened, rfl⟩

theorem step_acquire {sys : System i State Env Start α} {world next : World i State Worker α}
    {w : Worker} {start : Start} (stepped : sys.step world (.acquire w start) = some next) :
    world.owner = none ∧ world.threads w = none ∧
      next =
        { world with
          threads := Function.update world.threads w
            (some ⟨world.attempts, true, [], sys.program start⟩)
          owner := some w
          current := some w
          attempts := world.attempts + 1 } := by
  simp only [System.step, Option.ite_none_right_eq_some, Bool.and_eq_true, Option.isNone_iff_eq_none,
    Option.some.injEq] at stepped
  obtain ⟨⟨free, idle⟩, rfl⟩ := stepped
  exact ⟨free, idle, rfl⟩

theorem step_drop {sys : System i State Env Start α} {world next : World i State Worker α}
    {w : Worker} (stepped : sys.step world (.drop w) = some next) :
    ∃ thread, world.threads w = some thread ∧
      next =
        { world with
          threads := Function.update world.threads w (some { thread with alive := false })
          owner := world.release w } := by
  simp only [System.step, Option.map_eq_some_iff] at stepped
  obtain ⟨thread, running, rfl⟩ := stepped
  exact ⟨thread, running, rfl⟩

theorem step_leave {sys : System i State Env Start α} {world next : World i State Worker α}
    {w : Worker} (stepped : sys.step world (.leave w) = some next) :
    next =
      { world with threads := Function.update world.threads w none, owner := world.release w } := by
  simp only [System.step, Option.map_eq_some_iff] at stepped
  obtain ⟨thread, running, rfl⟩ := stepped
  rfl

theorem step_run {sys : System i State Env Start α} {world next : World i State Worker α}
    {w : Worker} {fault : Fault i} (stepped : sys.step world (.run w fault) = some next) :
    ∃ thread thread' s commit, world.threads w = some thread ∧
      thread.run sys.exec fault world.shared = some (thread', s, commit) ∧
        next =
          { world with
            shared := s
            threads := Function.update world.threads w (some thread')
            history := world.history ++
              (commit.map fun commit => (thread.attempt, commit)).toList } := by
  simp only [System.step] at stepped
  cases running : world.threads w with
  | none => simp [running] at stepped
  | some thread =>
      simp only [running, Option.map_eq_some_iff] at stepped
      obtain ⟨⟨thread', s, commit⟩, ran, rfl⟩ := stepped
      exact ⟨thread, thread', s, commit, rfl, ran, rfl⟩

/-- A request is answered, or a transaction of the program commits. -/
theorem Thread.run_cases
    {exec : (t : i.Transaction) → State → Except i.Exception (i.Reply t × State)}
    {fault : Fault i} {thread thread' : Thread i α} {s s' : State} {commit : Option (Commit i)}
    (ran : thread.run exec fault s = some (thread', s', commit)) :
    thread'.attempt = thread.attempt ∧ thread'.alive = thread.alive ∧
      ((s' = s ∧ commit = none ∧ thread'.log = thread.log) ∨
        ∃ t reply next, thread.program = .transact t next ∧ exec t s = .ok (reply, s') ∧
          commit = some ⟨t, reply⟩ ∧ thread'.log = thread.log ++ [⟨t, reply⟩]) := by
  unfold Thread.run at ran
  cases program : thread.program with
  | done result => simp [program] at ran
  | checkLock next =>
      simp only [program, Option.some.injEq, Prod.mk.injEq] at ran
      obtain ⟨rfl, rfl, rfl⟩ := ran
      exact ⟨rfl, rfl, Or.inl ⟨rfl, rfl, rfl⟩⟩
  | call c next =>
      cases fault with
      | none | fails e | unknown e =>
          simp only [program, Option.some.injEq, Prod.mk.injEq] at ran
          obtain ⟨rfl, rfl, rfl⟩ := ran
          exact ⟨rfl, rfl, Or.inl ⟨rfl, rfl, rfl⟩⟩
  | transact t next =>
      cases executed : exec t s with
      | error e =>
          cases fault with
          | none | fails e' | unknown e' =>
              simp only [program, executed, Option.some.injEq, Prod.mk.injEq] at ran
              obtain ⟨rfl, rfl, rfl⟩ := ran
              exact ⟨rfl, rfl, Or.inl ⟨rfl, rfl, rfl⟩⟩
      | ok answer =>
          obtain ⟨reply, after⟩ := answer
          cases fault with
          | fails e =>
              simp only [program, executed, Option.some.injEq, Prod.mk.injEq] at ran
              obtain ⟨rfl, rfl, rfl⟩ := ran
              exact ⟨rfl, rfl, Or.inl ⟨rfl, rfl, rfl⟩⟩
          | none | unknown e =>
              simp only [program, executed, Option.some.injEq, Prod.mk.injEq] at ran
              obtain ⟨rfl, rfl, rfl⟩ := ran
              exact ⟨rfl, rfl, Or.inr ⟨t, reply, next, rfl, executed, rfl, rfl⟩⟩

/-- Where the running program of a worker comes from. -/
theorem step_thread {sys : System i State Env Start α} {world next : World i State Worker α}
    {action : Action i Worker Env Start} (stepped : sys.step world action = some next)
    {w : Worker} {thread : Thread i α} (running : next.threads w = some thread) :
    (∃ start, action = .acquire w start ∧
        thread = ⟨world.attempts, true, [], sys.program start⟩) ∨
      ∃ before, world.threads w = some before ∧
        ((action.worker ≠ some w ∧ thread = before) ∨
          (action = .drop w ∧ thread = { before with alive := false }) ∨
          ∃ fault commit, action = .run w fault ∧
            before.run sys.exec fault world.shared = some (thread, next.shared, commit)) := by
  cases action with
  | environment e =>
      obtain ⟨_, _, rfl⟩ := step_environment stepped
      exact Or.inr ⟨thread, running, Or.inl ⟨by simp [Action.worker], rfl⟩⟩
  | acquire other start =>
      obtain ⟨_, _, rfl⟩ := step_acquire stepped
      rcases update_eq_some running with ⟨rfl, rfl⟩ | ⟨different, was⟩
      · exact Or.inl ⟨start, rfl, rfl⟩
      · exact Or.inr ⟨thread, was, Or.inl ⟨by simpa [Action.worker] using different, rfl⟩⟩
  | drop other =>
      obtain ⟨dropped, owned, rfl⟩ := step_drop stepped
      rcases update_eq_some running with ⟨rfl, rfl⟩ | ⟨different, was⟩
      · exact Or.inr ⟨dropped, owned, Or.inr (Or.inl ⟨rfl, rfl⟩)⟩
      · exact Or.inr ⟨thread, was, Or.inl ⟨by simpa [Action.worker] using different, rfl⟩⟩
  | leave other =>
      rw [step_leave stepped] at running
      obtain ⟨different, was⟩ := update_none_eq_some running
      exact Or.inr ⟨thread, was, Or.inl ⟨by simpa [Action.worker] using different, rfl⟩⟩
  | run other fault =>
      obtain ⟨before, _, s, commit, was, ran, rfl⟩ := step_run stepped
      rcases update_eq_some running with ⟨rfl, rfl⟩ | ⟨different, was⟩
      · exact Or.inr ⟨before, was, Or.inr (Or.inr ⟨fault, commit, rfl, ran⟩)⟩
      · exact Or.inr ⟨thread, was, Or.inl ⟨by simpa [Action.worker] using different, rfl⟩⟩

/-- The commit of a request is the last of the history. -/
theorem step_commitOf {sys : System i State Env Start α} {world next : World i State Worker α}
    {action : Action i Worker Env Start} {t : i.Transaction}
    (stepped : sys.step world action = some next) (commits : sys.commitOf world action = some t) :
    ∃ attempt reply, next.history = world.history ++ [(attempt, ⟨t, reply⟩)] := by
  cases action with
  | environment _ | acquire _ _ | drop _ | leave _ => cases commits
  | run w fault =>
      obtain ⟨thread, thread', s, commit, running, ran, rfl⟩ := step_run stepped
      simp only [System.commitOf, running, ran, Option.bind_some, Option.map_eq_some_iff] at commits
      obtain ⟨⟨t, reply⟩, rfl, rfl⟩ := commits
      exact ⟨thread.attempt, reply, rfl⟩

/-- The store and the history change by the environment or by a commit alone. -/
theorem step_shared {sys : System i State Env Start α} {world next : World i State Worker α}
    {action : Action i Worker Env Start} (stepped : sys.step world action = some next) :
    (next.shared = world.shared ∧ next.history = world.history) ∨
      (∃ e, action = .environment e ∧ sys.environment e world.shared = some next.shared ∧
        next.history = world.history) ∨
      ∃ w fault before thread t reply, action = .run w fault ∧ world.threads w = some before ∧
        before.run sys.exec fault world.shared = some (thread, next.shared, some ⟨t, reply⟩) ∧
        sys.exec t world.shared = .ok (reply, next.shared) ∧
        next.history = world.history ++ [(before.attempt, ⟨t, reply⟩)] := by
  cases action with
  | environment e =>
      obtain ⟨s, happened, rfl⟩ := step_environment stepped
      exact Or.inr (Or.inl ⟨e, rfl, happened, rfl⟩)
  | acquire w start =>
      obtain ⟨_, _, rfl⟩ := step_acquire stepped
      exact Or.inl ⟨rfl, rfl⟩
  | drop w =>
      obtain ⟨_, _, rfl⟩ := step_drop stepped
      exact Or.inl ⟨rfl, rfl⟩
  | leave w =>
      rw [step_leave stepped]
      exact Or.inl ⟨rfl, rfl⟩
  | run w fault =>
      obtain ⟨before, thread, s, commit, was, ran, rfl⟩ := step_run stepped
      rcases (Thread.run_cases ran).2.2 with ⟨rfl, rfl, _⟩ | ⟨t, reply, _, _, executed, rfl, _⟩
      · exact Or.inl ⟨rfl, by simp⟩
      · exact Or.inr (Or.inr ⟨w, fault, before, thread, t, reply, rfl, was, ran, executed, rfl⟩)

/-- A new entry of the history is a commit of the running program of its attempt. -/
theorem step_commit {sys : System i State Env Start α} {world next : World i State Worker α}
    {action : Action i Worker Env Start} {entry : Nat × Commit i}
    (stepped : sys.step world action = some next)
    (grown : next.history = world.history ++ [entry]) :
    ∃ w fault before thread, action = .run w fault ∧ world.threads w = some before ∧
      before.attempt = entry.1 ∧
      before.run sys.exec fault world.shared = some (thread, next.shared, some entry.2) ∧
      sys.exec entry.2.transaction world.shared = .ok (entry.2.reply, next.shared) := by
  have unchanged : next.history ≠ world.history := by
    intro same
    have lengths := congrArg List.length (same.symm.trans grown)
    simp at lengths
  rcases step_shared stepped with ⟨_, same⟩ | ⟨_, _, _, same⟩ |
    ⟨w, fault, before, thread, t, reply, isRun, was, ran, executed, committed⟩
  · exact absurd same unchanged
  · exact absurd same unchanged
  · have same := List.append_cancel_left (committed.symm.trans grown)
    simp only [List.cons.injEq, and_true] at same
    subst same
    exact ⟨w, fault, before, thread, isRun, was, rfl, ran, executed⟩

/-- A new entry of the history is a transaction that this step has executed. -/
theorem step_history {sys : System i State Env Start α} {world next : World i State Worker α}
    {action : Action i Worker Env Start} {entry : Nat × Commit i}
    (stepped : sys.step world action = some next)
    (grown : next.history = world.history ++ [entry]) :
    sys.exec entry.2.transaction world.shared = .ok (entry.2.reply, next.shared) := by
  obtain ⟨_, _, _, _, _, _, _, _, executed⟩ := step_commit stepped grown
  exact executed

/-- Only getting the lock makes another worker the last to have got it. -/
theorem step_current {sys : System i State Env Start α} {world next : World i State Worker α}
    {action : Action i Worker Env Start} (stepped : sys.step world action = some next) :
    (next.current = world.current ∧ next.attempts = world.attempts) ∨
      ∃ w start, action = .acquire w start ∧ next.current = some w ∧
        next.attempts = world.attempts + 1 := by
  cases action with
  | environment e =>
      obtain ⟨_, _, rfl⟩ := step_environment stepped
      exact Or.inl ⟨rfl, rfl⟩
  | acquire w start =>
      obtain ⟨_, _, rfl⟩ := step_acquire stepped
      exact Or.inr ⟨w, start, rfl, rfl, rfl⟩
  | drop w =>
      obtain ⟨_, _, rfl⟩ := step_drop stepped
      exact Or.inl ⟨rfl, rfl⟩
  | leave w =>
      rw [step_leave stepped]
      exact Or.inl ⟨rfl, rfl⟩
  | run w fault =>
      obtain ⟨_, _, _, _, _, _, rfl⟩ := step_run stepped
      exact Or.inl ⟨rfl, rfl⟩

/-- The lock is freed by its own worker, and taken when it is free. -/
theorem step_owner {sys : System i State Env Start α} {world next : World i State Worker α}
    {action : Action i Worker Env Start} (stepped : sys.step world action = some next)
    (w : Worker) :
    (next.owner = some w ∧ ∃ start, action = .acquire w start) ∨
      ((∀ start, action ≠ .acquire w start) ∧
        (next.owner = some w ↔ world.owner = some w ∧ action ≠ .drop w ∧ action ≠ .leave w)) := by
  have released : ∀ other : Worker,
      world.release other = some w ↔ world.owner = some w ∧ other ≠ w := by
    intro other
    unfold World.release
    split
    · next own =>
        rw [own]
        simp
    · next own =>
        refine ⟨fun owns => ⟨owns, ?_⟩, fun owns => owns.1⟩
        rintro rfl
        exact own owns
  cases action with
  | environment e =>
      obtain ⟨_, _, rfl⟩ := step_environment stepped
      exact Or.inr ⟨by simp, by simp⟩
  | acquire other start =>
      obtain ⟨free, _, rfl⟩ := step_acquire stepped
      by_cases same : other = w
      · subst same
        exact Or.inl ⟨rfl, start, rfl⟩
      · exact Or.inr ⟨by simp [same], by simp [free, same]⟩
  | drop other =>
      obtain ⟨_, _, rfl⟩ := step_drop stepped
      exact Or.inr ⟨by simp, by simpa using released other⟩
  | leave other =>
      rw [step_leave stepped]
      exact Or.inr ⟨by simp, by simpa using released other⟩
  | run other fault =>
      obtain ⟨_, _, _, _, _, _, rfl⟩ := step_run stepped
      exact Or.inr ⟨by simp, by simp⟩

/-! ## A run in time -/

/-- A run by the moments between its steps; at some of them nothing happens. -/
structure Timeline (sys : System i State Env Start α) (start : World i State Worker α) where
  world : Nat → World i State Worker α
  starts : world 0 = start
  moves : ∀ moment, world (moment + 1) = world moment ∨
    ∃ action, sys.step (world moment) action = some (world (moment + 1))

/-- The world after so many of the actions, up to one that is not possible. -/
def System.trace (sys : System i State Env Start α) :
    World i State Worker α → List (Action i Worker Env Start) → Nat → World i State Worker α
  | world, [], _ => world
  | world, _ :: _, 0 => world
  | world, action :: rest, moment + 1 =>
      match sys.step world action with
      | none => world
      | some next => sys.trace next rest moment

theorem System.trace_zero (sys : System i State Env Start α) (world : World i State Worker α)
    (actions : List (Action i Worker Env Start)) : sys.trace world actions 0 = world := by
  cases actions <;> rfl

theorem System.trace_moves (sys : System i State Env Start α) :
    ∀ (actions : List (Action i Worker Env Start)) (world : World i State Worker α)
      (moment : Nat),
      sys.trace world actions (moment + 1) = sys.trace world actions moment ∨
        ∃ action, sys.step (sys.trace world actions moment) action =
          some (sys.trace world actions (moment + 1)) := by
  intro actions
  induction actions with
  | nil =>
      intro world moment
      exact Or.inl rfl
  | cons action rest ih =>
      intro world moment
      cases stepped : sys.step world action with
      | none =>
          refine Or.inl ?_
          cases moment with
          | zero => simp only [System.trace, stepped]
          | succ moment => simp only [System.trace, stepped]
      | some next =>
          cases moment with
          | zero =>
              refine Or.inr ⟨action, ?_⟩
              simp only [System.trace, stepped, System.trace_zero]
          | succ moment =>
              simp only [System.trace, stepped]
              exact ih next moment

def Timeline.replay (sys : System i State Env Start α) (start : World i State Worker α)
    (actions : List (Action i Worker Env Start)) : Timeline sys start where
  world := sys.trace start actions
  starts := sys.trace_zero start actions
  moves := sys.trace_moves actions start

/-- What no step between two moments changes is the same at both. -/
theorem constant_between {Value : Type} (value : Nat → Value) {first second : Nat}
    (kept : ∀ moment, min first second ≤ moment → moment < max first second →
      value moment = value (moment + 1)) : value first = value second := by
  have upward : ∀ low distance, (∀ moment, low ≤ moment → moment < low + distance →
      value moment = value (moment + 1)) → value low = value (low + distance) := by
    intro low distance
    induction distance with
    | zero =>
        intro _
        rfl
    | succ distance ih =>
        intro keeps
        have before := ih fun moment above below => keeps moment above (by omega)
        exact before.trans (keeps (low + distance) (by omega) (by omega))
  rcases Nat.le_total first second with forward | backward
  · have same := upward first (second - first) fun moment above below =>
      kept moment (by omega) (by omega)
    rwa [Nat.add_sub_cancel' forward] at same
  · have same := upward second (first - second) fun moment above below =>
      kept moment (by omega) (by omega)
    rw [Nat.add_sub_cancel' backward] at same
    exact same.symm

end Step

end Transactional

import StockImport.Library.World
import Mathlib.Data.Option.Defs

/-!
# Calls that are answered

A program calls something outside, and all it sees is whether the call raises.  Where the
answer comes from the store, the call is a transaction of an extended interface, and the
program goes on with what it returned.  If the store always gives the answer that the
first program was written for, every run of the second is a run of the first.
-/

set_option autoImplicit false

namespace Transactional

/-- An interface with more transactions. -/
abbrev Interface.extend (i : Interface) (Extra : Type) (Reply : Extra → Type) : Interface where
  Exception := i.Exception
  Call := i.Call
  Transaction := i.Transaction ⊕ Extra
  Reply := Sum.elim i.Reply Reply

section Programs

variable {i : Interface} {Extra : Type} {Reply : Extra → Type} {α β : Type}

/-- A program that makes no use of the new transactions. -/
def Program.embed (Extra : Type) (Reply : Extra → Type) :
    Program i α → Program (i.extend Extra Reply) α
  | .done result => .done result
  | .checkLock next => .checkLock fun alive => (next alive).embed Extra Reply
  | .call c next => .call c fun answer => (next answer).embed Extra Reply
  | .transact t next => .transact (.inl t) fun answer => (next answer).embed Extra Reply

/-- The same program, where a new transaction stands for a call and returns what is
expected of it. -/
inductive Program.Matches (callOf : Extra → i.Call) (expected : (x : Extra) → Reply x) :
    Program (i.extend Extra Reply) α → Program i α → Prop
  | done (result : Except i.Exception α) : Matches callOf expected (.done result) (.done result)
  | checkLock {next : Bool → Program (i.extend Extra Reply) α} {next' : Bool → Program i α}
      (later : ∀ alive, Matches callOf expected (next alive) (next' alive)) :
      Matches callOf expected (.checkLock next) (.checkLock next')
  | call (c : i.Call) {next : Except i.Exception Unit → Program (i.extend Extra Reply) α}
      {next' : Except i.Exception Unit → Program i α}
      (later : ∀ answer, Matches callOf expected (next answer) (next' answer)) :
      Matches callOf expected (.call c next) (.call c next')
  | transact (t : i.Transaction)
      {next : Except i.Exception (i.Reply t) → Program (i.extend Extra Reply) α}
      {next' : Except i.Exception (i.Reply t) → Program i α}
      (later : ∀ answer, Matches callOf expected (next answer) (next' answer)) :
      Matches callOf expected (.transact (.inl t) next) (.transact t next')
  | extra (x : Extra) {next : Except i.Exception (Reply x) → Program (i.extend Extra Reply) α}
      {next' : Except i.Exception Unit → Program i α}
      (answered : Matches callOf expected (next (.ok (expected x))) (next' (.ok ())))
      (raised : ∀ e, Matches callOf expected (next (.error e)) (next' (.error e))) :
      Matches callOf expected (.transact (.inr x) next) (.call (callOf x) next')

variable {callOf : Extra → i.Call} {expected : (x : Extra) → Reply x}

theorem matches_embed (p : Program i α) :
    Program.Matches callOf expected (p.embed Extra Reply) p := by
  induction p with
  | done result => exact .done result
  | checkLock next ih => exact .checkLock ih
  | call c next ih => exact .call c ih
  | transact t next ih => exact .transact t ih

theorem matches_andThen {p : Program (i.extend Extra Reply) α} {p' : Program i α}
    {f : Except i.Exception α → Program (i.extend Extra Reply) β}
    {f' : Except i.Exception α → Program i β} (first : p.Matches callOf expected p')
    (next : ∀ result, (f result).Matches callOf expected (f' result)) :
    (p.andThen f).Matches callOf expected (p'.andThen f') := by
  induction first with
  | done result => exact next result
  | checkLock _ ih => exact .checkLock ih
  | call c _ ih => exact .call c ih
  | transact t _ ih => exact .transact t ih
  | extra x _ _ answered raised => exact .extra x answered raised

theorem matches_bind {p : Program (i.extend Extra Reply) α} {p' : Program i α}
    {f : α → Program (i.extend Extra Reply) β} {f' : α → Program i β}
    (first : p.Matches callOf expected p')
    (next : ∀ value, (f value).Matches callOf expected (f' value)) :
    (p >>= f).Matches callOf expected (p' >>= f') := by
  refine matches_andThen first fun result => ?_
  cases result with
  | ok value => exact next value
  | error e => exact .done _

theorem matches_handle {p : Program (i.extend Extra Reply) α} {p' : Program i α}
    {handler : i.Exception → Program (i.extend Extra Reply) α}
    {handler' : i.Exception → Program i α} (first : p.Matches callOf expected p')
    (next : ∀ e, (handler e).Matches callOf expected (handler' e)) :
    (p.handle handler).Matches callOf expected (p'.handle handler') := by
  refine matches_andThen first fun result => ?_
  cases result with
  | ok value => exact .done _
  | error e => exact next e

/-- A new transaction at the front, and the call it stands for. -/
theorem matches_extra (x : Extra) {f : Reply x → Program (i.extend Extra Reply) α}
    {f' : Unit → Program i α} (next : (f (expected x)).Matches callOf expected (f' ())) :
    Program.Matches callOf expected
      (Program.andThen (.transact (.inr x) .done) (Program.onSuccess f))
      (Program.invoke (callOf x) >>= f') :=
  .extra x next fun _ => .done _

end Programs

section Systems

variable {i : Interface} {Extra : Type} {Reply : Extra → Type} {callOf : Extra → i.Call}
  {expected : (x : Extra) → Reply x} {State State' Worker Env Env' Start Start' α : Type}

/-- The extended system does with its store what the other does with a part of it, and while
`agrees` holds the store returns what is expected. -/
structure Implements (sys : System (i.extend Extra Reply) State Env Start α)
    (sys' : System i State' Env' Start' α) (callOf : Extra → i.Call)
    (expected : (x : Extra) → Reply x) (view : State → State') (agrees : State → Prop) : Prop where
  commits : ∀ t reply s s', sys.exec (.inl t) s = .ok (reply, s') →
    sys'.exec t (view s) = .ok (reply, view s')
  refuses : ∀ t e s, sys.exec (.inl t) s = .error e → sys'.exec t (view s) = .error e
  answers : ∀ x reply s s', agrees s → sys.exec (.inr x) s = .ok (reply, s') →
    reply = expected x ∧ view s' = view s
  environment : ∀ e s s', sys.environment e s = some s' →
    view s' = view s ∨ ∃ e', sys'.environment e' (view s) = some (view s')
  starts : ∀ start, ∃ start', (sys.program start).Matches callOf expected (sys'.program start')

/-- The same attempt of the two programs. -/
structure ThreadMatches (callOf : Extra → i.Call) (expected : (x : Extra) → Reply x)
    (thread : Thread (i.extend Extra Reply) α) (thread' : Thread i α) : Prop where
  attempt : thread'.attempt = thread.attempt
  alive : thread'.alive = thread.alive
  program : thread.program.Matches callOf expected thread'.program

structure Simulates (callOf : Extra → i.Call) (expected : (x : Extra) → Reply x)
    (view : State → State') (world : World (i.extend Extra Reply) State Worker α)
    (world' : World i State' Worker α) : Prop where
  shared : world'.shared = view world.shared
  threads : ∀ w, Option.Rel (ThreadMatches callOf expected) (world.threads w) (world'.threads w)
  owner : world'.owner = world.owner
  current : world'.current = world.current
  attempts : world'.attempts = world.attempts

/-- An action and the one that stands for it; no answer is lost that was not lost before. -/
inductive Follows : Action (i.extend Extra Reply) Worker Env Start →
    Action i Worker Env' Start' → Prop
  | environment (e : Env) (e' : Env') : Follows (.environment e) (.environment e')
  | acquire (w : Worker) (start : Start) (start' : Start') : Follows (.acquire w start) (.acquire w start')
  | drop (w : Worker) : Follows (.drop w) (.drop w)
  | leave (w : Worker) : Follows (.leave w) (.leave w)
  | run (w : Worker) (fault : Fault (i.extend Extra Reply)) (fault' : Fault i)
      (unknown : ∀ e, fault' = .unknown e → fault = .unknown e) :
      Follows (.run w fault) (.run w fault')

/-- What goes wrong in a request does so in the other program. -/
def Fault.forget : Fault (i.extend Extra Reply) → Fault i
  | .none => .none
  | .fails e => .fails e
  | .unknown e => .unknown e

variable {sys : System (i.extend Extra Reply) State Env Start α}
  {sys' : System i State' Env' Start' α} {view : State → State'} {agrees : State → Prop}
  {world next : World (i.extend Extra Reply) State Worker α} {world' : World i State' Worker α}

/-- One request of the extended program is one request of the other. -/
theorem ThreadMatches.run (implements : Implements sys sys' callOf expected view agrees)
    {thread after : Thread (i.extend Extra Reply) α} {thread' : Thread i α} {s s' : State}
    {fault : Fault (i.extend Extra Reply)} {commit : Option (Commit (i.extend Extra Reply))}
    (holds : agrees s) (same : ThreadMatches callOf expected thread thread')
    (ran : thread.run sys.exec fault s = some (after, s', commit)) :
    ∃ (fault' : Fault i) (after' : Thread i α) (commit' : Option (Commit i)),
      (∀ e, fault' = .unknown e → fault = .unknown e) ∧
      thread'.run sys'.exec fault' (view s) = some (after', view s', commit') ∧
      ThreadMatches callOf expected after after' := by
  obtain ⟨attempt, alive, log, program⟩ := thread
  obtain ⟨attempt', alive', log', program'⟩ := thread'
  obtain ⟨rfl, rfl, program⟩ := same
  have forgets : ∀ e, fault.forget = .unknown e → fault = .unknown e := by
    intro e lost
    cases fault with
    | none | fails _ => cases lost
    | unknown _ =>
        cases lost
        rfl
  cases program with
  | done result => simp [Thread.run] at ran
  | checkLock later =>
      simp only [Thread.run, Option.some.injEq, Prod.mk.injEq] at ran
      obtain ⟨rfl, rfl, rfl⟩ := ran
      exact ⟨.none, _, _, fun e lost => (by cases lost), rfl, rfl, rfl, later _⟩
  | call c later =>
      cases fault with
      | none | fails e | unknown e =>
          simp only [Thread.run, Option.some.injEq, Prod.mk.injEq] at ran
          obtain ⟨rfl, rfl, rfl⟩ := ran
          exact ⟨_, _, _, forgets, rfl, rfl, rfl, later _⟩
  | @transact t next next' later =>
      cases executed : sys.exec (.inl t) s with
      | error e =>
          have refused := implements.refuses t e s executed
          cases fault with
          | none | unknown _ =>
              simp only [Thread.run, executed, Option.some.injEq, Prod.mk.injEq] at ran
              obtain ⟨rfl, rfl, rfl⟩ := ran
              exact ⟨.none, ⟨attempt', alive', log', next' (.error e)⟩, none,
                fun _ lost => (by cases lost), by simp only [Thread.run, refused], rfl, rfl, later _⟩
          | fails e' =>
              simp only [Thread.run, executed, Option.some.injEq, Prod.mk.injEq] at ran
              obtain ⟨rfl, rfl, rfl⟩ := ran
              exact ⟨.fails e', ⟨attempt', alive', log', next' (.error e')⟩, none,
                fun _ lost => (by cases lost), by simp only [Thread.run, refused], rfl, rfl, later _⟩
      | ok answer =>
          obtain ⟨reply, stored⟩ := answer
          have committed := implements.commits t reply s stored executed
          cases fault with
          | fails e =>
              simp only [Thread.run, executed, Option.some.injEq, Prod.mk.injEq] at ran
              obtain ⟨rfl, rfl, rfl⟩ := ran
              exact ⟨.fails e, ⟨attempt', alive', log', next' (.error e)⟩, none,
                fun _ lost => (by cases lost), by simp only [Thread.run, committed], rfl, rfl, later _⟩
          | none =>
              simp only [Thread.run, executed, Option.some.injEq, Prod.mk.injEq] at ran
              obtain ⟨rfl, rfl, rfl⟩ := ran
              exact ⟨.none, ⟨attempt', alive', log' ++ [⟨t, reply⟩], next' (.ok reply)⟩,
                some ⟨t, reply⟩, fun _ lost => (by cases lost), by simp only [Thread.run, committed],
                rfl, rfl, later _⟩
          | unknown e =>
              simp only [Thread.run, executed, Option.some.injEq, Prod.mk.injEq] at ran
              obtain ⟨rfl, rfl, rfl⟩ := ran
              exact ⟨.unknown e, ⟨attempt', alive', log' ++ [⟨t, reply⟩], next' (.error e)⟩,
                some ⟨t, reply⟩, forgets, by simp only [Thread.run, committed], rfl, rfl, later _⟩
  | @extra x next next' answered raised =>
      -- a read that fails in any way is a call that raises
      have fails : ∀ e (log : List (Commit (i.extend Extra Reply))),
          ∃ (fault' : Fault i) (after' : Thread i α) (commit' : Option (Commit i)),
          (∀ e, fault' = .unknown e → fault = .unknown e) ∧
          Thread.run sys'.exec fault' ⟨attempt', alive', log', .call (callOf x) next'⟩ (view s) =
            some (after', view s, commit') ∧
          ThreadMatches callOf expected ⟨attempt', alive', log, next (.error e)⟩ after' :=
        fun e _ => ⟨.fails e, _, _, fun _ lost => (by cases lost), rfl, rfl, rfl, raised e⟩
      cases executed : sys.exec (.inr x) s with
      | error e =>
          cases fault with
          | none | fails e' | unknown e' =>
              simp only [Thread.run, executed, Option.some.injEq, Prod.mk.injEq] at ran
              obtain ⟨rfl, rfl, rfl⟩ := ran
              exact fails _ _
      | ok answer =>
          obtain ⟨reply, stored⟩ := answer
          obtain ⟨rfl, same⟩ := implements.answers x reply s stored holds executed
          cases fault with
          | none =>
              simp only [Thread.run, executed, Option.some.injEq, Prod.mk.injEq] at ran
              obtain ⟨rfl, rfl, rfl⟩ := ran
              rw [same]
              exact ⟨.none, _, _, fun _ lost => (by cases lost), rfl, rfl, rfl, answered⟩
          | fails e =>
              simp only [Thread.run, executed, Option.some.injEq, Prod.mk.injEq] at ran
              obtain ⟨rfl, rfl, rfl⟩ := ran
              exact fails e _
          | unknown e =>
              simp only [Thread.run, executed, Option.some.injEq, Prod.mk.injEq] at ran
              obtain ⟨rfl, rfl, rfl⟩ := ran
              rw [same]
              exact fails e _

theorem Simulates.thread (simulates : Simulates callOf expected view world world') {w : Worker}
    {thread : Thread (i.extend Extra Reply) α} (running : world.threads w = some thread) :
    ∃ thread', world'.threads w = some thread' ∧ ThreadMatches callOf expected thread thread' := by
  have related := simulates.threads w
  rw [running] at related
  cases found : world'.threads w with
  | none =>
      rw [found] at related
      cases related
  | some thread' =>
      rw [found] at related
      cases related with
      | some same => exact ⟨thread', rfl, same⟩

theorem Simulates.idle (simulates : Simulates callOf expected view world world') {w : Worker}
    (stopped : world.threads w = none) : world'.threads w = none := by
  have related := simulates.threads w
  rw [stopped] at related
  cases found : world'.threads w with
  | none => rfl
  | some thread' =>
      rw [found] at related
      cases related

variable [DecidableEq Worker]

theorem Simulates.update (simulates : Simulates callOf expected view world world') {w : Worker}
    {thread : Option (Thread (i.extend Extra Reply) α)} {thread' : Option (Thread i α)}
    (same : Option.Rel (ThreadMatches callOf expected) thread thread') (other : Worker) :
    Option.Rel (ThreadMatches callOf expected) (Function.update world.threads w thread other)
      (Function.update world'.threads w thread' other) := by
  by_cases mine : other = w
  · subst mine
    rw [Function.update_self, Function.update_self]
    exact same
  · rw [Function.update_of_ne mine, Function.update_of_ne mine]
    exact simulates.threads other

theorem Simulates.release (simulates : Simulates callOf expected view world world') (w : Worker) :
    world'.release w = world.release w := by
  unfold World.release
  rw [simulates.owner]

/-- One step of the extended system is one step of the other, or none. -/
theorem Simulates.step (implements : Implements sys sys' callOf expected view agrees)
    {action : Action (i.extend Extra Reply) Worker Env Start} (holds : agrees world.shared)
    (simulates : Simulates callOf expected view world world')
    (stepped : sys.step world action = some next) :
    Simulates callOf expected view next world' ∨
      ∃ (action' : Action i Worker Env' Start') (next' : World i State' Worker α),
        Follows action action' ∧ sys'.step world' action' = some next' ∧
          Simulates callOf expected view next next' := by
  obtain ⟨shared, threads, owner, current, attempts⟩ := id simulates
  cases action with
  | environment e =>
      obtain ⟨s, happened, rfl⟩ := step_environment stepped
      rcases implements.environment e _ s happened with same | ⟨e', happened'⟩
      · exact Or.inl ⟨shared.trans same.symm, threads, owner, current, attempts⟩
      · refine Or.inr ⟨.environment e', { world' with shared := view s }, .environment e e', ?_,
          rfl, threads, owner, current, attempts⟩
        simp only [System.step, shared, happened', Option.map_some]
  | acquire w start =>
      obtain ⟨free, stopped, rfl⟩ := step_acquire stepped
      obtain ⟨start', same⟩ := implements.starts start
      refine Or.inr ⟨.acquire w start',
        { world' with
          threads := Function.update world'.threads w
            (some ⟨world'.attempts, true, [], sys'.program start'⟩)
          owner := some w
          current := some w
          attempts := world'.attempts + 1 },
        .acquire w start start', ?_, shared, ?_, rfl, rfl, ?_⟩
      · simp only [System.step, owner, free, simulates.idle stopped, Option.isNone_none,
          Bool.and_self, if_true]
      · exact simulates.update (.some ⟨attempts, rfl, same⟩)
      · exact congrArg (· + 1) attempts
  | drop w =>
      obtain ⟨thread, running, rfl⟩ := step_drop stepped
      obtain ⟨thread', running', same⟩ := simulates.thread running
      refine Or.inr ⟨.drop w,
        { world' with
          threads := Function.update world'.threads w (some { thread' with alive := false })
          owner := world'.release w },
        .drop w, ?_, shared, ?_, ?_, current, attempts⟩
      · simp only [System.step, running', Option.map_some]
      · exact simulates.update (.some ⟨same.attempt, rfl, same.program⟩)
      · exact simulates.release w
  | leave w =>
      have left : ∃ thread, world.threads w = some thread := by
        simp only [System.step, Option.map_eq_some_iff] at stepped
        obtain ⟨thread, running, _⟩ := stepped
        exact ⟨thread, running⟩
      obtain ⟨thread, running⟩ := left
      obtain ⟨thread', running', _⟩ := simulates.thread running
      rw [step_leave stepped]
      refine Or.inr ⟨.leave w,
        { world' with
          threads := Function.update world'.threads w none
          owner := world'.release w },
        .leave w, ?_, shared, ?_, ?_, current, attempts⟩
      · simp only [System.step, running', Option.map_some]
      · exact simulates.update .none
      · exact simulates.release w
  | run w fault =>
      obtain ⟨thread, after, s, commit, running, ran, rfl⟩ := step_run stepped
      obtain ⟨thread', running', same⟩ := simulates.thread running
      obtain ⟨fault', after', commit', unknown, ran', same'⟩ := same.run implements holds ran
      refine Or.inr ⟨.run w fault',
        { world' with
          shared := view s
          threads := Function.update world'.threads w (some after')
          history := world'.history ++
            (commit'.map fun commit => (thread'.attempt, commit)).toList },
        .run w fault fault' unknown, ?_, rfl, ?_, owner, current, attempts⟩
      · simp only [System.step, running', shared, ran', Option.map_some]
      · exact simulates.update (.some same')

/-- Every run of the extended system is a run of the other; `agrees` may look back from the
end of the run. -/
theorem simulated_run (implements : Implements sys sys' callOf expected view agrees)
    {allowed : World (i.extend Extra Reply) State Worker α →
      Action (i.extend Extra Reply) Worker Env Start → Prop}
    {allowed' : World i State' Worker α → Action i Worker Env' Start' → Prop}
    {start : World (i.extend Extra Reply) State Worker α} {start' : World i State' Worker α}
    (backwards : ∀ world next action, Reachable sys allowed start world →
      sys.step world action = some next → agrees next.shared → agrees world.shared)
    (transfers : ∀ world world' action action', Simulates callOf expected view world world' →
      Follows action action' → allowed world action → allowed' world' action')
    (initial : Simulates callOf expected view start start')
    (reachable : Reachable sys allowed start world) (holds : agrees world.shared) :
    ∃ world', Reachable sys' allowed' start' world' ∧
      Simulates callOf expected view world world' := by
  induction reachable with
  | start => exact ⟨start', .start, initial⟩
  | @step world next action before admitted stepped ih =>
      have agreed := backwards world next action before stepped holds
      obtain ⟨world', reached, simulates⟩ := ih agreed
      rcases simulates.step implements agreed stepped with same | ⟨action', next', follows, stepped',
        simulates'⟩
      · exact ⟨world', reached, same⟩
      · exact ⟨next', .step action' reached (transfers _ _ _ _ simulates follows admitted) stepped',
          simulates'⟩

end Systems

end Transactional

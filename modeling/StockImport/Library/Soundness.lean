import StockImport.Library.World

/-!
# Invariants of whole runs

`Tracks` carries an invariant of the store and the weakest preconditions of the
running programs through every run.  It is used in two ways: where only the
worker that got the lock last commits (`Exclusive`, which both `Serialised` and
`Fenced` give), and where the programs count on nothing.
-/

set_option autoImplicit false

namespace Transactional

section Soundness

variable {i : Interface} {State Worker Env Start α : Type} [DecidableEq Worker]

/-! ## Who commits -/

/-- In a serialised run only the last worker to get the lock has a program. -/
theorem serialised_current {sys : System i State Env Start α}
    {allowed : World i State Worker α → Action i Worker Env Start → Prop}
    (serialised : ∀ world action, allowed world action → Serialised world action)
    {start world : World i State Worker α} (idle : start.Idle)
    (reachable : Reachable sys allowed start world) :
    ∀ w thread, world.threads w = some thread → world.current = some w := by
  induction reachable with
  | start =>
      intro w thread running
      rw [idle.1 w] at running
      cases running
  | @step world next action before admitted stepped ih =>
      intro w thread running
      rcases step_thread stepped running with ⟨start, rfl, _⟩ | ⟨thread₀, was, _⟩
      · obtain ⟨_, _, rfl⟩ := step_acquire stepped
        rfl
      · rcases step_current stepped with ⟨same, _⟩ | ⟨other, start, rfl, _⟩
        · rw [same]
          exact ih w thread₀ was
        · rw [serialised _ _ admitted w] at was
          cases was

/-- A living connection of a running program holds the lock, and the holder is
the one who got it last. -/
theorem living_current {sys : System i State Env Start α}
    {allowed : World i State Worker α → Action i Worker Env Start → Prop}
    {start world : World i State Worker α} (idle : start.Idle)
    (reachable : Reachable sys allowed start world) :
    (∀ w thread, world.threads w = some thread → thread.alive = true →
        world.owner = some w) ∧
      ∀ w, world.owner = some w → world.current = some w := by
  induction reachable with
  | start =>
      refine ⟨?_, ?_⟩
      · intro w thread running
        rw [idle.1 w] at running
        cases running
      · intro w owns
        rw [idle.2.1] at owns
        cases owns
  | @step world next action before admitted stepped ih =>
      obtain ⟨holds, latest⟩ := ih
      refine ⟨?_, ?_⟩
      · intro w thread running alive
        rcases step_owner stepped w with ⟨owns, _⟩ | ⟨untaken, owner⟩
        · exact owns
        · rw [owner]
          rcases step_thread stepped running with ⟨start, taken, _⟩ |
            ⟨thread₀, was, ⟨different, rfl⟩ | ⟨_, rfl⟩ | ⟨fault, commit, rfl, ran⟩⟩
          · exact absurd taken (untaken start)
          · refine ⟨holds w thread was alive, ?_, ?_⟩
            · rintro rfl
              exact different rfl
            · rintro rfl
              exact different rfl
          · cases alive
          · have kept := (Thread.run_cases ran).2.1
            exact ⟨holds w thread₀ was (kept ▸ alive), by simp, by simp⟩
      · intro w owns
        rcases step_owner stepped w with ⟨_, start, rfl⟩ | ⟨_, owner⟩
        · obtain ⟨_, _, rfl⟩ := step_acquire stepped
          rfl
        · have owned := (owner.mp owns).1
          rcases step_current stepped with ⟨same, _⟩ | ⟨other, start, rfl, _⟩
          · exact same.trans (latest w owned)
          · rw [(step_acquire stepped).1] at owned
            cases owned

theorem serialised_exclusive {sys : System i State Env Start α}
    {start world : World i State Worker α} {spec : Spec i State} (idle : start.Idle)
    (reachable : Reachable sys
      (fun world action => Serialised world action ∧ Permits spec world action) start world) :
    Reachable sys (fun world action => Exclusive sys world action ∧ Permits spec world action)
      start world := by
  refine reachable.weaken ?_
  intro world action before admitted
  refine ⟨?_, admitted.2⟩
  cases action with
  | run w fault =>
      intro thread thread' s commit running _
      exact serialised_current (fun _ _ admitted => admitted.1) idle before w thread running
  | environment _ | acquire _ _ | drop _ | leave _ => trivial

theorem fenced_exclusive {sys : System i State Env Start α}
    {start world : World i State Worker α} {spec : Spec i State} (idle : start.Idle)
    (reachable : Reachable sys
      (fun world action => Fenced sys world action ∧ Permits spec world action) start world) :
    Reachable sys (fun world action => Exclusive sys world action ∧ Permits spec world action)
      start world := by
  refine reachable.weaken ?_
  intro world action before admitted
  refine ⟨?_, admitted.2⟩
  cases action with
  | run w fault =>
      intro thread thread' s commit running ran
      obtain ⟨holds, latest⟩ := living_current idle before
      exact latest w (holds w thread running (admitted.1 thread thread' s commit running ran))
  | environment _ | acquire _ _ | drop _ | leave _ => trivial

/-- The actions of one worker and its environment, without a fault. -/
def Action.Solo (w : Worker) : Action i Worker Env Start → Prop
  | .environment _ => True
  | .acquire other _ => other = w
  | .drop other => other = w
  | .leave other => other = w
  | .run other .none => other = w
  | .run _ _ => False

/-- One worker alone is serialised. -/
theorem solo_reachable {sys : System i State Env Start α}
    {allowed : World i State Worker α → Action i Worker Env Start → Prop}
    {start : World i State Worker α} (w : Worker)
    (admits : ∀ world action, action.Solo w → Serialised world action → allowed world action) :
    ∀ (actions : List (Action i Worker Env Start)) (world last : World i State Worker α),
      (∀ action ∈ actions, action.Solo w) → (∀ other, other ≠ w → world.threads other = none) →
        Reachable sys allowed start world → sys.runs world actions = some last →
          Reachable sys allowed start last := by
  intro actions
  induction actions with
  | nil =>
      intro world last _ _ before ran
      cases ran
      exact before
  | cons action rest ih =>
      intro world last solo alone before ran
      simp only [System.runs] at ran
      cases stepped : sys.step world action with
      | none => simp [stepped] at ran
      | some next =>
          simp only [stepped, Option.bind_some] at ran
          have own := solo action (by simp)
          have serialised : Serialised world action := by
            cases action with
            | environment _ | drop _ | leave _ | run _ _ => trivial
            | acquire other start =>
                intro v
                by_cases same : v = w
                · have mine : other = w := own
                  rw [same, ← mine]
                  exact (step_acquire stepped).2.1
                · exact alone v same
          have others : ∀ other, other ≠ w → next.threads other = none := by
            intro other different
            rw [Option.eq_none_iff_forall_ne_some]
            intro thread running
            rcases step_thread stepped running with ⟨start, rfl, _⟩ | ⟨thread₀, was, _⟩
            · exact different own
            · rw [alone other different] at was
              cases was
          exact ih next last (fun action member => solo action (List.mem_cons_of_mem _ member))
            others (.step action before (admits world action own serialised) stepped) ran

/-! ## Soundness -/

/-- One request keeps the weakest precondition, and a commit has had its
precondition. -/
theorem Thread.run_wp {spec : Spec i State} {post : Post i State α} {fault : Fault i}
    {thread thread' : Thread i α} {s s' : State} {commit : Option (Commit i)}
    (holds : wp spec thread.program post thread.log s)
    (loses : thread.alive = false → spec.loses)
    (calls : ∀ c next e, thread.program = .call c next → fault = .fails e ∨ fault = .unknown e →
      spec.raises c e)
    (fails : ∀ t next e, thread.program = .transact t next → fault = .fails e → spec.fails t e)
    (unknown : ∀ t next e, thread.program = .transact t next → fault = .unknown e →
      spec.unknown t e)
    (ran : thread.run spec.exec fault s = some (thread', s', commit)) :
    wp spec thread'.program post thread'.log s' ∧
      ∀ c, commit = some c → spec.pre thread.log c.transaction s ∧
        spec.exec c.transaction s = .ok (c.reply, s') := by
  unfold Thread.run at ran
  cases program : thread.program with
  | done result => simp [program] at ran
  | checkLock next =>
      simp only [program, Option.some.injEq, Prod.mk.injEq] at ran
      obtain ⟨rfl, rfl, rfl⟩ := ran
      rw [program] at holds
      refine ⟨?_, by simp⟩
      cases alive : thread.alive with
      | true => exact holds.1
      | false => exact holds.2 (loses alive)
  | call c next =>
      rw [program] at holds
      cases fault with
      | none =>
          simp only [program, Option.some.injEq, Prod.mk.injEq] at ran
          obtain ⟨rfl, rfl, rfl⟩ := ran
          exact ⟨holds.1, by simp⟩
      | fails e | unknown e =>
          simp only [program, Option.some.injEq, Prod.mk.injEq] at ran
          obtain ⟨rfl, rfl, rfl⟩ := ran
          exact ⟨holds.2 e (calls c next e program (by simp)), by simp⟩
  | transact t next =>
      rw [program] at holds
      obtain ⟨pre, commits, refuses, rolledBack⟩ := holds s (spec.rely_refl s)
      cases executed : spec.exec t s with
      | error e =>
          cases fault with
          | none | unknown e' =>
              simp only [program, executed, Option.some.injEq, Prod.mk.injEq] at ran
              obtain ⟨rfl, rfl, rfl⟩ := ran
              exact ⟨refuses e executed, by simp⟩
          | fails e' =>
              simp only [program, executed, Option.some.injEq, Prod.mk.injEq] at ran
              obtain ⟨rfl, rfl, rfl⟩ := ran
              exact ⟨rolledBack e' (fails t next e' program rfl), by simp⟩
      | ok answer =>
          obtain ⟨reply, after⟩ := answer
          obtain ⟨answered, unanswered⟩ := commits reply after executed
          cases fault with
          | fails e =>
              simp only [program, executed, Option.some.injEq, Prod.mk.injEq] at ran
              obtain ⟨rfl, rfl, rfl⟩ := ran
              exact ⟨rolledBack e (fails t next e program rfl), by simp⟩
          | none =>
              simp only [program, executed, Option.some.injEq, Prod.mk.injEq] at ran
              obtain ⟨rfl, rfl, rfl⟩ := ran
              refine ⟨answered, ?_⟩
              intro c made
              cases made
              exact ⟨pre, executed⟩
          | unknown e =>
              simp only [program, executed, Option.some.injEq, Prod.mk.injEq] at ran
              obtain ⟨rfl, rfl, rfl⟩ := ran
              refine ⟨unanswered e (unknown t next e program rfl), ?_⟩
              intro c made
              cases made
              exact ⟨pre, executed⟩

/-- What a specification has to show about a system. -/
structure Guarantees (sys : System i State Env Start α) (spec : Spec i State)
    (invariant : State → Prop) (post : Post i State α) : Prop where
  exec : spec.exec = sys.exec
  loses : spec.loses
  environment : ∀ e s s', invariant s → sys.environment e s = some s' →
    invariant s' ∧ spec.rely s s'
  transaction : ∀ log t reply s s', invariant s → spec.pre log t s →
    spec.exec t s = .ok (reply, s') → invariant s'
  starts : ∀ start s, invariant s → wp spec (sys.program start) post [] s

/-- The invariant, and the weakest precondition of every program that `tracked`
selects by the worker that got the lock last. -/
def Tracks (spec : Spec i State) (invariant : State → Prop) (post : Post i State α)
    (tracked : Option Worker → Worker → Prop) (world : World i State Worker α) : Prop :=
  invariant world.shared ∧ ∀ w thread, world.threads w = some thread →
    tracked world.current w → wp spec thread.program post thread.log world.shared

omit [DecidableEq Worker] in
theorem permits_run {spec : Spec i State} {world : World i State Worker α} {w : Worker}
    {fault : Fault i} {thread : Thread i α} (running : world.threads w = some thread)
    (permits : Permits spec world (.run w fault : Action i Worker Env Start)) :
    (∀ c next e, thread.program = .call c next → fault = .fails e ∨ fault = .unknown e →
        spec.raises c e) ∧
      (∀ t next e, thread.program = .transact t next → fault = .fails e → spec.fails t e) ∧
      ∀ t next e, thread.program = .transact t next → fault = .unknown e → spec.unknown t e := by
  cases fault with
  | none => simp
  | fails e =>
      have permitted := permits thread running
      refine ⟨?_, ?_, by simp⟩
      · rintro c next _ program (same | same)
        · cases same
          rw [program] at permitted
          exact permitted
        · cases same
      · intro t next _ program same
        cases same
        rw [program] at permitted
        exact permitted
  | unknown e =>
      have permitted := permits thread running
      refine ⟨?_, by simp, ?_⟩
      · rintro c next _ program (same | same)
        · cases same
        · cases same
          rw [program] at permitted
          exact permitted
      · intro t next _ program same
        cases same
        rw [program] at permitted
        exact permitted

omit [DecidableEq Worker] in
/-- A specification that counts with any fault. -/
theorem permits_any {spec : Spec i State} (raises : ∀ c e, spec.raises c e)
    (fails : ∀ t e, spec.fails t e) (unknown : ∀ t e, spec.unknown t e)
    (world : World i State Worker α) (action : Action i Worker Env Start) :
    Permits spec world action := by
  cases action with
  | environment _ | acquire _ _ | drop _ | leave _ => trivial
  | run w fault =>
      cases fault with
      | none => trivial
      | fails e =>
          intro thread _
          cases thread.program with
          | done _ | checkLock _ => trivial
          | call c _ => exact raises c e
          | transact t _ => exact fails t e
      | unknown e =>
          intro thread _
          cases thread.program with
          | done _ | checkLock _ => trivial
          | call c _ => exact raises c e
          | transact t _ => exact unknown t e

omit [DecidableEq Worker] in
/-- A request of a tracked program. -/
theorem Tracks.request {sys : System i State Env Start α} {spec : Spec i State}
    {invariant : State → Prop} {post : Post i State α}
    {tracked : Option Worker → Worker → Prop} (guarantees : Guarantees sys spec invariant post)
    {world : World i State Worker α} (tracks : Tracks spec invariant post tracked world)
    {w : Worker} {fault : Fault i}
    (permits : Permits spec world (.run w fault : Action i Worker Env Start))
    {thread thread' : Thread i α} {s : State} {commit : Option (Commit i)}
    (running : world.threads w = some thread) (follows : tracked world.current w)
    (ran : thread.run sys.exec fault world.shared = some (thread', s, commit)) :
    wp spec thread'.program post thread'.log s ∧
      ∀ c, commit = some c → spec.pre thread.log c.transaction world.shared ∧
        spec.exec c.transaction world.shared = .ok (c.reply, s) := by
  obtain ⟨calls, fails, unknown⟩ := permits_run running permits
  rw [← guarantees.exec] at ran
  exact Thread.run_wp (tracks.2 w thread running follows) (fun _ => guarantees.loses) calls fails
    unknown ran

theorem Tracks.step {sys : System i State Env Start α} {spec : Spec i State}
    {invariant : State → Prop} {post : Post i State α}
    {tracked : Option Worker → Worker → Prop}
    (guarantees : Guarantees sys spec invariant post)
    (fresh : ∀ current w other, other ≠ w → tracked (some w) other → tracked current other)
    (apart : ∀ current w other, w ≠ other → tracked current w → tracked current other →
      ∀ t reply s s', spec.exec t s = .ok (reply, s') → spec.rely s s')
    {world next : World i State Worker α} {action : Action i Worker Env Start}
    (commits : ∀ w fault thread thread' s commit, action = .run w fault →
      world.threads w = some thread →
      thread.run sys.exec fault world.shared = some (thread', s, some commit) →
        tracked world.current w)
    (permits : Permits spec world action) (tracks : Tracks spec invariant post tracked world)
    (stepped : sys.step world action = some next) :
    Tracks spec invariant post tracked next := by
  obtain ⟨holds, threads⟩ := id tracks
  refine ⟨?_, ?_⟩
  · rcases step_shared stepped with ⟨same, _⟩ | ⟨e, _, happened, _⟩ |
      ⟨w, fault, before, after, t, reply, rfl, was, ran, _, _⟩
    · rw [same]
      exact holds
    · exact (guarantees.environment e _ _ holds happened).1
    · have mine := commits w fault before after _ _ rfl was ran
      obtain ⟨pre, executed⟩ := (tracks.request guarantees permits was mine ran).2 _ rfl
      exact guarantees.transaction _ t reply _ _ holds pre executed
  · intro w thread running follows
    rcases step_thread stepped running with ⟨start, rfl, rfl⟩ | ⟨before, was, kept⟩
    · obtain ⟨_, _, rfl⟩ := step_acquire stepped
      exact guarantees.starts start _ holds
    · have followed : tracked world.current w := by
        rcases step_current stepped with ⟨same, _⟩ | ⟨other, start, rfl, current, _⟩
        · exact same ▸ follows
        · refine fresh _ other w ?_ (current ▸ follows)
          rintro rfl
          rw [(step_acquire stepped).2.1] at was
          cases was
      rcases kept with ⟨different, rfl⟩ | ⟨rfl, rfl⟩ | ⟨fault, commit, rfl, ran⟩
      · refine wp_stable spec _ _ _ _ _ ?_ (threads w thread was followed)
        rcases step_shared stepped with ⟨same, _⟩ | ⟨e, _, happened, _⟩ |
          ⟨other, fault, before, after, t, reply, isRun, was, ran, executed, _⟩
        · rw [same]
          exact spec.rely_refl _
        · exact (guarantees.environment e _ _ holds happened).2
        · have mine := commits other fault before after _ _ isRun was ran
          refine apart _ other w ?_ mine followed t reply _ _ (guarantees.exec ▸ executed)
          rintro rfl
          exact different (isRun ▸ rfl)
      · obtain ⟨_, _, rfl⟩ := step_drop stepped
        exact threads w before was followed
      · exact (tracks.request guarantees permits was followed ran).1

/-- Where only the worker that got the lock last commits, its program may count
on the environment alone. -/
theorem exclusive_sound {sys : System i State Env Start α} {spec : Spec i State}
    {invariant : State → Prop} {post : Post i State α}
    (guarantees : Guarantees sys spec invariant post) {start world : World i State Worker α}
    (idle : start.Idle) (initial : invariant start.shared)
    (reachable : Reachable sys
      (fun world action => Exclusive sys world action ∧ Permits spec world action) start world) :
    Tracks spec invariant post (fun current w => current = some w) world := by
  induction reachable with
  | start =>
      refine ⟨initial, ?_⟩
      intro w thread running
      rw [idle.1 w] at running
      cases running
  | step action before admitted stepped ih =>
      refine Tracks.step guarantees ?_ ?_ ?_ admitted.2 ih stepped
      · intro current w other different same
        exact absurd (Option.some.inj same).symm different
      · intro current w other different same also
        exact absurd (Option.some.inj (same.symm.trans also)) different
      · intro w fault thread thread' s commit isRun running ran
        subst isRun
        exact admitted.1 thread thread' s commit running ran

/-- Programs that count on nothing but what every transaction keeps, in any
interleaving. -/
theorem interleaved_sound {sys : System i State Env Start α} {spec : Spec i State}
    {invariant : State → Prop} {post : Post i State α}
    (guarantees : Guarantees sys spec invariant post)
    (steady : ∀ t reply s s', spec.exec t s = .ok (reply, s') → spec.rely s s')
    {start world : World i State Worker α} (idle : start.Idle)
    (initial : invariant start.shared)
    (reachable : Reachable sys (fun world action => Permits spec world action) start world) :
    Tracks spec invariant post (fun _ _ => True) world := by
  induction reachable with
  | start =>
      refine ⟨initial, ?_⟩
      intro w thread running
      rw [idle.1 w] at running
      cases running
  | step action before admitted stepped ih =>
      refine Tracks.step guarantees ?_ ?_ ?_ admitted ih stepped
      · intro _ _ _ _ _; trivial
      · intro _ _ _ _ _ _; exact steady
      · intro _ _ _ _ _ _ _ _ _; trivial

/-- What a step of an exclusive run does to the store. -/
theorem exclusive_step {sys : System i State Env Start α} {spec : Spec i State}
    {invariant : State → Prop} {post : Post i State α}
    (guarantees : Guarantees sys spec invariant post) {world next : World i State Worker α}
    {action : Action i Worker Env Start}
    (tracks : Tracks spec invariant post (fun current w => current = some w) world)
    (exclusive : Exclusive sys world action) (permits : Permits spec world action)
    (stepped : sys.step world action = some next) :
    next.shared = world.shared ∨
      (∃ e, sys.environment e world.shared = some next.shared) ∨
      ∃ w thread t reply, world.threads w = some thread ∧ world.current = some w ∧
        spec.pre thread.log t world.shared ∧
        spec.exec t world.shared = .ok (reply, next.shared) ∧
        next.history = world.history ++ [(thread.attempt, ⟨t, reply⟩)] := by
  rcases step_shared stepped with ⟨same, _⟩ | ⟨e, _, happened, _⟩ |
    ⟨w, fault, thread, after, t, reply, rfl, was, ran, _, grown⟩
  · exact Or.inl same
  · exact Or.inr (Or.inl ⟨e, happened⟩)
  · have mine := exclusive thread after _ _ was ran
    obtain ⟨pre, executed⟩ := (tracks.request guarantees permits was mine ran).2 _ rfl
    exact Or.inr (Or.inr ⟨w, thread, t, reply, was, mine, pre, executed, grown⟩)

/-! ## The order of commits -/

/-- In an exclusive run the attempts commit one after the other. -/
theorem exclusive_ordered {sys : System i State Env Start α}
    {allowed : World i State Worker α → Action i Worker Env Start → Prop}
    (exclusive : ∀ world action, allowed world action → Exclusive sys world action)
    {start world : World i State Worker α} (idle : start.Idle)
    (reachable : Reachable sys allowed start world) :
    (world.history.map Prod.fst).Pairwise (· ≤ ·) ∧
      (∀ entry ∈ world.history, entry.1 < world.attempts) ∧
      ∀ w thread, world.threads w = some thread → world.current = some w →
        thread.attempt + 1 = world.attempts := by
  induction reachable with
  | start =>
      refine ⟨by simp [idle.2.2], by simp [idle.2.2], ?_⟩
      intro w thread running
      rw [idle.1 w] at running
      cases running
  | @step world next action before admitted stepped ih =>
      obtain ⟨ordered, below, latest⟩ := ih
      have grows : world.attempts ≤ next.attempts := by
        rcases step_current stepped with ⟨_, same⟩ | ⟨_, _, _, _, more⟩ <;> omega
      have last : ∀ w thread, next.threads w = some thread → next.current = some w →
          thread.attempt + 1 = next.attempts := by
        intro w thread running current
        rcases step_thread stepped running with ⟨start, rfl, rfl⟩ | ⟨thread₀, was, kept⟩
        · obtain ⟨_, _, rfl⟩ := step_acquire stepped
          rfl
        · have attempt : thread.attempt = thread₀.attempt := by
            rcases kept with ⟨_, rfl⟩ | ⟨_, rfl⟩ | ⟨_, _, _, ran⟩
            · rfl
            · rfl
            · exact (Thread.run_cases ran).1
          rcases step_current stepped with ⟨same, attempts⟩ | ⟨other, start, rfl, taken, _⟩
          · rw [attempt, attempts]
            exact latest w thread₀ was (same ▸ current)
          · cases taken.symm.trans current
            rw [(step_acquire stepped).2.1] at was
            cases was
      have unchanged : next.history = world.history →
          (next.history.map Prod.fst).Pairwise (· ≤ ·) ∧
            ∀ entry ∈ next.history, entry.1 < next.attempts := by
        intro same
        rw [same]
        exact ⟨ordered, fun entry member => Nat.lt_of_lt_of_le (below entry member) grows⟩
      rcases step_shared stepped with ⟨_, same⟩ | ⟨_, _, _, same⟩ |
        ⟨w, fault, thread, after, t, reply, rfl, was, ran, _, grown⟩
      · exact ⟨(unchanged same).1, (unchanged same).2, last⟩
      · exact ⟨(unchanged same).1, (unchanged same).2, last⟩
      · -- the attempt that commits is the latest one
        have mine := latest w thread was (exclusive _ _ admitted thread after _ _ was ran)
        refine ⟨?_, ?_, last⟩
        · rw [grown, List.map_append, List.pairwise_append]
          refine ⟨ordered, by simp, ?_⟩
          intro earlier member later added
          obtain ⟨entry, inHistory, rfl⟩ := List.mem_map.mp member
          have := below entry inHistory
          simp only [List.map_cons, List.map_nil, List.mem_singleton] at added
          omega
        · intro entry member
          rw [grown, List.mem_append, List.mem_singleton] at member
          rcases member with inHistory | rfl
          · exact Nat.lt_of_lt_of_le (below entry inHistory) grows
          · dsimp only
            omega

/-! ## Runs without some commits -/

/-- The system in which a transaction that is not admitted raises instead. -/
def System.refusing (sys : System i State Env Start α) (admits : i.Transaction → State → Bool)
    (refusal : i.Exception) : System i State Env Start α where
  exec t s :=
    match sys.exec t s with
    | .error e => .error e
    | .ok answer => if admits t s then .ok answer else .error refusal
  environment := sys.environment
  program := sys.program

/-- Every commit is admitted. -/
def Admitted (sys : System i State Env Start α) (admits : i.Transaction → State → Bool)
    (world : World i State Worker α) : Action i Worker Env Start → Prop
  | .run w fault => ∀ thread thread' s commit, world.threads w = some thread →
      thread.run sys.exec fault world.shared = some (thread', s, some commit) →
        admits commit.transaction world.shared = true
  | _ => True

omit [DecidableEq Worker] in
theorem admitted_of_commitOf {sys : System i State Env Start α}
    {admits : i.Transaction → State → Bool} {world : World i State Worker α}
    {action : Action i Worker Env Start}
    (passes : ∀ t ∈ sys.commitOf world action, admits t world.shared = true) :
    Admitted sys admits world action := by
  cases action with
  | environment _ | acquire _ _ | drop _ | leave _ => trivial
  | run w fault =>
      intro thread thread' s commit running ran
      exact passes commit.transaction (commitOf_run running ran)

omit [DecidableEq Worker] in
theorem refusing_ok {sys : System i State Env Start α} {admits : i.Transaction → State → Bool}
    {refusal : i.Exception} {t : i.Transaction} {s : State} {answer : i.Reply t × State}
    (executed : (sys.refusing admits refusal).exec t s = .ok answer) :
    sys.exec t s = .ok answer ∧ admits t s = true := by
  simp only [System.refusing] at executed
  split at executed
  · cases executed
  · next before =>
      split at executed
      · next admitted =>
          cases executed
          exact ⟨before, admitted⟩
      · cases executed

omit [DecidableEq Worker] in
theorem refusing_admitted {sys : System i State Env Start α}
    {admits : i.Transaction → State → Bool} {refusal : i.Exception} {t : i.Transaction} {s : State}
    (admitted : admits t s = true) :
    (sys.refusing admits refusal).exec t s = sys.exec t s := by
  simp only [System.refusing, admitted, if_true]
  cases sys.exec t s <;> rfl

omit [DecidableEq Worker] in
theorem Thread.run_commit
    {exec : (t : i.Transaction) → State → Except i.Exception (i.Reply t × State)}
    {fault : Fault i} {thread : Thread i α} {s : State} {t : i.Transaction}
    {next : Except i.Exception (i.Reply t) → Program i α} {answer : i.Reply t × State}
    (program : thread.program = .transact t next) (executed : exec t s = .ok answer)
    (commits : ∀ e, fault ≠ .fails e) :
    ∃ thread', thread.run exec fault s = some (thread', answer.2, some ⟨t, answer.1⟩) := by
  cases fault with
  | none | unknown e => simp [Thread.run, program, executed]
  | fails e => exact absurd rfl (commits e)

theorem step_refusing {sys : System i State Env Start α} {admits : i.Transaction → State → Bool}
    {refusal : i.Exception} {world next : World i State Worker α}
    {action : Action i Worker Env Start} (admitted : Admitted sys admits world action)
    (stepped : sys.step world action = some next) :
    (sys.refusing admits refusal).step world action = some next := by
  cases action with
  | environment _ | acquire _ _ | drop _ | leave _ => exact stepped
  | run w fault =>
      simp only [System.step] at stepped ⊢
      cases running : world.threads w with
      | none => simp [running] at stepped
      | some thread =>
          simp only [running] at stepped ⊢
          have same : thread.run (sys.refusing admits refusal).exec fault world.shared =
              thread.run sys.exec fault world.shared := by
            cases program : thread.program with
            | done _ | checkLock _ | call _ _ => simp [Thread.run, program]
            | transact t tail =>
                cases executed : sys.exec t world.shared with
                | error e => simp [Thread.run, program, System.refusing, executed]
                | ok answer =>
                    by_cases rolledBack : ∃ e, fault = .fails e
                    · obtain ⟨e, rfl⟩ := rolledBack
                      cases isAdmitted : admits t world.shared <;>
                        simp [Thread.run, program, System.refusing, executed, isAdmitted]
                    · obtain ⟨thread', ran⟩ :=
                        Thread.run_commit program executed fun e same => rolledBack ⟨e, same⟩
                      have isAdmitted := admitted thread thread' _ _ running ran
                      simp [Thread.run, program, System.refusing, executed, isAdmitted]
          rw [same]
          exact stepped

/-- Runs of admitted commits are runs of the system that refuses the others. -/
theorem reachable_refusing {sys : System i State Env Start α}
    {admits : i.Transaction → State → Bool} {refusal : i.Exception}
    {allowed : World i State Worker α → Action i Worker Env Start → Prop}
    {start world : World i State Worker α}
    (reachable : Reachable sys
      (fun world action => allowed world action ∧ Admitted sys admits world action) start world) :
    Reachable (sys.refusing admits refusal) allowed start world := by
  induction reachable with
  | start => exact .start
  | step action _ admitted stepped ih =>
      exact .step action ih admitted.1 (step_refusing admitted.2 stepped)

end Soundness

end Transactional

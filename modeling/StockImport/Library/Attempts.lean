import StockImport.Library.Soundness

/-!
# Attempts

An attempt is one start of a program behind the lock.  The history tells the
commits of one attempt from those of another, and the log of a running program is
what its attempt has committed so far.
-/

set_option autoImplicit false

namespace Transactional

section Attempts

variable {i : Interface} {State Worker Env Start α : Type} [DecidableEq Worker]
  {sys : System i State Env Start α}
  {allowed : World i State Worker α → Action i Worker Env Start → Prop}

theorem Reachable.trans {start world later : World i State Worker α}
    (first : Reachable sys allowed start world) (second : Reachable sys allowed world later) :
    Reachable sys allowed start later := by
  induction second with
  | start => exact first
  | step action _ admitted stepped ih => exact .step action ih admitted stepped

theorem System.runs_append {world middle last : World i State Worker α}
    {first second : List (Action i Worker Env Start)} (begun : sys.runs world first = some middle)
    (ended : sys.runs middle second = some last) : sys.runs world (first ++ second) = some last := by
  induction first generalizing world with
  | nil =>
      cases begun
      exact ended
  | cons action rest ih =>
      simp only [System.runs, Option.bind_eq_some_iff] at begun
      obtain ⟨next, stepped, begun⟩ := begun
      simp only [List.cons_append, System.runs, stepped, Option.bind_some]
      exact ih begun

/-! ## The log of an attempt -/

/-- What an attempt has committed. -/
def commitsOf (history : List (Nat × Commit i)) (attempt : Nat) : List (Commit i) :=
  (history.filter fun entry => entry.1 = attempt).map Prod.snd

theorem mem_commitsOf {history : List (Nat × Commit i)} {attempt : Nat} {commit : Commit i} :
    commit ∈ commitsOf history attempt ↔ (attempt, commit) ∈ history := by
  simp [commitsOf, and_comm]

@[simp] theorem commitsOf_append (history more : List (Nat × Commit i)) (attempt : Nat) :
    commitsOf (history ++ more) attempt = commitsOf history attempt ++ commitsOf more attempt := by
  simp [commitsOf]

@[simp] theorem commitsOf_own (attempt : Nat) (commit : Commit i) :
    commitsOf [(attempt, commit)] attempt = [commit] := by
  simp [commitsOf]

theorem commitsOf_other {attempt other : Nat} (different : other ≠ attempt) (commit : Commit i) :
    commitsOf [(other, commit)] attempt = [] := by
  simp [commitsOf, different]

/-- The attempts of a world, each with its log. -/
structure Logged (world : World i State Worker α) : Prop where
  below : ∀ entry ∈ world.history, entry.1 < world.attempts
  started : ∀ w thread, world.threads w = some thread → thread.attempt < world.attempts
  logs : ∀ w thread, world.threads w = some thread →
    thread.log = commitsOf world.history thread.attempt
  apart : ∀ w w' thread thread', world.threads w = some thread →
    world.threads w' = some thread' → thread.attempt = thread'.attempt → w = w'

omit [DecidableEq Worker] in
theorem Logged.idle {world : World i State Worker α} (idle : world.Idle) : Logged world where
  below entry member := by
    rw [idle.2.2] at member
    cases member
  started w thread running := by
    rw [idle.1 w] at running
    cases running
  logs w thread running := by
    rw [idle.1 w] at running
    cases running
  apart w _ thread _ running := by
    rw [idle.1 w] at running
    cases running

omit [DecidableEq Worker] in
/-- Nothing of an attempt that has not started. -/
theorem Logged.fresh {world : World i State Worker α} (logged : Logged world) :
    commitsOf world.history world.attempts = [] := by
  rw [commitsOf, List.map_eq_nil_iff, List.filter_eq_nil_iff]
  intro entry member
  have := logged.below entry member
  simp only [decide_eq_true_eq]
  omega

omit [DecidableEq Worker] in
/-- Each thread still stands for an attempt it stood for before. -/
theorem Logged.inherits {world next : World i State Worker α} (logged : Logged world)
    (history : next.history = world.history) (attempts : next.attempts = world.attempts)
    (before : ∀ w thread, next.threads w = some thread → ∃ old, world.threads w = some old ∧
      thread.attempt = old.attempt ∧ thread.log = old.log) : Logged next where
  below entry member := by
    rw [attempts]
    exact logged.below entry (history ▸ member)
  started w thread running := by
    obtain ⟨old, was, attempt, _⟩ := before w thread running
    rw [attempts, attempt]
    exact logged.started w old was
  logs w thread running := by
    obtain ⟨old, was, attempt, log⟩ := before w thread running
    rw [history, attempt, log]
    exact logged.logs w old was
  apart w w' thread thread' running running' same := by
    obtain ⟨old, was, attempt, _⟩ := before w thread running
    obtain ⟨old', was', attempt', _⟩ := before w' thread' running'
    exact logged.apart w w' old old' was was' (attempt ▸ attempt' ▸ same)

theorem Logged.acquire {world next : World i State Worker α} {w : Worker} {start : Start}
    (logged : Logged world) (stepped : sys.step world (.acquire w start) = some next) :
    Logged next := by
  obtain ⟨_, _, rfl⟩ := step_acquire stepped
  refine ⟨?_, ?_, ?_, ?_⟩
  · intro entry member
    exact Nat.lt_succ_of_lt (logged.below entry member)
  · intro other thread running
    rcases update_eq_some running with ⟨_, rfl⟩ | ⟨_, was⟩
    · exact Nat.lt_succ_self _
    · exact Nat.lt_succ_of_lt (logged.started other thread was)
  · intro other thread running
    rcases update_eq_some running with ⟨_, rfl⟩ | ⟨_, was⟩
    · exact logged.fresh.symm
    · exact logged.logs other thread was
  · intro other other' thread thread' running running' same
    rcases update_eq_some running with ⟨rfl, rfl⟩ | ⟨_, was⟩
    · rcases update_eq_some running' with ⟨rfl, _⟩ | ⟨_, was'⟩
      · rfl
      · exact absurd same (Nat.ne_of_gt (logged.started other' thread' was'))
    · rcases update_eq_some running' with ⟨rfl, rfl⟩ | ⟨_, was'⟩
      · exact absurd same (Nat.ne_of_lt (logged.started other thread was))
      · exact logged.apart other other' thread thread' was was' same

theorem Logged.run {world next : World i State Worker α} {w : Worker} {fault : Fault i}
    (logged : Logged world) (stepped : sys.step world (.run w fault) = some next) :
    Logged next := by
  obtain ⟨old, new, s, commit, was, ran, rfl⟩ := step_run stepped
  obtain ⟨attempt, _, answered⟩ := Thread.run_cases ran
  have before : ∀ other thread, Function.update world.threads w (some new) other = some thread →
      ∃ old, world.threads other = some old ∧ thread.attempt = old.attempt := by
    intro other thread running
    rcases update_eq_some running with ⟨rfl, rfl⟩ | ⟨_, same⟩
    · exact ⟨old, was, attempt⟩
    · exact ⟨thread, same, rfl⟩
  refine ⟨?_, ?_, ?_, ?_⟩
  · intro entry member
    rcases List.mem_append.mp member with earlier | added
    · exact logged.below entry earlier
    · simp only [Option.mem_toList, Option.map_eq_some_iff] at added
      obtain ⟨_, _, rfl⟩ := added
      exact logged.started w old was
  · intro other thread running
    obtain ⟨old, was, attempt⟩ := before other thread running
    rw [attempt]
    exact logged.started other old was
  · intro other thread running
    rcases update_eq_some running with ⟨rfl, rfl⟩ | ⟨different, same⟩
    · rcases answered with ⟨_, rfl, log⟩ | ⟨t, reply, _, _, _, rfl, log⟩
      · simpa [attempt, log] using logged.logs w old was
      · simp [attempt, log, logged.logs w old was]
    · -- another program's attempt has another number
      have others : old.attempt ≠ thread.attempt :=
        fun equal => different (logged.apart w other old thread was same equal)
      rw [logged.logs other thread same]
      cases commit with
      | none => simp
      | some commit => simp [commitsOf_other others]
  · intro other other' thread thread' running running' same
    obtain ⟨old, was, attempt⟩ := before other thread running
    obtain ⟨old', was', attempt'⟩ := before other' thread' running'
    exact logged.apart other other' old old' was was' (attempt ▸ attempt' ▸ same)

theorem Logged.step {world next : World i State Worker α} {action : Action i Worker Env Start}
    (logged : Logged world) (stepped : sys.step world action = some next) : Logged next := by
  cases action with
  | environment e =>
      obtain ⟨_, _, rfl⟩ := step_environment stepped
      exact logged.inherits rfl rfl fun _ thread running => ⟨thread, running, rfl, rfl⟩
  | acquire w start => exact logged.acquire stepped
  | drop w =>
      obtain ⟨dropped, owned, rfl⟩ := step_drop stepped
      refine logged.inherits rfl rfl fun other thread running => ?_
      rcases update_eq_some running with ⟨rfl, rfl⟩ | ⟨_, was⟩
      · exact ⟨dropped, owned, rfl, rfl⟩
      · exact ⟨thread, was, rfl, rfl⟩
  | leave w =>
      rw [step_leave stepped]
      exact logged.inherits rfl rfl fun _ thread running =>
        ⟨thread, (update_none_eq_some running).2, rfl, rfl⟩
  | run w fault => exact logged.run stepped

theorem reachable_logged {start world : World i State Worker α} (logged : Logged start)
    (reachable : Reachable sys allowed start world) : Logged world := by
  induction reachable with
  | start => exact logged
  | step _ _ _ stepped ih => exact ih.step stepped

/-- The history only grows. -/
theorem reachable_history {world later : World i State Worker α}
    (reachable : Reachable sys allowed world later) : world.history <+: later.history := by
  induction reachable with
  | start => exact List.prefix_rfl
  | step _ _ _ stepped ih =>
      rcases step_shared stepped with ⟨_, same⟩ | ⟨_, _, _, same⟩ |
        ⟨_, _, _, _, _, _, _, _, _, _, grown⟩
      · exact same ▸ ih
      · exact same ▸ ih
      · rw [grown]
        exact ih.trans (List.prefix_append _ _)

/-- What an attempt has committed stays at the front of its log. -/
theorem commitsOf_prefix {history later : List (Nat × Commit i)} (grown : history <+: later)
    (attempt : Nat) : commitsOf history attempt <+: commitsOf later attempt := by
  obtain ⟨more, rfl⟩ := grown
  rw [commitsOf_append]
  exact List.prefix_append _ _

/-! ## One attempt after the other -/

/-- An attempt ends with its program, the next one starts only then, no connection
drops, and the environment is quiet. -/
def Undisturbed (spec : Spec i State) (quiet : Env → Prop) (world : World i State Worker α) :
    Action i Worker Env Start → Prop
  | .environment e => quiet e
  | .acquire _ _ => ∀ w, world.threads w = none
  | .drop _ => False
  | .leave w => ∀ thread, world.threads w = some thread → ∃ result, thread.program = .done result
  | .run w fault => Permits spec world (.run w fault : Action i Worker Env Start)

/-- What each attempt in turn has to show: from what the attempts before it have
reached, it ends in `post` for its own number. -/
structure Advances (sys : System i State Env Start α) (spec : Spec i State) (quiet : Env → Prop)
    (progress : Nat → State → Prop) (post : Nat → Post i State α) : Prop where
  exec : spec.exec = sys.exec
  environment : ∀ e s s', quiet e → sys.environment e s = some s' → spec.rely s s'
  stable : ∀ n, Stable spec (progress n)
  starts : ∀ n start s, progress n s → wp spec (sys.program start) (post (n + 1)) [] s
  ends : ∀ n result log s, post n result log s → progress n s

/-- What the attempts so far have reached, and the one at work. -/
structure Advanced (spec : Spec i State) (progress : Nat → State → Prop)
    (post : Nat → Post i State α) (world : World i State Worker α) : Prop where
  resting : (∀ w, world.threads w = none) → progress world.attempts world.shared
  alive : ∀ w thread, world.threads w = some thread → thread.alive = true
  working : ∀ w thread, world.threads w = some thread →
    wp spec thread.program (post world.attempts) thread.log world.shared

/-- The attempt that ends has shown its share. -/
theorem Advanced.leave {spec : Spec i State} {quiet : Env → Prop} {progress : Nat → State → Prop}
    {post : Nat → Post i State α} (advances : Advances sys spec quiet progress post)
    {world next : World i State Worker α} {w : Worker}
    (advanced : Advanced spec progress post world)
    (ended : ∀ thread, world.threads w = some thread → ∃ result, thread.program = .done result)
    (stepped : sys.step world (.leave w) = some next) : Advanced spec progress post next := by
  cases running : world.threads w with
  | none => simp [System.step, running] at stepped
  | some thread =>
      obtain ⟨result, program⟩ := ended thread running
      have holds := advanced.working w thread running
      rw [program] at holds
      have reached := advances.ends _ _ _ _ (holds world.shared (spec.rely_refl _))
      rw [step_leave stepped]
      refine ⟨fun _ => reached, ?_, ?_⟩
      · intro other thread running
        exact advanced.alive other thread (update_none_eq_some running).2
      · intro other thread running
        exact advanced.working other thread (update_none_eq_some running).2

theorem Advanced.run {spec : Spec i State} {quiet : Env → Prop} {progress : Nat → State → Prop}
    {post : Nat → Post i State α} (advances : Advances sys spec quiet progress post)
    {world next : World i State Worker α} {w : Worker} {fault : Fault i}
    (alone : ∀ w thread, world.threads w = some thread → world.current = some w)
    (advanced : Advanced spec progress post world)
    (permits : Permits spec world (.run w fault : Action i Worker Env Start))
    (stepped : sys.step world (.run w fault) = some next) : Advanced spec progress post next := by
  obtain ⟨before, after, s, commit, was, ran, rfl⟩ := step_run stepped
  have living := advanced.alive w before was
  have kept := (Thread.run_cases ran).2.1
  refine ⟨?_, ?_, ?_⟩
  · intro idle
    have started := idle w
    simp at started
  · intro other thread running
    rcases update_eq_some running with ⟨rfl, rfl⟩ | ⟨_, same⟩
    · exact kept.trans living
    · exact advanced.alive other thread same
  · intro other thread running
    rcases update_eq_some running with ⟨rfl, rfl⟩ | ⟨different, same⟩
    · obtain ⟨calls, fails, unknown⟩ := permits_run was permits
      rw [← advances.exec] at ran
      exact (Thread.run_wp (advanced.working w before was)
        (fun dropped => by simp [living] at dropped) calls fails unknown ran).1
    · exact absurd (Option.some.inj ((alone w before was).symm.trans (alone other thread same)))
        different

theorem Advanced.step {spec : Spec i State} {quiet : Env → Prop} {progress : Nat → State → Prop}
    {post : Nat → Post i State α} (advances : Advances sys spec quiet progress post)
    {world next : World i State Worker α} {action : Action i Worker Env Start}
    (alone : ∀ w thread, world.threads w = some thread → world.current = some w)
    (advanced : Advanced spec progress post world) (undisturbed : Undisturbed spec quiet world action)
    (stepped : sys.step world action = some next) : Advanced spec progress post next := by
  cases action with
  | environment e =>
      obtain ⟨s, happened, rfl⟩ := step_environment stepped
      have others := advances.environment e _ _ undisturbed happened
      exact ⟨fun idle => advances.stable _ _ _ others (advanced.resting idle), advanced.alive,
        fun w thread running => wp_stable spec _ _ _ _ _ others (advanced.working w thread running)⟩
  | acquire w start =>
      obtain ⟨_, _, rfl⟩ := step_acquire stepped
      refine ⟨?_, ?_, ?_⟩
      · intro idle
        have started := idle w
        simp at started
      · intro other thread running
        rcases update_eq_some running with ⟨_, rfl⟩ | ⟨_, was⟩
        · rfl
        · exact advanced.alive other thread was
      · intro other thread running
        rcases update_eq_some running with ⟨_, rfl⟩ | ⟨_, was⟩
        · exact advances.starts _ start _ (advanced.resting undisturbed)
        · cases (undisturbed other).symm.trans was
  | drop w => exact undisturbed.elim
  | leave w => exact advanced.leave advances undisturbed stepped
  | run w fault => exact advanced.run advances alone undisturbed stepped

omit [DecidableEq Worker] in
theorem undisturbed_serialised {spec : Spec i State} {quiet : Env → Prop}
    {world : World i State Worker α} {action : Action i Worker Env Start}
    (undisturbed : Undisturbed spec quiet world action) : Serialised world action := by
  cases action with
  | acquire w start => exact undisturbed
  | environment _ | drop _ | leave _ | run _ _ => trivial

/-- Every attempt of an undisturbed run adds its share. -/
theorem undisturbed_advanced {spec : Spec i State} {quiet : Env → Prop}
    {progress : Nat → State → Prop} {post : Nat → Post i State α}
    (advances : Advances sys spec quiet progress post) {start world : World i State Worker α}
    (idle : start.Idle) (initial : progress start.attempts start.shared)
    (run : Reachable sys (Undisturbed spec quiet) start world) :
    Advanced spec progress post world := by
  induction run with
  | start =>
      refine ⟨fun _ => initial, ?_, ?_⟩
      · intro w thread running
        cases (idle.1 w).symm.trans running
      · intro w thread running
        cases (idle.1 w).symm.trans running
  | step action before admitted stepped ih =>
      exact ih.step advances
        (serialised_current (fun _ _ => undisturbed_serialised) idle before) admitted stepped

omit [DecidableEq Worker] in
/-- Where every program has ended, the attempts have made their progress. -/
theorem Advanced.ended {spec : Spec i State} {quiet : Env → Prop} {progress : Nat → State → Prop}
    {post : Nat → Post i State α} (advances : Advances sys spec quiet progress post)
    {world : World i State Worker α} (advanced : Advanced spec progress post world)
    (finished : ∀ w thread, world.threads w = some thread →
      ∃ result, thread.program = .done result) : progress world.attempts world.shared := by
  by_cases resting : ∀ w, world.threads w = none
  · exact advanced.resting resting
  · simp only [not_forall] at resting
    obtain ⟨w, running⟩ := resting
    obtain ⟨thread, running⟩ := Option.ne_none_iff_exists'.mp running
    obtain ⟨result, program⟩ := finished w thread running
    have holds := advanced.working w thread running
    rw [program] at holds
    exact advances.ends _ _ _ _ (holds world.shared (spec.rely_refl _))

/-- The program of `w` can be run to its end with nothing in between. -/
def Finishes (sys : System i State Env Start α) (spec : Spec i State) (quiet : Env → Prop)
    (w : Worker) (world : World i State Worker α) : Prop :=
  ∃ later thread result, Reachable sys (Undisturbed spec quiet) world later ∧
    later.threads = Function.update world.threads w (some thread) ∧
    thread.program = .done result ∧ later.attempts = world.attempts ∧ later.owner = world.owner

theorem Finishes.step {spec : Spec i State} {quiet : Env → Prop} {w : Worker}
    {world : World i State Worker α} {thread thread' : Thread i α} {s : State}
    {commit : Option (Commit i)} (running : world.threads w = some thread)
    (ran : thread.run sys.exec .none world.shared = some (thread', s, commit))
    (rest : ∀ world : World i State Worker α, world.threads w = some thread' →
      Finishes sys spec quiet w world) : Finishes sys spec quiet w world := by
  let next : World i State Worker α :=
    { world with
      shared := s
      threads := Function.update world.threads w (some thread')
      history := world.history ++ (commit.map fun commit => (thread.attempt, commit)).toList }
  have stepped : sys.step world (.run w .none) = some next := by
    simp [System.step, running, ran, next]
  obtain ⟨later, last, result, reached, threads, ended, attempts, owner⟩ :=
    rest next (Function.update_self w (some thread') world.threads)
  refine ⟨later, last, result,
    Reachable.trans (.step (.run w .none) .start trivial stepped) reached, ?_, ended, attempts, owner⟩
  rw [threads]
  exact Function.update_idem _ _ _

/-- A program that meets no fault runs to its end. -/
theorem undisturbed_finishes (spec : Spec i State) (quiet : Env → Prop) (w : Worker)
    (p : Program i α) : ∀ (world : World i State Worker α) (thread : Thread i α),
      world.threads w = some thread → thread.program = p → Finishes sys spec quiet w world := by
  induction p with
  | done result =>
      intro world thread running program
      refine ⟨world, thread, result, .start, ?_, program, rfl, rfl⟩
      rw [← running, Function.update_eq_self]
  | checkLock next ih =>
      intro world thread running program
      exact .step running (by simp only [Thread.run, program]; rfl)
        fun world running => ih _ world _ running rfl
  | call c next ih =>
      intro world thread running program
      exact .step running (by simp only [Thread.run, program]; rfl)
        fun world running => ih _ world _ running rfl
  | transact t next ih =>
      intro world thread running program
      cases executed : sys.exec t world.shared with
      | ok answer =>
          exact .step running (by simp only [Thread.run, program, executed]; rfl)
            fun world running => ih _ world _ running rfl
      | error e =>
          exact .step running (by simp only [Thread.run, program, executed]; rfl)
            fun world running => ih _ world _ running rfl

/-- Any number of attempts can be run to their end. -/
theorem undisturbed_attempts (spec : Spec i State) (quiet : Env → Prop) (w : Worker) (start : Start)
    {world : World i State Worker α} (resting : ∀ other, world.threads other = none)
    (free : world.owner = none) (n : Nat) :
    ∃ later, Reachable sys (Undisturbed spec quiet) world later ∧
      later.attempts = world.attempts + n ∧ (∀ other, later.threads other = none) ∧
      later.owner = none := by
  induction n with
  | zero => exact ⟨world, .start, rfl, resting, free⟩
  | succ n ih =>
      obtain ⟨before, reached, attempts, resting, free⟩ := ih
      let acquired : World i State Worker α :=
        { before with
          threads := Function.update before.threads w
            (some ⟨before.attempts, true, [], sys.program start⟩)
          owner := some w
          current := some w
          attempts := before.attempts + 1 }
      have stepped : sys.step before (.acquire w start) = some acquired := by
        simp [System.step, free, resting w, acquired]
      have here : Reachable sys (Undisturbed spec quiet) world acquired :=
        .step (.acquire w start) reached resting stepped
      obtain ⟨ended, thread, result, finished, threads, program, same, owner⟩ :=
        undisturbed_finishes spec quiet w _ acquired _ (Function.update_self _ _ _) rfl
      have own : ended.threads w = some thread := by rw [threads, Function.update_self]
      obtain ⟨left, stepped'⟩ : ∃ left, sys.step ended (.leave w) = some left := by
        simp [System.step, own]
      have done : ∀ thread, ended.threads w = some thread → ∃ result, thread.program = .done result := by
        intro other running
        cases own.symm.trans running
        exact ⟨result, program⟩
      refine ⟨left, .step (.leave w) (Reachable.trans here finished) done stepped', ?_, ?_, ?_⟩
      · rw [step_leave stepped', ← Nat.add_assoc, ← attempts]
        exact same
      · intro other
        rw [step_leave stepped', threads]
        by_cases mine : other = w
        · subst mine
          exact Function.update_self _ _ _
        · exact (Function.update_of_ne mine _ _).trans
            ((Function.update_of_ne mine _ _).trans
              ((Function.update_of_ne mine _ _).trans (resting other)))
      · have owned : ended.owner = some w := owner
        rw [step_leave stepped']
        simp [World.release, owned]

end Attempts

/-! ## Transactions that close an attempt -/

section Closing

variable {i : Interface} {State Worker Env Start α : Type} {closing : i.Transaction → Prop}
  {value : α}

theorem Thread.run_closes
    {exec : (t : i.Transaction) → State → Except i.Exception (i.Reply t × State)}
    {fault : Fault i} {thread thread' : Thread i α} {s s' : State} {commit : Option (Commit i)}
    (closes : thread.program.Closes closing value)
    (ran : thread.run exec fault s = some (thread', s', commit)) :
    thread'.program.Closes closing value ∧
      ∀ t reply, commit = some ⟨t, reply⟩ → closing t → (∀ e, fault ≠ .unknown e) →
        thread'.program = .done (.ok value) := by
  unfold Thread.run at ran
  cases program : thread.program with
  | done result => simp [program] at ran
  | checkLock next =>
      rw [program] at closes
      simp only [program, Option.some.injEq, Prod.mk.injEq] at ran
      obtain ⟨rfl, rfl, rfl⟩ := ran
      exact ⟨closes _, fun t reply same => by cases same⟩
  | call c next =>
      rw [program] at closes
      cases fault with
      | none | fails e | unknown e =>
          simp only [program, Option.some.injEq, Prod.mk.injEq] at ran
          obtain ⟨rfl, rfl, rfl⟩ := ran
          exact ⟨closes _, fun t reply same => by cases same⟩
  | transact t next =>
      rw [program] at closes
      cases executed : exec t s with
      | error e =>
          cases fault with
          | none | fails e' | unknown e' =>
              simp only [program, executed, Option.some.injEq, Prod.mk.injEq] at ran
              obtain ⟨rfl, rfl, rfl⟩ := ran
              exact ⟨closes.2 _, fun t reply same => by cases same⟩
      | ok answer =>
          obtain ⟨reply, after⟩ := answer
          cases fault with
          | none =>
              simp only [program, executed, Option.some.injEq, Prod.mk.injEq] at ran
              obtain ⟨rfl, rfl, rfl⟩ := ran
              refine ⟨closes.2 _, fun t' reply' same closing _ => ?_⟩
              cases same
              exact closes.1 closing reply
          | fails e =>
              simp only [program, executed, Option.some.injEq, Prod.mk.injEq] at ran
              obtain ⟨rfl, rfl, rfl⟩ := ran
              exact ⟨closes.2 _, fun t reply same => by cases same⟩
          | unknown e =>
              simp only [program, executed, Option.some.injEq, Prod.mk.injEq] at ran
              obtain ⟨rfl, rfl, rfl⟩ := ran
              exact ⟨closes.2 _, fun t reply _ _ answered => absurd rfl (answered e)⟩

variable [DecidableEq Worker]

theorem reachable_closes {sys : System i State Env Start α}
    {allowed : World i State Worker α → Action i Worker Env Start → Prop}
    {start world : World i State Worker α} (idle : start.Idle)
    (programs : ∀ argument, (sys.program argument).Closes closing value)
    (run : Reachable sys allowed start world) :
    ∀ w thread, world.threads w = some thread → thread.program.Closes closing value := by
  induction run with
  | start =>
      intro w thread running
      rw [idle.1 w] at running
      cases running
  | step action _ _ stepped ih =>
      intro w thread running
      rcases step_thread stepped running with ⟨argument, _, rfl⟩ |
        ⟨before, was, ⟨_, rfl⟩ | ⟨_, rfl⟩ | ⟨_, _, _, ran⟩⟩
      · exact programs argument
      · exact ih w _ was
      · exact ih w before was
      · exact (Thread.run_closes (ih w before was) ran).1

end Closing

end Transactional

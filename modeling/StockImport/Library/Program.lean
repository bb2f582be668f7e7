import Mathlib.Logic.Basic

/-!
# Programs over a transactional store

A program is a tree of requests: it asks whether its lock is still held, calls
something outside that may raise, or runs a transaction, and goes on with the
answer.  What runs between two requests of a program is not the program's own
business; `Spec.rely` says what it may do to the store.

`wp` is the weakest precondition of a program: from a state with `wp p Q` every
transaction the program asks for meets its precondition, whatever the answers,
and every end of the program meets `Q`.
-/

set_option autoImplicit false

namespace Transactional

structure Interface where
  Exception : Type
  Call : Type
  Transaction : Type
  Reply : Transaction → Type

/-- A transaction that has committed, with what it returned. -/
structure Commit (i : Interface) where
  transaction : i.Transaction
  reply : i.Reply transaction

inductive Program (i : Interface) (α : Type) : Type where
  | done (result : Except i.Exception α)
  | checkLock (next : Bool → Program i α)
  | call (c : i.Call) (next : Except i.Exception Unit → Program i α)
  | transact (t : i.Transaction) (next : Except i.Exception (i.Reply t) → Program i α)

namespace Program

variable {i : Interface} {α β : Type}

/-- The first program, then the second with whatever the first ended in. -/
def andThen : Program i α → (Except i.Exception α → Program i β) → Program i β
  | .done result, f => f result
  | .checkLock next, f => .checkLock fun alive => (next alive).andThen f
  | .call c next, f => .call c fun answer => (next answer).andThen f
  | .transact t next, f => .transact t fun answer => (next answer).andThen f

def raise (e : i.Exception) : Program i α := .done (.error e)

def onSuccess (f : α → Program i β) : Except i.Exception α → Program i β
  | .ok value => f value
  | .error e => raise e

def onFailure (f : i.Exception → Program i α) : Except i.Exception α → Program i α
  | .ok value => .done (.ok value)
  | .error e => f e

instance : Monad (Program i) where
  pure value := .done (.ok value)
  bind p f := p.andThen (onSuccess f)

/-- `try: p except: handler`. -/
def handle (p : Program i α) (handler : i.Exception → Program i α) : Program i α :=
  p.andThen (onFailure handler)

def invoke (c : i.Call) : Program i Unit := .call c .done

def commit (t : i.Transaction) : Program i (i.Reply t) := .transact t .done

/-- The exception `lost` where the lock is gone. -/
def assertLock (lost : i.Exception) : Program i Unit :=
  .checkLock fun alive => if alive then .done (.ok ()) else raise lost

end Program

/-- What a program may count on, and what it promises. -/
structure Spec (i : Interface) (State : Type) where
  exec : (t : i.Transaction) → State → Except i.Exception (i.Reply t × State)
  /-- What others may do to the store between two requests. -/
  rely : State → State → Prop
  rely_refl : ∀ s, rely s s
  rely_trans : ∀ s s' s'', rely s s' → rely s' s'' → rely s s''
  /-- The precondition of a transaction, after the commits so far. -/
  pre : List (Commit i) → i.Transaction → State → Prop
  /-- What a call may raise. -/
  raises : i.Call → i.Exception → Prop
  /-- What a transaction may be rolled back with, for no reason of its own. -/
  fails : i.Transaction → i.Exception → Prop
  /-- What may be raised although the transaction has committed. -/
  unknown : i.Transaction → i.Exception → Prop
  /-- Whether the lock may be lost. -/
  loses : Prop

abbrev Post (i : Interface) (State α : Type) :=
  Except i.Exception α → List (Commit i) → State → Prop

section Rules

variable {i : Interface} {State α β : Type} (spec : Spec i State)

def wp : Program i α → Post i State α → List (Commit i) → State → Prop
  | .done result, post, log, s => ∀ s', spec.rely s s' → post result log s'
  | .checkLock next, post, log, s =>
      wp (next true) post log s ∧ (spec.loses → wp (next false) post log s)
  | .call c next, post, log, s =>
      wp (next (.ok ())) post log s ∧
        (∀ e, spec.raises c e → wp (next (.error e)) post log s)
  | .transact t next, post, log, s => ∀ s', spec.rely s s' →
      spec.pre log t s' ∧
        (∀ reply s'', spec.exec t s' = .ok (reply, s'') →
          wp (next (.ok reply)) post (log ++ [⟨t, reply⟩]) s'' ∧
            (∀ e, spec.unknown t e → wp (next (.error e)) post (log ++ [⟨t, reply⟩]) s'')) ∧
        (∀ e, spec.exec t s' = .error e → wp (next (.error e)) post log s') ∧
        (∀ e, spec.fails t e → wp (next (.error e)) post log s')

theorem wp_stable (p : Program i α) (post : Post i State α) (log : List (Commit i)) :
    ∀ s s', spec.rely s s' → wp spec p post log s → wp spec p post log s' := by
  induction p with
  | done result =>
      intro s s' others ends s'' more
      exact ends s'' (spec.rely_trans s s' s'' others more)
  | checkLock next ih =>
      intro s s' others holds
      exact ⟨ih true s s' others holds.1, fun lost => ih false s s' others (holds.2 lost)⟩
  | call c next ih =>
      intro s s' others holds
      refine ⟨ih _ s s' others holds.1, ?_⟩
      intro e raised
      exact ih _ s s' others (holds.2 e raised)
  | transact t next _ =>
      intro s s' others holds s'' more
      exact holds s'' (spec.rely_trans s s' s'' others more)

theorem wp_mono (p : Program i α) {post weaker : Post i State α}
    (implies : ∀ result log s, post result log s → weaker result log s) :
    ∀ log s, wp spec p post log s → wp spec p weaker log s := by
  induction p with
  | done result =>
      intro log s ends s' others
      exact implies _ _ _ (ends s' others)
  | checkLock next ih =>
      intro log s holds
      exact ⟨ih true log s holds.1, fun lost => ih false log s (holds.2 lost)⟩
  | call c next ih =>
      intro log s holds
      refine ⟨ih _ log s holds.1, ?_⟩
      intro e raised
      exact ih _ log s (holds.2 e raised)
  | transact t next ih =>
      intro log s holds s' others
      obtain ⟨pre, commits, refuses, fails⟩ := holds s' others
      refine ⟨pre, ?_, ?_, ?_⟩
      · intro reply s'' executed
        obtain ⟨answered, unanswered⟩ := commits reply s'' executed
        exact ⟨ih _ _ _ answered, fun e unknown => ih _ _ _ (unanswered e unknown)⟩
      · intro e refused
        exact ih _ _ _ (refuses e refused)
      · intro e failed
        exact ih _ _ _ (fails e failed)

theorem wp_and (p : Program i α) {first second : Post i State α} :
    ∀ log s, wp spec p first log s → wp spec p second log s →
      wp spec p (fun result log s => first result log s ∧ second result log s) log s := by
  induction p with
  | done result =>
      intro log s ends ends' s' others
      exact ⟨ends s' others, ends' s' others⟩
  | checkLock next ih =>
      intro log s holds holds'
      exact ⟨ih true log s holds.1 holds'.1,
        fun lost => ih false log s (holds.2 lost) (holds'.2 lost)⟩
  | call c next ih =>
      intro log s holds holds'
      refine ⟨ih _ log s holds.1 holds'.1, ?_⟩
      intro e raised
      exact ih _ log s (holds.2 e raised) (holds'.2 e raised)
  | transact t next ih =>
      intro log s holds holds' s' others
      obtain ⟨pre, commits, refuses, fails⟩ := holds s' others
      obtain ⟨_, commits', refuses', fails'⟩ := holds' s' others
      refine ⟨pre, ?_, ?_, ?_⟩
      · intro reply s'' executed
        obtain ⟨answered, unanswered⟩ := commits reply s'' executed
        obtain ⟨answered', unanswered'⟩ := commits' reply s'' executed
        exact ⟨ih _ _ _ answered answered',
          fun e unknown => ih _ _ _ (unanswered e unknown) (unanswered' e unknown)⟩
      · intro e refused
        exact ih _ _ _ (refuses e refused) (refuses' e refused)
      · intro e failed
        exact ih _ _ _ (fails e failed) (fails' e failed)

theorem wp_andThen (p : Program i α) (f : Except i.Exception α → Program i β)
    (post : Post i State β) : ∀ log s,
      wp spec p (fun result log s => wp spec (f result) post log s) log s →
        wp spec (p.andThen f) post log s := by
  induction p with
  | done result =>
      intro log s ends
      exact ends s (spec.rely_refl s)
  | checkLock next ih =>
      intro log s holds
      exact ⟨ih true log s holds.1, fun lost => ih false log s (holds.2 lost)⟩
  | call c next ih =>
      intro log s holds
      refine ⟨ih _ log s holds.1, ?_⟩
      intro e raised
      exact ih _ log s (holds.2 e raised)
  | transact t next ih =>
      intro log s holds s' others
      obtain ⟨pre, commits, refuses, fails⟩ := holds s' others
      refine ⟨pre, ?_, ?_, ?_⟩
      · intro reply s'' executed
        obtain ⟨answered, unanswered⟩ := commits reply s'' executed
        exact ⟨ih _ _ _ answered, fun e unknown => ih _ _ _ (unanswered e unknown)⟩
      · intro e refused
        exact ih _ _ _ (refuses e refused)
      · intro e failed
        exact ih _ _ _ (fails e failed)

/-- Where less can go wrong, and no more is asked. -/
theorem wp_refine (spec spec' : Spec i State) (exec : ∀ t s, spec'.exec t s = spec.exec t s)
    (rely : ∀ s s', spec'.rely s s' → spec.rely s s')
    (pre : ∀ log t s, spec.pre log t s → spec'.pre log t s)
    (loses : spec'.loses → spec.loses) (raises : ∀ c e, spec'.raises c e → spec.raises c e)
    (fails : ∀ t e, spec'.fails t e → spec.fails t e)
    (unknown : ∀ t e, spec'.unknown t e → spec.unknown t e) (p : Program i α)
    {post : Post i State α} : ∀ log s, wp spec p post log s → wp spec' p post log s := by
  induction p with
  | done result =>
      intro log s ends s' others
      exact ends s' (rely s s' others)
  | checkLock next ih =>
      intro log s holds
      exact ⟨ih true log s holds.1, fun lost => ih false log s (holds.2 (loses lost))⟩
  | call c next ih =>
      intro log s holds
      refine ⟨ih _ log s holds.1, ?_⟩
      intro e raised
      exact ih _ log s (holds.2 e (raises c e raised))
  | transact t next ih =>
      intro log s holds s' others
      obtain ⟨before, commits, refuses, rolledBack⟩ := holds s' (rely s s' others)
      refine ⟨pre log t s' before, ?_, ?_, ?_⟩
      · intro reply s'' executed
        rw [exec] at executed
        obtain ⟨answered, unanswered⟩ := commits reply s'' executed
        exact ⟨ih _ _ _ answered, fun e lost => ih _ _ _ (unanswered e (unknown t e lost))⟩
      · intro e refused
        rw [exec] at refused
        exact ih _ _ _ (refuses e refused)
      · intro e failed
        exact ih _ _ _ (rolledBack e (fails t e failed))

/-- An assertion that the other parties cannot break. -/
def Stable (assertion : State → Prop) : Prop :=
  ∀ s s', spec.rely s s' → assertion s → assertion s'

/-- A postcondition that they cannot break. -/
def StablePost (post : Post i State α) : Prop :=
  ∀ result log, Stable spec (post result log)

theorem wp_done {result : Except i.Exception α} {post : Post i State α}
    (stable : StablePost spec post) {log : List (Commit i)} {s : State}
    (ends : post result log s) : wp spec (.done result) post log s :=
  fun s' others => stable result log s s' others ends

/-- What a bind needs: after a success the rest of the program, after an
exception the postcondition itself. -/
theorem wp_bind (p : Program i α) (f : α → Program i β) {post : Post i State β}
    (stable : StablePost spec post) {log : List (Commit i)} {s : State}
    (first : wp spec p (fun result log s =>
      match result with
      | .ok value => wp spec (f value) post log s
      | .error e => post (.error e) log s) log s) :
    wp spec (p >>= f) post log s := by
  apply wp_andThen
  refine wp_mono spec p ?_ log s first
  intro result log s ends
  cases result with
  | ok value => exact ends
  | error e => exact wp_done spec stable ends

theorem wp_handle (p : Program i α) (handler : i.Exception → Program i α)
    {post : Post i State α} (stable : StablePost spec post) {log : List (Commit i)} {s : State}
    (first : wp spec p (fun result log s =>
      match result with
      | .ok value => post (.ok value) log s
      | .error e => wp spec (handler e) post log s) log s) :
    wp spec (p.handle handler) post log s := by
  apply wp_andThen
  refine wp_mono spec p ?_ log s first
  intro result log s ends
  cases result with
  | ok value => exact wp_done spec stable ends
  | error e => exact ends

theorem wp_assertLock (lost : i.Exception) {post : Post i State Unit}
    (stable : StablePost spec post) {log : List (Commit i)} {s : State}
    (kept : post (.ok ()) log s) (gone : spec.loses → post (.error lost) log s) :
    wp spec (Program.assertLock lost) post log s :=
  ⟨wp_done spec stable kept, fun loses => wp_done spec stable (gone loses)⟩

theorem wp_invoke (c : i.Call) {post : Post i State Unit} (stable : StablePost spec post)
    {log : List (Commit i)} {s : State} (returns : post (.ok ()) log s)
    (raises : ∀ e, spec.raises c e → post (.error e) log s) :
    wp spec (Program.invoke c) post log s :=
  ⟨wp_done spec stable returns, fun e raised => wp_done spec stable (raises e raised)⟩

/-- A transaction from a state that `assertion` describes.  The postcondition is
shown at the commit. -/
theorem wp_commit (t : i.Transaction) {post : Post i State (i.Reply t)}
    (stable : StablePost spec post) {log : List (Commit i)} {s : State}
    {assertion : State → Prop} (keeps : Stable spec assertion) (before : assertion s)
    (pre : ∀ s, assertion s → spec.pre log t s)
    (commits : ∀ s reply s', assertion s → spec.exec t s = .ok (reply, s') →
      post (.ok reply) (log ++ [⟨t, reply⟩]) s' ∧
        (∀ e, spec.unknown t e → post (.error e) (log ++ [⟨t, reply⟩]) s'))
    (refuses : ∀ s e, assertion s → spec.exec t s = .error e → post (.error e) log s)
    (fails : ∀ s e, assertion s → spec.fails t e → post (.error e) log s) :
    wp spec (Program.commit t) post log s := by
  intro s' others
  have now := keeps s s' others before
  refine ⟨pre s' now, ?_, ?_, ?_⟩
  · intro reply s'' executed
    obtain ⟨answered, unanswered⟩ := commits s' reply s'' now executed
    exact ⟨wp_done spec stable answered, fun e unknown => wp_done spec stable (unanswered e unknown)⟩
  · intro e refused
    exact wp_done spec stable (refuses s' e now refused)
  · intro e failed
    exact wp_done spec stable (fails s' e now failed)

/-! ## Requests in sequence -/

theorem stablePost_bind (f : α → Program i β) {post : Post i State β}
    (stable : StablePost spec post) :
    StablePost spec fun (result : Except i.Exception α) log s =>
      match result with
      | .ok value => wp spec (f value) post log s
      | .error e => post (.error e) log s := by
  intro result log s s' others holds
  cases result with
  | ok value => exact wp_stable spec (f value) post log s s' others holds
  | error e => exact stable (.error e) log s s' others holds

theorem stablePost_handle (handler : i.Exception → Program i α) {post : Post i State α}
    (stable : StablePost spec post) :
    StablePost spec fun (result : Except i.Exception α) log s =>
      match result with
      | .ok value => post (.ok value) log s
      | .error e => wp spec (handler e) post log s := by
  intro result log s s' others holds
  cases result with
  | ok value => exact stable (.ok value) log s s' others holds
  | error e => exact wp_stable spec (handler e) post log s s' others holds

theorem wp_pure {value : α} {post : Post i State α} (stable : StablePost spec post)
    {log : List (Commit i)} {s : State} (ends : post (.ok value) log s) :
    wp spec (pure value) post log s :=
  wp_done spec stable ends

theorem wp_then_assertLock (lost : i.Exception) (f : Unit → Program i β) {post : Post i State β}
    (stable : StablePost spec post) {log : List (Commit i)} {s : State}
    (kept : wp spec (f ()) post log s) (gone : spec.loses → post (.error lost) log s) :
    wp spec (Program.assertLock lost >>= f) post log s :=
  wp_bind spec _ _ stable
    (wp_assertLock spec lost (stablePost_bind spec f stable) kept gone)

theorem wp_then_invoke (c : i.Call) (f : Unit → Program i β) {post : Post i State β}
    (stable : StablePost spec post) {log : List (Commit i)} {s : State}
    (returns : wp spec (f ()) post log s)
    (raises : ∀ e, spec.raises c e → post (.error e) log s) :
    wp spec (Program.invoke c >>= f) post log s :=
  wp_bind spec _ _ stable (wp_invoke spec c (stablePost_bind spec f stable) returns raises)

theorem wp_then_done (result : Except i.Exception α) (f : α → Program i β) {post : Post i State β}
    (stable : StablePost spec post) {log : List (Commit i)} {s : State}
    (returns : ∀ value, result = .ok value → wp spec (f value) post log s)
    (raises : ∀ e, result = .error e → post (.error e) log s) :
    wp spec (Program.done result >>= f) post log s := by
  refine wp_bind spec _ _ stable (wp_done spec (stablePost_bind spec f stable) ?_)
  cases result with
  | ok value => exact returns value rfl
  | error e => exact raises e rfl

theorem wp_then_commit (t : i.Transaction) (f : i.Reply t → Program i β) {post : Post i State β}
    (stable : StablePost spec post) {log : List (Commit i)} {s : State}
    {assertion : State → Prop} (keeps : Stable spec assertion) (before : assertion s)
    (pre : ∀ s, assertion s → spec.pre log t s)
    (commits : ∀ s reply s', assertion s → spec.exec t s = .ok (reply, s') →
      wp spec (f reply) post (log ++ [⟨t, reply⟩]) s' ∧
        (∀ e, spec.unknown t e → post (.error e) (log ++ [⟨t, reply⟩]) s'))
    (refuses : ∀ s e, assertion s → spec.exec t s = .error e → post (.error e) log s)
    (fails : ∀ s e, assertion s → spec.fails t e → post (.error e) log s) :
    wp spec (Program.commit t >>= f) post log s :=
  wp_bind spec _ _ stable
    (wp_commit spec t (stablePost_bind spec f stable) keeps before pre commits refuses fails)

end Rules

/-! ## What a program asks for -/

/-- Whatever the answers, every transaction asked for meets `asks` and every end
meets `ends`. -/
def Program.Ensures {i : Interface} {α : Type} (asks : i.Transaction → Prop)
    (ends : Except i.Exception α → Prop) : Program i α → Prop
  | .done result => ends result
  | .checkLock next => ∀ alive, (next alive).Ensures asks ends
  | .call _ next => ∀ answer, (next answer).Ensures asks ends
  | .transact t next => asks t ∧ ∀ answer, (next answer).Ensures asks ends

section Ensures

variable {i : Interface} {State α β : Type} {asks : i.Transaction → Prop}

theorem ensures_andThen {p : Program i α} {f : Except i.Exception α → Program i β}
    {middle : Except i.Exception α → Prop} {ends : Except i.Exception β → Prop}
    (first : p.Ensures asks middle) (next : ∀ result, middle result → (f result).Ensures asks ends) :
    (p.andThen f).Ensures asks ends := by
  induction p with
  | done result => exact next result first
  | checkLock next ih => exact fun alive => ih alive (first alive)
  | call c next ih => exact fun answer => ih answer (first answer)
  | transact t next ih => exact ⟨first.1, fun answer => ih answer (first.2 answer)⟩

theorem ensures_bind {p : Program i α} {f : α → Program i β}
    {middle : Except i.Exception α → Prop} {ends : Except i.Exception β → Prop}
    (first : p.Ensures asks middle) (raises : ∀ e, ends (.error e))
    (next : ∀ value, middle (.ok value) → (f value).Ensures asks ends) :
    (p >>= f).Ensures asks ends := by
  refine ensures_andThen first ?_
  intro result holds
  cases result with
  | ok value => exact next value holds
  | error e => exact raises e

theorem ensures_then {p : Program i α} {f : α → Program i β}
    {ends : Except i.Exception β → Prop} (first : p.Ensures asks fun _ => True)
    (raises : ∀ e, ends (.error e)) (next : ∀ value, (f value).Ensures asks ends) :
    (p >>= f).Ensures asks ends :=
  ensures_bind first raises fun value _ => next value

theorem ensures_handle {p : Program i α} {handler : i.Exception → Program i α}
    {ends : Except i.Exception α → Prop} (first : p.Ensures asks ends)
    (next : ∀ e, (handler e).Ensures asks ends) : (p.handle handler).Ensures asks ends := by
  refine ensures_andThen first ?_
  intro result holds
  cases result with
  | ok value => exact holds
  | error e => exact next e

theorem ensures_assertLock {lost : i.Exception} {ends : Except i.Exception Unit → Prop}
    (all : ∀ result, ends result) : (Program.assertLock lost).Ensures asks ends := by
  intro alive
  cases alive with
  | true => exact all _
  | false => exact all _

theorem ensures_invoke {c : i.Call} {ends : Except i.Exception Unit → Prop}
    (all : ∀ result, ends result) : (Program.invoke c).Ensures asks ends :=
  fun answer => all answer

theorem ensures_commit {t : i.Transaction} {ends : Except i.Exception (i.Reply t) → Prop}
    (asked : asks t) (all : ∀ result, ends result) : (Program.commit t).Ensures asks ends :=
  ⟨asked, fun answer => all answer⟩

theorem Program.Ensures.mono {asks' : i.Transaction → Prop} {ends ends' : Except i.Exception α → Prop}
    {p : Program i α} (ensures : p.Ensures asks ends) (more : ∀ t, asks t → asks' t)
    (later : ∀ result, ends result → ends' result) : p.Ensures asks' ends' := by
  induction p with
  | done result => exact later result ensures
  | checkLock next ih => exact fun alive => ih alive (ensures alive)
  | call c next ih => exact fun answer => ih answer (ensures answer)
  | transact t next ih => exact ⟨more t ensures.1, fun answer => ih answer (ensures.2 answer)⟩

/-- A program whose requests are all right under an assertion that its own commits
keep. -/
theorem wp_of_ensures (spec : Spec i State) {assertion : List (Commit i) → State → Prop}
    {ends : Except i.Exception α → Prop}
    (commits : ∀ log t reply s s', assertion log s → asks t → spec.exec t s = .ok (reply, s') →
      assertion (log ++ [⟨t, reply⟩]) s')
    (keeps : ∀ log, Stable spec (assertion log))
    (pre : ∀ log t s, assertion log s → asks t → spec.pre log t s) (p : Program i α) :
    ∀ log s, assertion log s → p.Ensures asks ends →
      wp spec p (fun result log s => ends result ∧ assertion log s) log s := by
  induction p with
  | done result =>
      intro log s holds ensures s' others
      exact ⟨ensures, keeps log s s' others holds⟩
  | checkLock next ih =>
      intro log s holds ensures
      exact ⟨ih true log s holds (ensures true), fun _ => ih false log s holds (ensures false)⟩
  | call c next ih =>
      intro log s holds ensures
      exact ⟨ih _ log s holds (ensures _), fun e _ => ih _ log s holds (ensures _)⟩
  | transact t next ih =>
      intro log s holds ensures s' others
      have now := keeps log s s' others holds
      refine ⟨pre log t s' now ensures.1, ?_, ?_, ?_⟩
      · intro reply s'' executed
        have after := commits log t reply s' s'' now ensures.1 executed
        exact ⟨ih _ _ _ after (ensures.2 _), fun e _ => ih _ _ _ after (ensures.2 _)⟩
      · intro e _
        exact ih _ _ _ now (ensures.2 _)
      · intro e _
        exact ih _ _ _ now (ensures.2 _)

theorem ensures_any (p : Program i α) : p.Ensures (fun _ => True) fun _ => True := by
  induction p with
  | done result => trivial
  | checkLock next ih => exact fun alive => ih alive
  | call c next ih => exact fun answer => ih answer
  | transact t next ih => exact ⟨trivial, fun answer => ih answer⟩

/-- A log grows by what the program asks for. -/
theorem wp_logs (spec : Spec i State) {post : Post i State α} (first : List (Commit i))
    (p : Program i α) : ∀ log s, p.Ensures asks (fun _ => True) →
      (∃ more, log = first ++ more ∧ ∀ commit ∈ more, asks commit.transaction) →
        wp spec p post log s →
          wp spec p (fun result log s => post result log s ∧
            ∃ more, log = first ++ more ∧ ∀ commit ∈ more, asks commit.transaction) log s := by
  induction p with
  | done result =>
      intro log s _ grown ends s' others
      exact ⟨ends s' others, grown⟩
  | checkLock next ih =>
      intro log s ensures grown holds
      exact ⟨ih true log s (ensures true) grown holds.1,
        fun lost => ih false log s (ensures false) grown (holds.2 lost)⟩
  | call c next ih =>
      intro log s ensures grown holds
      refine ⟨ih _ log s (ensures _) grown holds.1, ?_⟩
      intro e raised
      exact ih _ log s (ensures _) grown (holds.2 e raised)
  | transact t next ih =>
      intro log s ensures grown holds s' others
      obtain ⟨pre, commits, refuses, fails⟩ := holds s' others
      refine ⟨pre, ?_, ?_, ?_⟩
      · intro reply s'' executed
        obtain ⟨answered, unanswered⟩ := commits reply s'' executed
        have longer : ∃ more, log ++ [⟨t, reply⟩] = first ++ more ∧
            ∀ commit ∈ more, asks commit.transaction := by
          obtain ⟨more, rfl, asked⟩ := grown
          refine ⟨more ++ [⟨t, reply⟩], by simp, ?_⟩
          intro commit member
          rcases List.mem_append.mp member with old | new
          · exact asked commit old
          · rw [List.mem_singleton.mp new]
            exact ensures.1
        exact ⟨ih _ _ _ (ensures.2 _) longer answered,
          fun e unknown => ih _ _ _ (ensures.2 _) longer (unanswered e unknown)⟩
      · intro e refused
        exact ih _ _ _ (ensures.2 _) grown (refuses e refused)
      · intro e failed
        exact ih _ _ _ (ensures.2 _) grown (fails e failed)

/-- What the requests of a program keep holds at its end, which is one it may have. -/
theorem wp_along (spec : Spec i State) {post : Post i State α} {ends : Except i.Exception α → Prop}
    {assertion : List (Commit i) → State → Prop} (keeps : ∀ log, Stable spec (assertion log))
    (commits : ∀ log t reply s s', assertion log s → asks t → spec.pre log t s →
      spec.exec t s = .ok (reply, s') → assertion (log ++ [⟨t, reply⟩]) s') (p : Program i α) :
    ∀ log s, assertion log s → p.Ensures asks ends → wp spec p post log s →
      wp spec p (fun result log s => ends result ∧ assertion log s ∧ post result log s) log s := by
  induction p with
  | done result =>
      intro log s holds ensures weakest s' others
      exact ⟨ensures, keeps log s s' others holds, weakest s' others⟩
  | checkLock next ih =>
      intro log s holds ensures weakest
      exact ⟨ih true log s holds (ensures true) weakest.1,
        fun lost => ih false log s holds (ensures false) (weakest.2 lost)⟩
  | call c next ih =>
      intro log s holds ensures weakest
      refine ⟨ih _ log s holds (ensures _) weakest.1, ?_⟩
      intro e raised
      exact ih _ log s holds (ensures _) (weakest.2 e raised)
  | transact t next ih =>
      intro log s holds ensures weakest s' others
      obtain ⟨pre, answers, refuses, fails⟩ := weakest s' others
      have now := keeps log s s' others holds
      refine ⟨pre, ?_, ?_, ?_⟩
      · intro reply s'' executed
        have after := commits log t reply s' s'' now ensures.1 pre executed
        obtain ⟨answered, unanswered⟩ := answers reply s'' executed
        exact ⟨ih _ _ _ after (ensures.2 _) answered,
          fun e unknown => ih _ _ _ after (ensures.2 _) (unanswered e unknown)⟩
      · intro e refused
        exact ih _ _ _ now (ensures.2 _) (refuses e refused)
      · intro e failed
        exact ih _ _ _ now (ensures.2 _) (fails e failed)

/-- A program ends as it may end. -/
theorem wp_ends (spec : Spec i State) {post : Post i State α} {ends : Except i.Exception α → Prop}
    (p : Program i α) {log : List (Commit i)} {s : State} (ensures : p.Ensures asks ends)
    (holds : wp spec p post log s) :
    wp spec p (fun result log s => ends result ∧ post result log s) log s := by
  refine wp_mono spec p ?_ log s
    (wp_along spec (fun _ _ _ _ always => always)
      (fun _ _ _ _ _ (always : True) _ _ _ => always) p log s trivial ensures holds)
  rintro result log s ⟨ends, _, post⟩
  exact ⟨ends, post⟩

/-- A log only grows. -/
theorem wp_extends (spec : Spec i State) (p : Program i α) {post : Post i State α}
    {log : List (Commit i)} {s : State} (holds : wp spec p post log s) :
    wp spec p (fun result later s => log <+: later ∧ post result later s) log s := by
  refine wp_mono spec p ?_ log s
    (wp_logs spec log p log s (ensures_any p) ⟨[], by simp, by simp⟩ holds)
  rintro result _ s ⟨ends, more, rfl, _⟩
  exact ⟨List.prefix_append _ _, ends⟩

end Ensures

/-! ## Transactions that close a program -/

/-- Once a transaction that is `closing` has committed, the program ends with `value`. -/
def Program.Closes {i : Interface} {α : Type} (closing : i.Transaction → Prop) (value : α) :
    Program i α → Prop
  | .done _ => True
  | .checkLock next => ∀ alive, (next alive).Closes closing value
  | .call _ next => ∀ answer, (next answer).Closes closing value
  | .transact t next => (closing t → ∀ reply, next (.ok reply) = .done (.ok value)) ∧
      ∀ answer, (next answer).Closes closing value

section Closes

variable {i : Interface} {α β : Type} {closing : i.Transaction → Prop}

theorem closes_andThen {value : β} {p : Program i α} {f : Except i.Exception α → Program i β}
    (first : p.Ensures (fun t => ¬ closing t) fun _ => True)
    (next : ∀ result, (f result).Closes closing value) : (p.andThen f).Closes closing value := by
  induction p with
  | done result => exact next result
  | checkLock _ ih => exact fun alive => ih alive (first alive)
  | call c _ ih => exact fun answer => ih answer (first answer)
  | transact t _ ih =>
      exact ⟨fun closes => absurd closes first.1, fun answer => ih answer (first.2 answer)⟩

theorem closes_bind {value : β} {p : Program i α} {f : α → Program i β}
    (first : p.Ensures (fun t => ¬ closing t) fun _ => True)
    (next : ∀ a, (f a).Closes closing value) : (p >>= f).Closes closing value := by
  refine closes_andThen first fun result => ?_
  cases result with
  | ok a => exact next a
  | error e => trivial

theorem closes_of_ensures {value : α} {p : Program i α}
    (ensures : p.Ensures (fun t => ¬ closing t) fun _ => True) : p.Closes closing value := by
  induction p with
  | done result => trivial
  | checkLock _ ih => exact fun alive => ih alive (ensures alive)
  | call c _ ih => exact fun answer => ih answer (ensures answer)
  | transact t _ ih =>
      exact ⟨fun closes => absurd closes ensures.1, fun answer => ih answer (ensures.2 answer)⟩

/-- The last transaction of a program. -/
theorem closes_last {value : α} {t : i.Transaction} :
    ((Program.commit t : Program i (i.Reply t)) >>= fun _ => pure value).Closes closing value := by
  refine ⟨fun _ _ => rfl, fun answer => ?_⟩
  cases answer with
  | ok reply => trivial
  | error e => trivial

/-- A handler does not see the end that a closing transaction leads to. -/
theorem closes_handle {value : α} {p : Program i α} {handler : i.Exception → Program i α}
    (first : p.Closes closing value) (next : ∀ e, (handler e).Closes closing value) :
    (p.handle handler).Closes closing value := by
  change (p.andThen (Program.onFailure handler)).Closes closing value
  induction p with
  | done result =>
      cases result with
      | ok a => trivial
      | error e => exact next e
  | checkLock _ ih => exact fun alive => ih alive (first alive)
  | call c _ ih => exact fun answer => ih answer (first answer)
  | transact t tail ih =>
      refine ⟨fun closes reply => ?_, fun answer => ih answer (first.2 answer)⟩
      change (tail (.ok reply)).andThen (Program.onFailure handler) = _
      rw [first.1 closes reply]
      rfl

end Closes

/-! ## Exceptions that end a program -/

/-- An exception of a transaction is the end of the program. -/
def Program.Propagates {i : Interface} {α : Type} : Program i α → Prop
  | .done _ => True
  | .checkLock next => ∀ alive, (next alive).Propagates
  | .call _ next => ∀ answer, (next answer).Propagates
  | .transact _ next => (∀ e, next (.error e) = raise e) ∧ ∀ reply, (next (.ok reply)).Propagates

section Propagates

variable {i : Interface} {State α β : Type}

theorem propagates_bind {p : Program i α} {f : α → Program i β} (first : p.Propagates)
    (next : ∀ value, (f value).Propagates) : (p >>= f).Propagates := by
  change (p.andThen (Program.onSuccess f)).Propagates
  induction p with
  | done result =>
      cases result with
      | ok value => exact next value
      | error e => trivial
  | checkLock _ ih => exact fun alive => ih alive (first alive)
  | call c _ ih => exact fun answer => ih answer (first answer)
  | transact t tail ih =>
      refine ⟨fun e => ?_, fun reply => ih _ (first.2 reply)⟩
      change (tail (.error e)).andThen (Program.onSuccess f) = _
      rw [first.1 e]
      rfl

theorem propagates_assertLock {lost : i.Exception} : (Program.assertLock lost).Propagates := by
  intro alive
  cases alive with
  | true => trivial
  | false => trivial

theorem propagates_commit {t : i.Transaction} : (Program.commit t).Propagates :=
  ⟨fun _ => rfl, fun _ => trivial⟩

/-- A program that ends with the exception of a transaction, where commits may go
unanswered: it ends as it would otherwise, or in such an exception. -/
theorem wp_propagates (spec spec' : Spec i State) {asks : i.Transaction → Prop}
    {invariant : State → Prop} (rely : ∀ s s', spec'.rely s s' → spec.rely s s')
    (loses : spec'.loses → spec.loses) (raises : ∀ c e, spec'.raises c e → spec.raises c e)
    (fails : ∀ t e, asks t → spec'.fails t e → spec.fails t e)
    (pre : ∀ log t s, asks t → spec.pre log t s → spec'.pre log t s)
    (exec : ∀ t s, asks t → spec'.exec t s = spec.exec t s)
    (keeps : Stable spec' invariant)
    (commits : ∀ t reply s s', asks t → invariant s → spec.exec t s = .ok (reply, s') →
      invariant s') {post : Post i State α} (p : Program i α) :
    ∀ log s, p.Propagates → (p.Ensures asks fun _ => True) → invariant s →
      wp spec p post log s →
        wp spec' p (fun result log s => invariant s ∧
          (post result log s ∨ ∃ t e, result = .error e ∧ spec'.unknown t e)) log s := by
  induction p with
  | done result =>
      intro log s _ _ holds ends s' others
      exact ⟨keeps s s' others holds, Or.inl (ends s' (rely s s' others))⟩
  | checkLock next ih =>
      intro log s propagates ensures holds weakest
      exact ⟨ih true log s (propagates true) (ensures true) holds weakest.1, fun lost =>
        ih false log s (propagates false) (ensures false) holds (weakest.2 (loses lost))⟩
  | call c next ih =>
      intro log s propagates ensures holds weakest
      refine ⟨ih _ log s (propagates _) (ensures _) holds weakest.1, ?_⟩
      intro e raised
      exact ih _ log s (propagates _) (ensures _) holds (weakest.2 e (raises c e raised))
  | transact t next ih =>
      intro log s propagates ensures holds weakest s' others
      obtain ⟨asked, later⟩ := ensures
      obtain ⟨before, answers, refuses, rolledBack⟩ := weakest s' (rely s s' others)
      have now := keeps s s' others holds
      have same := exec t s' asked
      have ends : ∀ e, (next (.error e)).Propagates := by
        intro e
        rw [propagates.1 e]
        trivial
      refine ⟨pre log t s' asked before, ?_, ?_, ?_⟩
      · intro reply s'' executed
        rw [same] at executed
        have after := commits t reply s' s'' asked now executed
        refine ⟨ih _ _ _ (propagates.2 reply) (later _) after (answers reply s'' executed).1, ?_⟩
        intro e unknown
        rw [propagates.1 e]
        exact fun last others => ⟨keeps s'' last others after, Or.inr ⟨t, e, rfl, unknown⟩⟩
      · intro e refused
        rw [same] at refused
        exact ih _ _ _ (ends e) (later _) now (refuses e refused)
      · intro e failed
        exact ih _ _ _ (ends e) (later _) now (rolledBack e (fails t e asked failed))

end Propagates

/-! ## One program alone -/

structure Outcome (i : Interface) (State α : Type) where
  result : Except i.Exception α
  log : List (Commit i)
  state : State

/-- The program with no other party and no failure but those of `exec`. -/
def Program.runAlone {i : Interface} {State α : Type}
    (exec : (t : i.Transaction) → State → Except i.Exception (i.Reply t × State)) :
    Program i α → List (Commit i) → State → Outcome i State α
  | .done result, log, s => ⟨result, log, s⟩
  | .checkLock next, log, s => (next true).runAlone exec log s
  | .call _ next, log, s => (next (.ok ())).runAlone exec log s
  | .transact t next, log, s =>
      match exec t s with
      | .ok (reply, s') => (next (.ok reply)).runAlone exec (log ++ [⟨t, reply⟩]) s'
      | .error e => (next (.error e)).runAlone exec log s

theorem wp_runAlone {i : Interface} {State α : Type} (spec : Spec i State) (p : Program i α)
    (post : Post i State α) : ∀ log s, wp spec p post log s →
      post (p.runAlone spec.exec log s).result (p.runAlone spec.exec log s).log
        (p.runAlone spec.exec log s).state := by
  induction p with
  | done result =>
      intro log s ends
      exact ends s (spec.rely_refl s)
  | checkLock next ih =>
      intro log s holds
      exact ih true log s holds.1
  | call c next ih =>
      intro log s holds
      exact ih _ log s holds.1
  | transact t next ih =>
      intro log s holds
      obtain ⟨_, commits, refuses, _⟩ := holds s (spec.rely_refl s)
      simp only [Program.runAlone]
      cases executed : spec.exec t s with
      | ok answer => exact ih _ _ _ (commits answer.1 answer.2 executed).1
      | error e => exact ih _ _ _ (refuses e executed)

end Transactional

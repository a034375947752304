import TaskLease.Proofs.Provider.Calls

/-!
# Attempts fail closed

Whatever an accessor answers, call by call, an attempt gives out a handle only for the `true` of its own last
call, and an error ends it. `Course` lists the ways that an attempt can go, and `course_of_acquire` shows that
there are no others. Which one it is depends on what the provider remembers of the attempts before:
`Remembered` says it of the history since the cache was cleared, and `history_failsClosed` carries along that
the registry agrees with it.
-/

namespace TaskLease

namespace Provider

variable {σ : Type}

/-- What is asked of a provider. -/
inductive Request where
  | tryLock (config : LockConfig)
  | clearCache
deriving DecidableEq, Repr

/-- What came of a request. -/
inductive Entry where
  /-- An attempt, with the calls that it made and its answer. -/
  | attempted (config : LockConfig) (calls : List Accessor.Call) (answer : Except LockError (Option Handle))
  | cleared
deriving DecidableEq

/-- What comes of some requests to one provider, made one after the other. -/
def history (accessor : Accessor σ) : List Request → Registry → Stage σ → List Entry
  | [], _, _ => []
  | .tryLock config :: rest, registry, stage =>
    let reply := accessor.observe (tryPlain · config registry) stage
    .attempted config reply.1.2 reply.1.1.1 :: history accessor rest reply.1.1.2 reply.2
  | .clearCache :: rest, registry, stage => .cleared :: history accessor rest registry.clear stage

/-- An attempt for a name got an answer to an insert, and did not end in an error. -/
def Entry.Remembers (name : String) : Entry → Prop
  | .attempted config calls answer =>
    config.name = name ∧ (∃ c ∈ calls, c.op = .insert ∧ ∃ acquired, c.answer = .ok acquired) ∧
      ∃ handle, answer = .ok handle
  | .cleared => False

/-- Since the cache was last cleared, there has been an attempt that makes the provider remember a name. -/
def Remembered (name : String) (before : List Entry) : Prop :=
  ∃ earlier entry later, before = earlier ++ entry :: later ∧ entry.Remembers name ∧ .cleared ∉ later

/-- An attempt that fails closed. `remembered` is whether the provider remembered the name. -/
structure FailsClosed (strategy : AcquireStrategy) (remembered : Prop) (config : LockConfig)
    (calls : List Accessor.Call) (answer : Except LockError (Option Handle)) : Prop where
  /-- The attempt asks for nothing but its own lock. -/
  own : ∀ c ∈ calls, c.config = config
  /-- It gives out a handle for the `true` of its last call alone. -/
  acquired : (∃ handle, answer = .ok (some handle)) ↔ ∃ c, calls.getLast? = some c ∧ c.answer = .ok true
  /-- The handle is a held one of the lock. -/
  handle : ∀ handle, answer = .ok (some handle) → handle = .lease { config }
  /-- It is turned away if no call failed and the last one was answered `false`. -/
  refused : answer = .ok none ↔
    (∀ c ∈ calls, ∃ b, c.answer = .ok b) ∧ ∃ c, calls.getLast? = some c ∧ c.answer = .ok false
  /-- It fails with the error of a call. -/
  failed : ∀ fault, answer = .error (.storage fault) ↔ ∃ c ∈ calls, c.answer = .error fault
  /-- There are no other errors. -/
  faults : ∀ e, answer = .error e → ∃ fault, e = .storage fault
  /-- No call follows one that failed. -/
  last : ∀ c ∈ calls.dropLast, ∃ b, c.answer = .ok b
  /-- An insert that takes over expired leases is the only call. -/
  reclaiming : strategy.insertReclaims = true → calls.map Accessor.Call.op = [.insert]
  /-- Otherwise a remembered name is updated. -/
  known : strategy.insertReclaims = false → (calls.map Accessor.Call.op = [.update] ↔ remembered)
  /-- A name that is not remembered is inserted, and updated if the insert is refused. -/
  unknown : strategy.insertReclaims = false → ¬ remembered →
    (∃ reply, calls = [⟨.insert, config, reply⟩] ∧ reply ≠ .ok false) ∨
      ∃ reply, calls = [⟨.insert, config, .ok false⟩, ⟨.update, config, reply⟩]

/-! ## One attempt -/

/-- The ways that an attempt can go: its calls, and what it comes to. -/
inductive Course (reclaims known : Bool) (config : LockConfig) : List Accessor.Call → Except StoreFault Bool → Prop
  | reclaiming (reply) : reclaims = true → Course reclaims known config [⟨.insert, config, reply⟩] reply
  | updating (reply) : reclaims = false → known = true → Course reclaims known config [⟨.update, config, reply⟩] reply
  | inserting (reply) : reclaims = false → known = false → reply ≠ .ok false →
    Course reclaims known config [⟨.insert, config, reply⟩] reply
  | both (reply) : reclaims = false → known = false →
    Course reclaims known config [⟨.insert, config, .ok false⟩, ⟨.update, config, reply⟩] reply

variable {accessor : Accessor σ} {config : LockConfig} {registry : Registry} {stage : Stage σ}
  {calls : List Accessor.Call} {reply : Except StoreFault Bool}

theorem answerOf_some_iff : (∃ handle, answerOf config reply = .ok (some handle)) ↔ reply = .ok true := by
  rcases reply with fault | _ | _ <;> simp [answerOf]

theorem answerOf_none_iff : answerOf config reply = .ok none ↔ reply = .ok false := by
  rcases reply with fault | _ | _ <;> simp [answerOf]

theorem answerOf_error_iff {fault : StoreFault} :
    answerOf config reply = .error (.storage fault) ↔ reply = .error fault := by
  rcases reply with fault' | _ | _ <;> simp [answerOf]

/-- Whichever way an attempt goes, it fails closed. -/
theorem Course.failsClosed {strategy : AcquireStrategy} {known : Bool} {remembered : Prop}
    (course : Course strategy.insertReclaims known config calls reply)
    (agrees : strategy.insertReclaims = false → (known = true ↔ remembered)) :
    FailsClosed strategy remembered config calls (answerOf config reply) where
  own := by cases course <;> simp
  acquired := by
    rw [answerOf_some_iff]
    cases course <;> simp
  handle handle acquired := by
    rcases reply with fault | _ | _
    · cases acquired
    · cases acquired
    · cases acquired
      rfl
  refused := by
    rw [answerOf_none_iff]
    cases course <;> simp +contextual
  failed fault := by
    rw [answerOf_error_iff]
    cases course <;> simp
  faults e failed := by
    rcases reply with fault | _ | _
    · cases failed
      exact ⟨fault, rfl⟩
    · cases failed
    · cases failed
  last := by cases course <;> simp
  reclaiming reclaims := by
    cases course with
    | reclaiming => rfl
    | updating _ lasting | inserting _ lasting | both _ lasting => rw [reclaims] at lasting; cases lasting
  known lasting := by
    have remembers := agrees lasting
    cases course with
    | reclaiming _ reclaims => rw [lasting] at reclaims; cases reclaims
    | updating _ _ knows => exact iff_of_true rfl (remembers.mp knows)
    | inserting _ _ unknown | both _ _ unknown =>
      have forgotten : ¬ remembered := by simp [← remembers, unknown]
      exact iff_of_false (by simp) forgotten
  unknown lasting forgotten := by
    cases course with
    | reclaiming _ reclaims => rw [lasting] at reclaims; cases reclaims
    | updating _ _ knows => exact absurd ((agrees lasting).mp knows) forgotten
    | inserting reply _ _ settled => exact .inl ⟨reply, rfl, settled⟩
    | both reply => exact .inr ⟨reply, rfl⟩

/-- An attempt goes one of its ways. -/
theorem course_of_acquire (accessor : Accessor σ) (config : LockConfig) (registry : Registry) (s : σ) :
    let last := acquire accessor.recording config registry (s, [])
    Course accessor.strategy.insertReclaims (registry.contains config.name) config last.2.2.2 last.1 := by
  cases reclaims : accessor.strategy.insertReclaims with
  | true =>
    have recorded : accessor.recording.strategy.insertReclaims = true := reclaims
    rw [acquire_reclaiming recorded]
    exact .reclaiming _ rfl
  | false =>
    have recorded : accessor.recording.strategy.insertReclaims = false := reclaims
    cases knows : registry.contains config.name with
    | true =>
      rw [acquire_known recorded knows]
      exact .updating _ rfl rfl
    | false =>
      rw [acquire_unknown recorded knows]
      simp only [Accessor.recording, List.nil_append]
      rcases (accessor.perform .insert config s).1 with fault | _ | _
      · exact .inserting _ rfl rfl (by simp)
      · rcases (accessor.perform .update config (accessor.perform .insert config s).2).1 with fault | acquired
        · exact .both _ rfl rfl
        · exact .both _ rfl rfl
      · exact .inserting _ rfl rfl (by simp)

/-- What a provider remembers after an attempt is what the attempt makes it remember, and what it remembered
before. -/
theorem contains_after_acquire {accessor : Accessor σ} (lasting : accessor.strategy.insertReclaims = false)
    (config : LockConfig) (registry : Registry) (s : σ) (name : String) :
    let last := acquire accessor.recording config registry (s, [])
    last.2.1.contains name = true ↔
      (Entry.attempted config last.2.2.2 (answerOf config last.1)).Remembers name ∨ registry.contains name = true := by
  have recorded : accessor.recording.strategy.insertReclaims = false := lasting
  cases knows : registry.contains config.name with
  | true =>
    rw [acquire_known recorded knows]
    simp [Accessor.recording, Entry.Remembers]
  | false =>
    rw [acquire_unknown recorded knows]
    simp only [Accessor.recording, List.nil_append]
    -- Only the attempt's own name is at stake, and that was not remembered before.
    by_cases same : config.name = name
    · subst same
      rcases (accessor.perform .insert config s).1 with fault | _ | _
      · simp [Entry.Remembers]
      · rcases (accessor.perform .update config (accessor.perform .insert config s).2).1 with fault | _ | _ <;>
          simp [Entry.Remembers, answerOf, Registry.contains_add, Registry.contains_remove, knows]
      · simp [Entry.Remembers, answerOf, Registry.contains_add]
    · have other : name ≠ config.name := Ne.symm same
      rcases (accessor.perform .insert config s).1 with fault | _ | _
      · simp [Entry.Remembers]
      · rcases (accessor.perform .update config (accessor.perform .insert config s).2).1 with fault | _ | _ <;>
          simp [Entry.Remembers, Registry.contains_add, Registry.contains_remove, same, other]
      · simp [Entry.Remembers, Registry.contains_add, same, other]

/-- What is observed of an attempt. -/
theorem observed_attempt (accessor : Accessor σ) (config : LockConfig) (registry : Registry) (stage : Stage σ) :
    let last := acquire accessor.recording config registry (stage.store, [])
    (accessor.observe (tryPlain · config registry) stage).1 = ((answerOf config last.1, last.2.1), last.2.2.2) := by
  obtain ⟨remembers, store⟩ :=
    @tryPlain_state _ accessor.recording ⟨(stage.store, []), stage.events⟩ config registry
  have calls : (accessor.observe (tryPlain · config registry) stage).1.2 =
      (acquire accessor.recording config registry (stage.store, [])).2.2.2 := congrArg (·.2) store
  exact Prod.ext (Prod.ext tryPlain_answer remembers) calls

/-! ## A history of attempts -/

theorem not_remembered_nil (name : String) : ¬ Remembered name [] := by
  rintro ⟨earlier, entry, later, split, -⟩
  simp at split

/-- What is remembered after one more entry. -/
theorem remembered_append {name : String} {before : List Entry} {entry : Entry} :
    Remembered name (before ++ [entry]) ↔ entry.Remembers name ∨ (entry ≠ .cleared ∧ Remembered name before) := by
  constructor
  · rintro ⟨earlier, first, later, split, remembers, kept⟩
    rcases List.eq_nil_or_concat later with rfl | ⟨rest, last, rfl⟩
    · obtain ⟨-, same⟩ := List.append_inj' split rfl
      cases same
      exact .inl remembers
    · right
      rw [List.concat_eq_append, ← List.cons_append, ← List.append_assoc] at split
      obtain ⟨rfl, same⟩ := List.append_inj' split rfl
      cases same
      exact ⟨fun cleared => kept (by simp [cleared]), earlier, first, rest, rfl, remembers,
        fun member => kept (by simp [member])⟩
  · rintro (remembers | ⟨kept, earlier, first, later, rfl, remembers, uncleared⟩)
    · exact ⟨before, entry, [], rfl, remembers, by simp⟩
    · refine ⟨earlier, first, later ++ [entry], by simp, remembers, ?_⟩
      intro member
      rcases List.mem_append.mp member with old | new
      · exact uncleared old
      · exact kept (List.mem_singleton.mp new).symm

/-- Every attempt of a history fails closed, if the registry agrees with what happened before. -/
theorem history_failsClosed {requests : List Request} {before after past : List Entry}
    {answer : Except LockError (Option Handle)}
    (agrees : accessor.strategy.insertReclaims = false →
      ∀ name, registry.contains name = true ↔ Remembered name past)
    (split : history accessor requests registry stage = before ++ .attempted config calls answer :: after) :
    FailsClosed accessor.strategy (Remembered config.name (past ++ before)) config calls answer := by
  induction requests generalizing registry stage before past with
  | nil => simp [history] at split
  | cons request rest ih =>
    cases request with
    | tryLock asked =>
      let last := acquire accessor.recording asked registry (stage.store, [])
      have course := course_of_acquire accessor asked registry stage.store
      rw [history, observed_attempt] at split
      cases before with
      | nil =>
        obtain ⟨same, -⟩ := List.cons.inj split
        cases same
        rw [List.append_nil]
        exact course.failsClosed fun lasting => agrees lasting config.name
      | cons first others =>
        obtain ⟨rfl, rest⟩ := List.cons.inj split
        rw [List.append_cons]
        refine ih ?_ rest
        intro lasting name
        have known : last.2.1.contains name = true ↔ _ ∨ registry.contains name = true :=
          contains_after_acquire lasting asked registry stage.store name
        rw [known, agrees lasting name, remembered_append]
        simp
    | clearCache =>
      cases before with
      | nil => cases (List.cons.inj split).1
      | cons first others =>
        obtain ⟨rfl, rest⟩ := List.cons.inj split
        rw [List.append_cons]
        refine ih ?_ rest
        intro lasting name
        simp [remembered_append, Entry.Remembers, Registry.contains_clear]

end Provider

/-- Whatever an accessor answers to its calls, and whatever was asked of a provider before: every attempt fails
closed. -/
theorem attempts_fail_closed {σ : Type} (accessor : Accessor σ) (requests : List Provider.Request)
    (stage : Stage σ) (before after : List Provider.Entry) (config : LockConfig) (calls : List Accessor.Call)
    (answer : Except LockError (Option Handle))
    (split : Provider.history accessor requests .empty stage = before ++ .attempted config calls answer :: after) :
    Provider.FailsClosed accessor.strategy (Provider.Remembered config.name before) config calls answer := by
  have agrees : ∀ name, Registry.empty.contains name = true ↔ Provider.Remembered name [] := by
    simp [Provider.not_remembered_nil]
  exact Provider.history_failsClosed (fun _ => agrees) split

/-- An accessor that answers what it is told to, one call after the other. -/
def Accessor.scripted (strategy : AcquireStrategy) : Accessor (List (Except StoreFault Bool)) where
  strategy
  perform _ _ answers := (answers.headD (.ok false), answers.tail)

/-- An attempt whose update fails is forgotten, one that is turned away is remembered, and the next one makes do
with an update. -/
theorem attempts_fail_closed_scripted :
    let accessor := Accessor.scripted .insertThenUpdate
    let answers := [.ok false, .error .unavailable, .ok false, .ok false, .ok true]
    let refused : Accessor.Call := ⟨.insert, .nightly, .ok false⟩
    let before : List Provider.Entry :=
      [.attempted .nightly [refused, ⟨.update, .nightly, .error .unavailable⟩] (.error (.storage .unavailable)),
        .attempted .nightly [refused, ⟨.update, .nightly, .ok false⟩] (.ok none)]
    Provider.history accessor (List.replicate 3 (.tryLock .nightly)) .empty { store := answers } =
        before ++ .attempted .nightly [⟨.update, .nightly, .ok true⟩] (.ok (some (.lease { config := .nightly }))) ::
          [] ∧
      Provider.FailsClosed .insertThenUpdate (Provider.Remembered "backup" before) .nightly
        [⟨.update, .nightly, .ok true⟩] (.ok (some (.lease { config := .nightly }))) := by
  intro accessor answers refused before
  have split : Provider.history accessor (List.replicate 3 (.tryLock .nightly)) .empty { store := answers } =
      before ++ .attempted .nightly [⟨.update, .nightly, .ok true⟩] (.ok (some (.lease { config := .nightly }))) ::
        [] := by decide +kernel
  exact ⟨split, attempts_fail_closed accessor _ _ before [] _ _ _ split⟩

end TaskLease

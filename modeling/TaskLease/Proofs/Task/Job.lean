import TaskLease.Task.Executor

/-!
# Jobs

A job is what a task does as far as locks are concerned: it asks for the locks around it, extends the innermost one,
runs tasks of its own under locks, and does other work in between. How it goes on depends on the answers it is given.

A job can be run with a journal of all that happens, each entry with the state right after it. `Chronicle` says what
such a journal can look like, and `chronicle_of_run` that it does, and that keeping it does not change the run.
-/

namespace TaskLease

/-- What a task does. `ρ` names providers, `μ` other work, and `α` are the results of tasks. -/
inductive Job (ρ μ α : Type) where
  | done (result : α)
  | isLocked (name : String) (next : Bool → Job ρ μ α)
  | assertLocked (next : Except LockError Unit → Job ρ μ α)
  | extendActive (atMost atLeast : Duration) (next : Except LockError Unit → Job ρ μ α)
  /-- Runs another task under a lock. -/
  | execute (provider : ρ) (config : LockConfig) (task : Job ρ μ α)
      (next : Except LockError (TaskOutcome α) → Job ρ μ α)
  /-- Does something to the state, or lets others do it. -/
  | work (move : μ) (next : Job ρ μ α)

/-- What is written down of a run. Locks are named by `η`. -/
inductive Entry (ρ η μ α : Type) where
  | isLocked (stack : LockStack η) (name : String) (answer : Bool)
  | assertLocked (stack : LockStack η) (answer : Except LockError Unit)
  /-- An extension of the innermost lock is asked for. -/
  | extendActive (stack : LockStack η) (atMost atLeast : Duration)
  | extended (answer : Except LockError Unit)
  /-- A task is handed to the executor. -/
  | execute (stack : LockStack η) (provider : ρ) (config : LockConfig)
  /-- The task starts to run, under the locks that it is given. -/
  | began (stack : LockStack η)
  | ended (result : α)
  /-- The executor is done with the task. -/
  | returned (answer : Except LockError (TaskOutcome α))
  | worked (stack : LockStack η) (move : μ)
  -- What is asked of providers and of handles, and how it is answered.
  | tryLock (provider : ρ) (config : LockConfig) (answer : Except LockError (Option η))
  | extend (handle : η) (atMost atLeast : Duration) (answer : Except LockError Bool)
  | unlock (handle : η) (answer : Except LockError Unit)
  | drop (handle : η)
  | tell (event : Event)

/-- The entries of a run, the first one first, each with the state right after it. -/
abbrev Journal (σ ρ η μ α : Type) := List (Entry ρ η μ α × σ)

variable {σ ρ η μ α β : Type}

/-- An action that leaves an entry in a journal. -/
def noting (action : StateM σ β) (entry : β → Entry ρ η μ α) : StateM (σ × Journal σ ρ η μ α) β := fun s =>
  let reply := action s.1
  (reply.1, (reply.2, s.2 ++ [(entry reply.1, reply.2)]))

/-- An action that leaves no entry. -/
def quietly (action : StateM σ β) : StateM (σ × Journal σ ρ η μ α) β := fun s =>
  let reply := action s.1
  (reply.1, (reply.2, s.2))

/-- The same providers and handles, with what is asked of them written down. -/
def Locking.recording (locking : Locking σ ρ η) : Locking (σ × Journal σ ρ η μ α) ρ η where
  tryLock provider config := noting (locking.tryLock provider config) (.tryLock provider config)
  unlock handle := noting (locking.unlock handle) (.unlock handle)
  extend handle atMost atLeast := noting (locking.extend handle atMost atLeast) (.extend handle atMost atLeast)
  drop handle := noting (locking.drop handle) fun _ => .drop handle
  tell event := noting (locking.tell event) fun _ => .tell event

namespace Job

/-- Runs a job under the locks around it. `note` is told of each thing that happens. -/
def run (locking : Locking σ ρ η) (work : μ → StateM σ Unit) (note : Entry ρ η μ α → StateM σ Unit) :
    Job ρ μ α → LockStack η → StateM σ α
  | .done result, _ => return result
  | .isLocked name next, stack => do
    note (.isLocked stack name (stack.isLocked name))
    (next (stack.isLocked name)).run locking work note stack
  | .assertLocked next, stack => do
    note (.assertLocked stack stack.assertLocked)
    (next stack.assertLocked).run locking work note stack
  | .extendActive atMost atLeast next, stack => do
    note (.extendActive stack atMost atLeast)
    let answer ← locking.extendActive stack atMost atLeast
    note (.extended answer)
    (next answer).run locking work note stack
  | .execute provider config task next, stack => do
    note (.execute stack provider config)
    let answer ← locking.execute provider config stack fun stack => do
      note (.began stack)
      let result ← task.run locking work note stack
      note (.ended result)
      return result
    note (.returned answer)
    (next answer).run locking work note stack
  | .work move next, stack => do
    work move
    note (.worked stack move)
    next.run locking work note stack

/-- Runs a job, and writes nothing down. -/
def perform (locking : Locking σ ρ η) (work : μ → StateM σ Unit) (job : Job ρ μ α) (stack : LockStack η) :
    StateM σ α :=
  job.run locking work (fun _ => pure ()) stack

/-- Runs a job, and keeps a journal. -/
def record (locking : Locking σ ρ η) (work : μ → StateM σ Unit) (job : Job ρ μ α) (stack : LockStack η) :
    StateM (σ × Journal σ ρ η μ α) α :=
  job.run locking.recording (fun move => quietly (work move)) (fun entry => noting (pure ()) fun _ => entry) stack

end Job

/-! ## What the executor does -/

/-- What an extension of the innermost lock comes to, by the answer of its handle. -/
def extensionOf (name : String) : Except LockError Bool → Except LockError Unit
  | .ok true => .ok ()
  | .ok false => .error (.cannotExtend name)
  | .error e => .error e

namespace Locking

variable {locking : Locking σ ρ η} {provider : ρ} {config : LockConfig} {stack : LockStack η}
  {task : LockStack η → StateM σ α} {handle : η} {e : LockError} {s t u : σ}

theorem extendActive_innermost {active : ActiveLock η} {atMost atLeast : Duration} {answer : Except LockError Bool}
    (extended : locking.extend active.handle atMost atLeast s = (answer, u)) :
    locking.extendActive (active :: stack) atMost atLeast s = (extensionOf active.name answer, u) := by
  simp only [extendActive, bind, StateT.bind, extended]
  rcases answer with e | _ | _ <;> rfl

theorem execute_direct (locked : stack.isLocked config.name = true) :
    locking.execute provider config stack task s = (.ok (.executed (task stack s).1), (task stack s).2) := by
  rw [execute, if_pos locked]
  rfl

theorem execute_failed (free : stack.isLocked config.name = false)
    (answer : locking.tryLock provider config s = (.error e, u)) :
    locking.execute provider config stack task s = (.error e, u) := by
  simp only [execute, free, Bool.false_eq_true, if_false, bind, StateT.bind, answer]
  rfl

theorem execute_skipped (free : stack.isLocked config.name = false)
    (answer : locking.tryLock provider config s = (.ok none, u)) :
    locking.execute provider config stack task s = (.ok .skipped, u) := by
  simp only [execute, free, Bool.false_eq_true, if_false, bind, StateT.bind, answer]
  rfl

theorem execute_released {result : α} (free : stack.isLocked config.name = false)
    (answer : locking.tryLock provider config s = (.ok (some handle), u))
    (ran : task (⟨config.name, handle⟩ :: stack) u = (result, t)) {w : σ}
    (released : locking.unlock handle t = (.ok (), w)) :
    locking.execute provider config stack task s = (.ok (.executed result), (locking.drop handle w).2) := by
  simp only [execute, free, Bool.false_eq_true, if_false, bind, StateT.bind, answer, ran, released]
  rfl

theorem execute_unreleased {result : α} (free : stack.isLocked config.name = false)
    (answer : locking.tryLock provider config s = (.ok (some handle), u))
    (ran : task (⟨config.name, handle⟩ :: stack) u = (result, t)) {w : σ}
    (failed : locking.unlock handle t = (.error e, w)) :
    locking.execute provider config stack task s =
      (.ok (.executed result),
        (locking.drop handle (locking.tell (.log .releaseAfterTaskFailed config.name) w).2).2) := by
  simp only [execute, free, Bool.false_eq_true, if_false, bind, StateT.bind, answer, ran, failed]
  rfl

end Locking

/-! ## What a journal looks like -/

/-- The release of a lock after its task. That it failed is told, and changes nothing else. -/
inductive Release (locking : Locking σ ρ η) (name : String) (handle : η) (s : σ) : Journal σ ρ η μ α → σ → Prop
  | done {u} : locking.unlock handle s = (.ok (), u) →
    Release locking name handle s [(.unlock handle (.ok ()), u), (.drop handle, (locking.drop handle u).2)]
      (locking.drop handle u).2
  | failed {e u v} : locking.unlock handle s = (.error e, u) →
    (locking.tell (.log .releaseAfterTaskFailed name) u).2 = v →
    Release locking name handle s
      [(.unlock handle (.error e), u), (.tell (.log .releaseAfterTaskFailed name), v),
        (.drop handle, (locking.drop handle v).2)]
      (locking.drop handle v).2

/-- The journal of a job that runs under some locks, from one state to another. -/
inductive Chronicle (locking : Locking σ ρ η) (work : μ → StateM σ Unit) :
    LockStack η → σ → Journal σ ρ η μ α → σ → Prop
  | done (stack s) : Chronicle locking work stack s [] s
  | isLocked {stack s rest t} (name : String) : Chronicle locking work stack s rest t →
    Chronicle locking work stack s ((.isLocked stack name (stack.isLocked name), s) :: rest) t
  | assertLocked {stack s rest t} : Chronicle locking work stack s rest t →
    Chronicle locking work stack s ((.assertLocked stack stack.assertLocked, s) :: rest) t
  | worked {stack s rest t} (move : μ) : Chronicle locking work stack (work move s).2 rest t →
    Chronicle locking work stack s ((.worked stack move, (work move s).2) :: rest) t
  | extendNothing {s rest t} (atMost atLeast : Duration) : Chronicle locking work [] s rest t →
    Chronicle locking work [] s
      ((.extendActive [] atMost atLeast, s) :: (.extended (.error .noActiveLock), s) :: rest) t
  | extendInnermost {active outer s u rest t answer} (atMost atLeast : Duration) :
    locking.extend active.handle atMost atLeast s = (answer, u) → Chronicle locking work (active :: outer) u rest t →
    Chronicle locking work (active :: outer) s
      ((.extendActive (active :: outer) atMost atLeast, s) :: (.extend active.handle atMost atLeast answer, u) ::
        (.extended (extensionOf active.name answer), u) :: rest) t
  /-- A task under a lock that is already around it runs directly. -/
  | direct {stack s task u rest t} (provider : ρ) (config : LockConfig) (result : α) :
    LockStack.isLocked stack config.name = true → Chronicle locking work stack s task u →
    Chronicle locking work stack u rest t →
    Chronicle locking work stack s
      ((.execute stack provider config, s) :: (.began stack, s) :: task ++
        (.ended result, u) :: (.returned (.ok (.executed result)), u) :: rest) t
  | failed {stack s u rest t provider config e} : LockStack.isLocked stack config.name = false →
    locking.tryLock provider config s = (.error e, u) → Chronicle locking work stack u rest t →
    Chronicle locking work stack s
      ((.execute stack provider config, s) :: (.tryLock provider config (.error e), u) ::
        (.returned (.error e), u) :: rest) t
  | skipped {stack s u rest t provider config} : LockStack.isLocked stack config.name = false →
    locking.tryLock provider config s = (.ok none, u) → Chronicle locking work stack u rest t →
    Chronicle locking work stack s
      ((.execute stack provider config, s) :: (.tryLock provider config (.ok none), u) ::
        (.returned (.ok .skipped), u) :: rest) t
  | guarded {stack s u task v release w rest t provider config handle} (result : α) :
    LockStack.isLocked stack config.name = false → locking.tryLock provider config s = (.ok (some handle), u) →
    Chronicle locking work (⟨config.name, handle⟩ :: stack) u task v →
    Release locking config.name handle v release w → Chronicle locking work stack w rest t →
    Chronicle locking work stack s
      ((.execute stack provider config, s) :: (.tryLock provider config (.ok (some handle)), u) ::
        (.began (⟨config.name, handle⟩ :: stack), u) :: task ++
        (.ended result, v) :: release ++ (.returned (.ok (.executed result)), w) :: rest) t

variable {locking : Locking σ ρ η} {work : μ → StateM σ Unit}

/-! ## Keeping a journal -/

/-- A task with its beginning and its end, as a job that keeps a journal hands it to the executor. -/
def Job.recordTask (locking : Locking σ ρ η) (work : μ → StateM σ Unit) (task : Job ρ μ α) (stack : LockStack η) :
    StateM (σ × Journal σ ρ η μ α) α := do
  noting (pure ()) fun _ => .began stack
  let result ← task.record locking work stack
  noting (pure ()) fun _ => .ended result
  return result

section

variable {task : Job ρ μ α} {stack : LockStack η} {provider : ρ} {config : LockConfig} {handle : η} {name : String}
  {result : α} {s t u : σ} {journal more : Journal σ ρ η μ α}

theorem perform_extendActive {atMost atLeast : Duration} {next : Except LockError Unit → Job ρ μ α} :
    (Job.extendActive atMost atLeast next).perform locking work stack s =
      (let reply := locking.extendActive stack atMost atLeast s
      (next reply.1).perform locking work stack reply.2) :=
  rfl

theorem record_extendActive {atMost atLeast : Duration} {next : Except LockError Unit → Job ρ μ α} :
    (Job.extendActive atMost atLeast next).record locking work stack (s, journal) =
      (let reply := locking.recording.extendActive stack atMost atLeast
        (s, journal ++ [(.extendActive stack atMost atLeast, s)])
      (next reply.1).record locking work stack (reply.2.1, reply.2.2 ++ [(.extended reply.1, reply.2.1)])) :=
  rfl

theorem perform_execute {next : Except LockError (TaskOutcome α) → Job ρ μ α} :
    (Job.execute provider config task next).perform locking work stack s =
      (let reply := locking.execute provider config stack (task.perform locking work) s
      (next reply.1).perform locking work stack reply.2) :=
  rfl

theorem record_execute {next : Except LockError (TaskOutcome α) → Job ρ μ α} :
    (Job.execute provider config task next).record locking work stack (s, journal) =
      (let reply := locking.recording.execute provider config stack (task.recordTask locking work)
        (s, journal ++ [(.execute stack provider config, s)])
      (next reply.1).record locking work stack (reply.2.1, reply.2.2 ++ [(.returned reply.1, reply.2.1)])) :=
  rfl

theorem recordTask_of_record
    (same : task.record locking work stack (s, journal ++ [(.began stack, s)]) = (result, (t, more))) :
    task.recordTask locking work stack (s, journal) = (result, (t, more ++ [(.ended result, t)])) := by
  have begun : task.recordTask locking work stack (s, journal) =
      (let reply := task.record locking work stack (s, journal ++ [(.began stack, s)])
      (reply.1, (reply.2.1, reply.2.2 ++ [(.ended reply.1, reply.2.1)]))) := rfl
  rw [begun, same]

theorem recording_tryLock {answer : Except LockError (Option η)}
    (answered : locking.tryLock provider config s = (answer, u)) :
    locking.recording.tryLock provider config (s, journal) =
      (answer, (u, journal ++ [(.tryLock provider config answer, u)])) := by
  simp only [Locking.recording, noting, answered]

theorem recording_extend {atMost atLeast : Duration} {answer : Except LockError Bool}
    (answered : locking.extend handle atMost atLeast s = (answer, u)) :
    locking.recording.extend handle atMost atLeast (s, journal) =
      (answer, (u, journal ++ [(.extend handle atMost atLeast answer, u)])) := by
  simp only [Locking.recording, noting, answered]

theorem recording_unlock {answer : Except LockError Unit} (answered : locking.unlock handle s = (answer, u)) :
    locking.recording.unlock handle (s, journal) = (answer, (u, journal ++ [(.unlock handle answer, u)])) := by
  simp only [Locking.recording, noting, answered]

/-- An executor with a lock comes to its task's result, whatever becomes of the release, and the journal shows the
task and the release. -/
theorem recording_execute {inside : Journal σ ρ η μ α} (free : stack.isLocked config.name = false)
    (answer : locking.tryLock provider config s = (.ok (some handle), u))
    (ran : task.perform locking work (⟨config.name, handle⟩ :: stack) u = (result, t))
    (recorded : task.record locking work (⟨config.name, handle⟩ :: stack)
      (u, journal ++ [(.tryLock provider config (.ok (some handle)), u)] ++
        [(.began (⟨config.name, handle⟩ :: stack), u)]) = (result, (t, inside))) :
    ∃ release w, Release locking config.name handle t release w ∧
      locking.execute provider config stack (task.perform locking work) s = (.ok (.executed result), w) ∧
      locking.recording.execute provider config stack (task.recordTask locking work) (s, journal) =
        (.ok (.executed result), (w, inside ++ [(.ended result, t)] ++ release)) := by
  have task_ran := recordTask_of_record recorded
  rcases released : locking.unlock handle t with ⟨e | ⟨⟨⟩⟩, v⟩
  · refine ⟨_, _, .failed released rfl, Locking.execute_unreleased free answer ran released, ?_⟩
    rw [Locking.execute_unreleased free (recording_tryLock answer) task_ran (recording_unlock released)]
    simp [Locking.recording, noting]
  · refine ⟨_, _, .done released, Locking.execute_released free answer ran released, ?_⟩
    rw [Locking.execute_released free (recording_tryLock answer) task_ran (recording_unlock released)]
    simp [Locking.recording, noting]

end

/-! ## Journals are chronicles -/

namespace Job

/-- Under some locks and from some state, a run that keeps a journal comes to the same answer and the same state as one
that does not, and what it adds to the journal is a chronicle. -/
def Chronicled (locking : Locking σ ρ η) (work : μ → StateM σ Unit) (job : Job ρ μ α) (stack : LockStack η) (s : σ) :
    Prop :=
  ∀ journal : Journal σ ρ η μ α,
    let plain := job.perform locking work stack s
    ∃ more, job.record locking work stack (s, journal) = (plain.1, (plain.2, journal ++ more)) ∧
      Chronicle locking work stack s more plain.2

variable {task : Job ρ μ α} {stack : LockStack η} {s : σ}

theorem chronicled_extendActive {atMost atLeast : Duration} {next : Except LockError Unit → Job ρ μ α}
    (goes_on : ∀ answer s, (next answer).Chronicled locking work stack s) :
    (Job.extendActive atMost atLeast next).Chronicled locking work stack s := by
  intro journal
  cases stack with
  | nil =>
    obtain ⟨more, same, chronicle⟩ := goes_on (.error .noActiveLock) s
      (journal ++ [(.extendActive [] atMost atLeast, s)] ++ [(.extended (.error .noActiveLock), s)])
    exact ⟨_, same.trans (by simp; rfl), .extendNothing atMost atLeast chronicle⟩
  | cons active outer =>
    rcases answer : locking.extend active.handle atMost atLeast s with ⟨extended, u⟩
    obtain ⟨more, same, chronicle⟩ := goes_on (extensionOf active.name extended) u
      (journal ++ [(.extendActive (active :: outer) atMost atLeast, s)] ++
        [(.extend active.handle atMost atLeast extended, u)] ++ [(.extended (extensionOf active.name extended), u)])
    rw [perform_extendActive, record_extendActive, Locking.extendActive_innermost answer,
      Locking.extendActive_innermost (recording_extend answer)]
    exact ⟨_, same.trans (by simp), .extendInnermost atMost atLeast answer chronicle⟩

section

variable {provider : ρ} {config : LockConfig} {next : Except LockError (TaskOutcome α) → Job ρ μ α}

/-- A call of the executor is chronicled if what follows it is, and if the executor comes to the same with a journal
as without one. -/
theorem chronicled_of_execute {answer : Except LockError (TaskOutcome α)} {u : σ}
    (goes_on : (next answer).Chronicled locking work stack u) (journal call : Journal σ ρ η μ α)
    (plain : locking.execute provider config stack (task.perform locking work) s = (answer, u))
    (recorded : locking.recording.execute provider config stack (task.recordTask locking work)
      (s, journal ++ [(.execute stack provider config, s)]) =
        (answer, (u, journal ++ [(.execute stack provider config, s)] ++ call)))
    (chronicle : ∀ rest t, Chronicle locking work stack u rest t →
      Chronicle locking work stack s ((.execute stack provider config, s) :: call ++ (.returned answer, u) :: rest) t) :
    let whole := (Job.execute provider config task next).perform locking work stack s
    ∃ more, (Job.execute provider config task next).record locking work stack (s, journal) =
        (whole.1, (whole.2, journal ++ more)) ∧ Chronicle locking work stack s more whole.2 := by
  rw [perform_execute, record_execute, plain, recorded]
  obtain ⟨more, later, rest⟩ := goes_on
    (journal ++ [(.execute stack provider config, s)] ++ call ++ [(.returned answer, u)])
  exact ⟨_, later.trans (by simp), chronicle more _ rest⟩

theorem chronicled_execute (inside : ∀ stack s, task.Chronicled locking work stack s)
    (goes_on : ∀ answer s, (next answer).Chronicled locking work stack s) :
    (Job.execute provider config task next).Chronicled locking work stack s := by
  intro journal
  cases locked : LockStack.isLocked stack config.name with
  | true =>
    rcases ran : task.perform locking work stack s with ⟨result, u⟩
    obtain ⟨more, same, chronicle⟩ :=
      inside stack s (journal ++ [(.execute stack provider config, s)] ++ [(.began stack, s)])
    rw [ran] at same chronicle
    refine chronicled_of_execute (goes_on (.ok (.executed result)) u) journal
      ((.began stack, s) :: more ++ [(.ended result, u)]) ?_ ?_ fun rest t later => ?_
    · rw [Locking.execute_direct locked, ran]
    · rw [Locking.execute_direct locked, recordTask_of_record same]
      simp
    · simpa using Chronicle.direct provider config result locked chronicle later
  | false =>
    rcases answer : locking.tryLock provider config s with ⟨e | _ | handle, u⟩
    · exact chronicled_of_execute (goes_on (.error e) u) journal [_] (Locking.execute_failed locked answer)
        (Locking.execute_failed locked (recording_tryLock answer)) fun rest t => .failed locked answer
    · exact chronicled_of_execute (goes_on (.ok .skipped) u) journal [_] (Locking.execute_skipped locked answer)
        (Locking.execute_skipped locked (recording_tryLock answer)) fun rest t => .skipped locked answer
    · rcases ran : task.perform locking work (⟨config.name, handle⟩ :: stack) u with ⟨result, v⟩
      obtain ⟨more, same, chronicle⟩ := inside (⟨config.name, handle⟩ :: stack) u
        (journal ++ [(.execute stack provider config, s)] ++ [(.tryLock provider config (.ok (some handle)), u)] ++
          [(.began (⟨config.name, handle⟩ :: stack), u)])
      rw [ran] at same chronicle
      obtain ⟨release, w, released, plain, recorded⟩ := recording_execute locked answer ran same
      refine chronicled_of_execute (goes_on (.ok (.executed result)) w) journal
        ((.tryLock provider config (.ok (some handle)), u) :: (.began (⟨config.name, handle⟩ :: stack), u) :: more ++
          (.ended result, v) :: release) plain ?_ fun rest t later => ?_
      · rw [recorded]
        simp
      · simpa using Chronicle.guarded result locked answer chronicle released later

end

end Job

/-- Every job is chronicled, whatever providers and handles do. -/
theorem chronicle_of_run (locking : Locking σ ρ η) (work : μ → StateM σ Unit) (job : Job ρ μ α)
    (stack : LockStack η) (s : σ) : job.Chronicled locking work stack s := by
  induction job generalizing stack s with
  | done result => exact fun journal => ⟨[], by simp; rfl, .done stack s⟩
  | isLocked name next ih =>
    intro journal
    obtain ⟨more, same, chronicle⟩ := ih (stack.isLocked name) stack s
      (journal ++ [(.isLocked stack name (stack.isLocked name), s)])
    exact ⟨_, same.trans (by simp; rfl), .isLocked name chronicle⟩
  | assertLocked next ih =>
    intro journal
    obtain ⟨more, same, chronicle⟩ := ih stack.assertLocked stack s
      (journal ++ [(.assertLocked stack stack.assertLocked, s)])
    exact ⟨_, same.trans (by simp; rfl), .assertLocked chronicle⟩
  | extendActive atMost atLeast next ih => exact Job.chronicled_extendActive fun answer s => ih answer stack s
  | execute provider config task next ih_task ih_next =>
    exact Job.chronicled_execute ih_task fun answer s => ih_next answer stack s
  | work move next ih =>
    intro journal
    obtain ⟨more, same, chronicle⟩ := ih stack (work move s).2 (journal ++ [(.worked stack move, (work move s).2)])
    exact ⟨_, same.trans (by simp; rfl), .worked move chronicle⟩

/-! ## From one entry to the next -/

section

variable {R : σ → σ → Prop}

/-- The states of a journal are linked: the first one with what is there before, the last one with what is there
after. -/
def Linked (R : σ → σ → Prop) : σ → Journal σ ρ η μ α → σ → Prop
  | s, [], t => s = t
  | s, entry :: rest, t => R s entry.2 ∧ Linked R entry.2 rest t

theorem linked_append {s t : σ} {first second : Journal σ ρ η μ α} :
    Linked R s (first ++ second) t ↔ ∃ u, Linked R s first u ∧ Linked R u second t := by
  induction first generalizing s with
  | nil => simp [Linked]
  | cons entry rest ih => simp [Linked, ih, and_assoc]

/-- Whatever providers, handles and others do relates the states before it and after it. -/
structure Links (R : σ → σ → Prop) (locking : Locking σ ρ η) (work : μ → StateM σ Unit) : Prop where
  refl : ∀ s, R s s
  tryLock : ∀ provider config s, R s (locking.tryLock provider config s).2
  unlock : ∀ handle s, R s (locking.unlock handle s).2
  extend : ∀ handle atMost atLeast s, R s (locking.extend handle atMost atLeast s).2
  drop : ∀ handle s, R s (locking.drop handle s).2
  tell : ∀ event s, R s (locking.tell event s).2
  work : ∀ move s, R s (work move s).2

theorem Release.linked {name : String} {handle : η} {s t : σ} {journal : Journal σ ρ η μ α}
    (release : Release locking name handle s journal t) (links : Links R locking work) : Linked R s journal t := by
  cases release with
  | @done u unlocked =>
    have first := links.unlock handle s
    rw [unlocked] at first
    exact ⟨first, links.drop handle u, rfl⟩
  | @failed _ u v unlocked told =>
    have first := links.unlock handle s
    rw [unlocked] at first
    have second := links.tell (.log .releaseAfterTaskFailed name) u
    rw [told] at second
    exact ⟨first, second, links.drop handle v, rfl⟩

theorem Chronicle.linked {stack : LockStack η} {s t : σ} {journal : Journal σ ρ η μ α}
    (chronicle : Chronicle locking work stack s journal t) (links : Links R locking work) : Linked R s journal t := by
  induction chronicle with
  | done => rfl
  | isLocked _ _ ih => exact ⟨links.refl _, ih⟩
  | assertLocked _ ih => exact ⟨links.refl _, ih⟩
  | worked move _ ih => exact ⟨links.work move _, ih⟩
  | extendNothing _ _ _ ih => exact ⟨links.refl _, links.refl _, ih⟩
  | @extendInnermost active outer s u _ _ _ atMost atLeast answer _ ih =>
    have extended := links.extend active.handle atMost atLeast s
    rw [answer] at extended
    exact ⟨links.refl _, extended, links.refl _, ih⟩
  | direct _ _ _ _ _ _ ih_task ih_rest =>
    exact linked_append.mpr ⟨_, ⟨links.refl _, links.refl _, ih_task⟩, links.refl _, links.refl _, ih_rest⟩
  | @failed _ s _ _ _ provider config _ _ answer _ ih | @skipped _ s _ _ _ provider config _ answer _ ih =>
    have attempt := links.tryLock provider config s
    rw [answer] at attempt
    exact ⟨links.refl _, attempt, links.refl _, ih⟩
  | @guarded _ s _ _ _ _ _ _ _ provider config _ _ _ answer _ release _ ih_task ih_rest =>
    have attempt := links.tryLock provider config s
    rw [answer] at attempt
    refine linked_append.mpr ⟨_, linked_append.mpr ⟨_, ⟨links.refl _, attempt, links.refl _, ih_task⟩,
      links.refl _, release.linked links⟩, links.refl _, ih_rest⟩

end

end TaskLease

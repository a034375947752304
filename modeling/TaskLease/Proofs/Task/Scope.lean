import Mathlib.Data.List.Induction
import TaskLease.Proofs.Task.Job

/-!
# Locks around tasks

The locks around a task are those of the calls of the executor that it runs in. They can be read off the journal alone:
`enclosing` does so by keeping the calls that have not returned yet. `Entry.Lawful` says what each entry of a journal
tells of what stands before it and after it, and `Scoped` that all entries are lawful and that acquisitions and
releases pair up like brackets.
-/

namespace TaskLease

variable {σ ρ η μ α : Type}

namespace LockStack

variable {stack : LockStack η} {name : String}

/-- The names of the locks around a task. -/
def names (stack : LockStack η) : List String := stack.map (·.name)

theorem isLocked_iff : stack.isLocked name = true ↔ name ∈ stack.names := by
  simp [isLocked, names]

theorem not_isLocked_iff : stack.isLocked name = false ↔ name ∉ stack.names := by
  rw [← isLocked_iff, Bool.not_eq_true]

theorem assertLocked_eq_ok_iff : stack.assertLocked = .ok () ↔ stack ≠ [] := by
  cases stack <;> simp [assertLocked]

end LockStack

/-! ## Calls and handles in a journal -/

/-- The calls of the executor that have not returned after an entry, the innermost one first. Each comes with the lock
that it has acquired, if it has acquired one. -/
def Entry.calls (calls : List (Option (ActiveLock η))) : Entry ρ η μ α → List (Option (ActiveLock η))
  | .execute _ _ _ => none :: calls
  | .tryLock _ config (.ok (some handle)) => some ⟨config.name, handle⟩ :: calls.tail
  | .returned _ => calls.tail
  | _ => calls

/-- The calls that have not returned after a journal. -/
def callsAfter (calls : List (Option (ActiveLock η))) (journal : Journal σ ρ η μ α) : List (Option (ActiveLock η)) :=
  journal.foldl (fun calls entry => entry.1.calls calls) calls

/-- The locks of the calls that have not returned, the innermost one first. -/
def enclosing (journal : Journal σ ρ η μ α) : LockStack η := (callsAfter [] journal).filterMap id

/-- The handles to be released after an entry, from those to be released before it: the last one acquired is the first
one released. -/
def Entry.Settles (before after : List η) : Entry ρ η μ α → Prop
  | .tryLock _ _ (.ok (some handle)) => after = handle :: before
  | .unlock handle _ => before = handle :: after
  | _ => after = before

/-- The handles to be released after a journal, from those to be released before it. -/
inductive Settles : List η → Journal σ ρ η μ α → List η → Prop
  | nil (held) : Settles held [] held
  | cons {held next left entry s rest} : Entry.Settles held next entry → Settles next rest left →
    Settles held ((entry, s) :: rest) left

/-- All calls in a journal have returned, and all handles that were acquired in it are released. -/
structure Complete (journal : Journal σ ρ η μ α) : Prop where
  calls : ∀ calls, callsAfter calls journal = calls
  settles : Settles [] journal []

/-! ## Laws -/

/-- The locks around a task are those of the calls that it runs in, and have different names. -/
structure Around (before : Journal σ ρ η μ α) (stack : LockStack η) : Prop where
  stack_eq : stack = enclosing before
  distinct : stack.names.Nodup

/-- What follows when an extension of the innermost lock is asked for. -/
inductive Extension (locking : Locking σ ρ η) (atMost atLeast : Duration) (s : σ) :
    LockStack η → Journal σ ρ η μ α → Prop
  | nothing : Extension locking atMost atLeast s [] [(.extended (.error .noActiveLock), s)]
  | innermost {active outer answer t} : locking.extend active.handle atMost atLeast s = (answer, t) →
    Extension locking atMost atLeast s (active :: outer)
      [(.extend active.handle atMost atLeast answer, t), (.extended (extensionOf active.name answer), t)]

/-- What follows when a task is handed to the executor, until that is done with it. -/
inductive Execution (locking : Locking σ ρ η) (stack : LockStack η) (provider : ρ) (config : LockConfig) (s : σ) :
    Journal σ ρ η μ α → Prop
  /-- Under a lock of its name the task runs with nothing asked of the provider, and no lock more. -/
  | direct {task} (result : α) (t : σ) : config.name ∈ stack.names → Complete task →
    Execution locking stack provider config s
      ((.began stack, s) :: task ++ [(.ended result, t), (.returned (.ok (.executed result)), t)])
  | failed {e t} : config.name ∉ stack.names →
    Execution locking stack provider config s [(.tryLock provider config (.error e), t), (.returned (.error e), t)]
  | skipped {t} : config.name ∉ stack.names →
    Execution locking stack provider config s
      [(.tryLock provider config (.ok none), t), (.returned (.ok .skipped), t)]
  /-- The task runs under the lock acquired, which is released when it is done. Its result is what is returned. -/
  | guarded {handle task u release v} (result : α) (t : σ) : config.name ∉ stack.names → Complete task →
    Release locking config.name handle u release v →
    Execution locking stack provider config s
      ((.tryLock provider config (.ok (some handle)), t) :: (.began (⟨config.name, handle⟩ :: stack), t) :: task ++
        (.ended result, u) :: release ++ [(.returned (.ok (.executed result)), v)])

/-- What an entry, with the state after it, tells of what stands before it and after it. -/
def Entry.Lawful (locking : Locking σ ρ η) (before : Journal σ ρ η μ α) (s : σ) (after : Journal σ ρ η μ α) :
    Entry ρ η μ α → Prop
  | .isLocked stack name answer => Around before stack ∧ (answer = true ↔ name ∈ stack.names)
  | .assertLocked stack answer => Around before stack ∧ (answer = .ok () ↔ stack ≠ [])
  | .worked stack _ => Around before stack
  | .extendActive stack atMost atLeast =>
    Around before stack ∧
      ∃ extension rest, after = extension ++ rest ∧ Extension locking atMost atLeast s stack extension
  | .execute stack provider config =>
    Around before stack ∧ ∃ call rest, after = call ++ rest ∧ Execution locking stack provider config s call
  -- A task runs only where its name is around it already, or with the lock just acquired.
  | .began stack =>
    Around before stack ∧
      ((∃ earlier provider config, before = earlier ++ [(.execute stack provider config, s)] ∧
          config.name ∈ stack.names) ∨
        ∃ earlier provider config handle outer,
          before = earlier ++ [(.tryLock provider config (.ok (some handle)), s)] ∧
            stack = ⟨config.name, handle⟩ :: outer)
  | .tryLock provider config answer =>
    ∃ earlier stack t, before = earlier ++ [(.execute stack provider config, t)] ∧ config.name ∉ stack.names ∧
      locking.tryLock provider config t = (answer, s)
  | .extend handle atMost atLeast answer =>
    ∃ earlier active outer t, before = earlier ++ [(.extendActive (active :: outer) atMost atLeast, t)] ∧
      handle = active.handle ∧ locking.extend handle atMost atLeast t = (answer, s)
  -- The handle is that of the innermost call, whose task has just ended.
  | .unlock handle answer =>
    ∃ earlier result t, before = earlier ++ [(.ended result, t)] ∧ locking.unlock handle t = (answer, s) ∧
      ∃ name outer, callsAfter [] before = some ⟨name, handle⟩ :: outer
  | .extended _ | .ended _ | .returned _ | .drop _ | .tell _ => True

/-- What holds of the journal of a job. -/
structure Scoped (locking : Locking σ ρ η) (journal : Journal σ ρ η μ α) : Prop where
  complete : Complete journal
  lawful : ∀ before entry s after, journal = before ++ (entry, s) :: after → entry.Lawful locking before s after

/-! ## Chronicles -/

section

variable {journal more : Journal σ ρ η μ α} {calls : List (Option (ActiveLock η))} {held mid left : List η}

@[simp] theorem callsAfter_nil : callsAfter calls ([] : Journal σ ρ η μ α) = calls := rfl

@[simp] theorem callsAfter_cons (entry : Entry ρ η μ α) (s : σ) :
    callsAfter calls ((entry, s) :: journal) = callsAfter (entry.calls calls) journal := rfl

@[simp] theorem callsAfter_append : callsAfter calls (journal ++ more) = callsAfter (callsAfter calls journal) more :=
  List.foldl_append

theorem settles_append (first : Settles held journal mid) (second : Settles mid more left) :
    Settles held (journal ++ more) left := by
  induction first with
  | nil => exact second
  | cons here _ ih => exact .cons here (ih second)

end

/-- A lock of a call that has not returned after an entry was there before, or has just been acquired. -/
theorem Entry.mem_calls {calls : List (Option (ActiveLock η))} {entry : Entry ρ η μ α} {lock : ActiveLock η}
    (member : some lock ∈ entry.calls calls) :
    some lock ∈ calls ∨ ∃ provider config handle, entry = .tryLock provider config (.ok (some handle)) ∧
      lock = ⟨config.name, handle⟩ := by
  unfold Entry.calls at member
  split at member
  · exact .inl (by simpa using member)
  · rcases List.mem_cons.mp member with same | earlier
    · exact .inr ⟨_, _, _, rfl, Option.some.inj same⟩
    · exact .inl (List.mem_of_mem_tail earlier)
  · exact .inl (List.mem_of_mem_tail member)
  · exact .inl member

/-- Every lock around a task was acquired by an attempt. -/
theorem exists_tryLock_of_enclosing {journal : Journal σ ρ η μ α} {lock : ActiveLock η}
    (member : lock ∈ enclosing journal) :
    ∃ earlier provider config s between,
      journal = earlier ++ (.tryLock provider config (.ok (some lock.handle)), s) :: between ∧
        config.name = lock.name := by
  have open_call : some lock ∈ callsAfter [] journal := by simpa [enclosing] using member
  clear member
  induction journal using List.reverseRecOn with
  | nil => cases open_call
  | append_singleton journal entry ih =>
    rw [callsAfter_append] at open_call
    rcases Entry.mem_calls open_call with before | ⟨provider, config, handle, attempt, rfl⟩
    · obtain ⟨earlier, provider, config, s, between, rfl, named⟩ := ih before
      exact ⟨earlier, provider, config, s, between ++ [entry], by simp, named⟩
    · exact ⟨journal, provider, config, entry.2, [], by rw [← attempt], rfl⟩

variable {locking : Locking σ ρ η} {work : μ → StateM σ Unit} {stack : LockStack η} {s t : σ}
  {journal : Journal σ ρ η μ α}

theorem Release.calls_eq {name : String} {handle : η} (release : Release locking name handle s journal t)
    (calls : List (Option (ActiveLock η))) : callsAfter calls journal = calls := by
  cases release <;> rfl

theorem Release.settles {name : String} {handle : η} (release : Release locking name handle s journal t)
    (held : List η) : Settles (handle :: held) journal held := by
  cases release with
  | done => exact .cons rfl (.cons rfl (.nil held))
  | failed => exact .cons rfl (.cons rfl (.cons rfl (.nil held)))

theorem Chronicle.calls_eq (chronicle : Chronicle locking work stack s journal t)
    (calls : List (Option (ActiveLock η))) : callsAfter calls journal = calls := by
  induction chronicle generalizing calls with
  | done => rfl
  | isLocked _ _ ih | assertLocked _ ih | worked _ _ ih => exact ih calls
  | extendNothing _ _ _ ih | extendInnermost _ _ _ _ ih => exact ih calls
  | direct _ _ _ _ _ _ ih_task ih_rest => simp [Entry.calls, ih_task, ih_rest]
  | failed _ _ _ ih | skipped _ _ _ ih => simp [Entry.calls, ih]
  | guarded _ _ _ _ release _ ih_task ih_rest => simp [Entry.calls, ih_task, release.calls_eq, ih_rest]

theorem Chronicle.settles (chronicle : Chronicle locking work stack s journal t) (held : List η) :
    Settles held journal held := by
  induction chronicle generalizing held with
  | done => exact .nil held
  | isLocked _ _ ih | assertLocked _ ih | worked _ _ ih => exact .cons rfl (ih held)
  | extendNothing _ _ _ ih => exact .cons rfl (.cons rfl (ih held))
  | extendInnermost _ _ _ _ ih => exact .cons rfl (.cons rfl (.cons rfl (ih held)))
  | failed _ _ _ ih | skipped _ _ _ ih => exact .cons rfl (.cons rfl (.cons rfl (ih held)))
  | direct _ _ _ _ _ _ ih_task ih_rest =>
    exact settles_append (.cons rfl (.cons rfl (ih_task held))) (.cons rfl (.cons rfl (ih_rest held)))
  | @guarded _ _ _ _ _ _ _ _ _ _ _ handle _ _ _ _ release _ ih_task ih_rest =>
    -- While the task runs its handle is the next one to be released.
    refine settles_append (settles_append ?_ (.cons rfl (release.settles held))) (.cons rfl (ih_rest held))
    exact .cons rfl (.cons rfl (.cons rfl (ih_task (handle :: held))))

theorem Chronicle.complete (chronicle : Chronicle locking work stack s journal t) : Complete journal :=
  ⟨chronicle.calls_eq, chronicle.settles []⟩

/-! ## Every entry of a journal -/

section

variable {E : Type} (law : List E → E → List E → Prop)

/-- A law holds of every entry of a list, with what stands before it and after it. -/
def Throughout : List E → List E → List E → Prop
  | _, [], _ => True
  | before, entry :: rest, after => law before entry (rest ++ after) ∧ Throughout (before ++ [entry]) rest after

variable {law} {before entries more after : List E}

theorem throughout_append : Throughout law before (entries ++ more) after ↔
    Throughout law before entries (more ++ after) ∧ Throughout law (before ++ entries) more after := by
  induction entries generalizing before with
  | nil => simp [Throughout]
  | cons entry rest ih => simp [Throughout, ih, and_assoc]

theorem Throughout.at (throughout : Throughout law before entries after) {earlier : List E} {entry : E} {later : List E}
    (split : entries = earlier ++ entry :: later) : law (before ++ earlier) entry (later ++ after) := by
  subst split
  induction earlier generalizing before with
  | nil => simpa using throughout.1
  | cons first rest ih => simpa using ih throughout.2

end

/-- The law of a journal's entries. -/
abbrev EntryLaw (locking : Locking σ ρ η) (before : Journal σ ρ η μ α) (entry : Entry ρ η μ α × σ)
    (after : Journal σ ρ η μ α) : Prop :=
  entry.1.Lawful locking before entry.2 after

theorem Around.later {before later : Journal σ ρ η μ α} (around : Around before stack)
    (same : enclosing later = enclosing before) : Around later stack :=
  ⟨around.stack_eq.trans same.symm, around.distinct⟩

/-- The release of the innermost call's handle, once its task has ended. -/
theorem Release.lawful {name : String} {handle : η} (release : Release locking name handle s journal t)
    {before after : Journal σ ρ η μ α} {result : α} (outer : List (Option (ActiveLock η)))
    (innermost : callsAfter [] (before ++ [(.ended result, s)]) = some ⟨name, handle⟩ :: outer) :
    Throughout (EntryLaw locking) (before ++ [(.ended result, s)]) journal after := by
  cases release with
  | done unlocked => exact ⟨⟨_, _, _, rfl, unlocked, _, _, innermost⟩, trivial, trivial⟩
  | failed unlocked => exact ⟨⟨_, _, _, rfl, unlocked, _, _, innermost⟩, trivial, trivial, trivial⟩

theorem Chronicle.lawful (chronicle : Chronicle locking work stack s journal t) {before after : Journal σ ρ η μ α}
    (around : Around before stack) : Throughout (EntryLaw locking) before journal after := by
  induction chronicle generalizing before after with
  | done => trivial
  | isLocked name _ ih => exact ⟨⟨around, LockStack.isLocked_iff⟩, ih (around.later (by simp [enclosing, Entry.calls]))⟩
  | assertLocked _ ih =>
    exact ⟨⟨around, LockStack.assertLocked_eq_ok_iff⟩, ih (around.later (by simp [enclosing, Entry.calls]))⟩
  | worked move _ ih => exact ⟨around, ih (around.later (by simp [enclosing, Entry.calls]))⟩
  | extendNothing atMost atLeast _ ih =>
    refine ⟨⟨around, [_], _, rfl, .nothing⟩, trivial, ih (around.later ?_)⟩
    simp [enclosing, Entry.calls]
  | extendInnermost atMost atLeast answer _ ih =>
    refine ⟨⟨around, [_, _], _, rfl, .innermost answer⟩, ⟨_, _, _, _, rfl, rfl, answer⟩, trivial, ih (around.later ?_)⟩
    simp [enclosing, Entry.calls]
  | @direct stack s task u rest _ provider config result locked ran _ ih_task ih_rest =>
    have named := LockStack.isLocked_iff.mp locked
    have call : Execution locking stack provider config s _ := .direct result u named ran.complete
    refine throughout_append.mpr ⟨⟨⟨around, _, rest ++ after, ?_, call⟩, ⟨?_, ?_⟩, ih_task ?_⟩, trivial, trivial,
      ih_rest ?_⟩
    · simp
    · exact around.later (by simp [enclosing, Entry.calls])
    · exact .inl ⟨_, _, _, rfl, named⟩
    · exact around.later (by simp [enclosing, Entry.calls])
    · exact around.later (by simp [enclosing, Entry.calls, ran.calls_eq])
  | failed free answer _ ih =>
    have unnamed := LockStack.not_isLocked_iff.mp free
    refine ⟨⟨around, [_, _], _, rfl, .failed unnamed⟩, ⟨_, _, _, rfl, unnamed, answer⟩, trivial, ih (around.later ?_)⟩
    simp [enclosing, Entry.calls]
  | skipped free answer _ ih =>
    have unnamed := LockStack.not_isLocked_iff.mp free
    refine ⟨⟨around, [_, _], _, rfl, .skipped unnamed⟩, ⟨_, _, _, rfl, unnamed, answer⟩, trivial, ih (around.later ?_)⟩
    simp [enclosing, Entry.calls]
  | @guarded stack s u _ _ _ _ rest _ provider config handle result free answer ran release _ ih_task ih_rest =>
    have unnamed := LockStack.not_isLocked_iff.mp free
    have call : Execution locking stack provider config s _ := .guarded result u unnamed ran.complete release
    -- Inside, the lock acquired is around the task.
    have inside {later : Journal σ ρ η μ α} (same : enclosing later = ⟨config.name, handle⟩ :: enclosing before) :
        Around later (⟨config.name, handle⟩ :: stack) :=
      ⟨by rw [same, ← around.stack_eq], List.nodup_cons.mpr ⟨unnamed, around.distinct⟩⟩
    refine throughout_append.mpr ⟨throughout_append.mpr ⟨⟨⟨around, _, rest ++ after, ?_, call⟩,
      ⟨_, _, _, rfl, unnamed, answer⟩, ⟨?_, ?_⟩, ih_task ?_⟩, trivial, ?_⟩, trivial, ih_rest ?_⟩
    · simp
    · exact inside (by simp [enclosing, Entry.calls])
    · exact .inr ⟨_, _, _, _, _, rfl, rfl⟩
    · exact inside (by simp [enclosing, Entry.calls])
    · exact release.lawful (callsAfter [] before) (by simp [Entry.calls, ran.calls_eq])
    · exact around.later (by simp [enclosing, Entry.calls, ran.calls_eq, release.calls_eq])

theorem Chronicle.scoped (chronicle : Chronicle locking work [] s journal t) : Scoped locking journal where
  complete := chronicle.complete
  lawful := by
    intro before entry u after split
    have outermost : Around ([] : Journal σ ρ η μ α) ([] : LockStack η) := ⟨rfl, List.nodup_nil⟩
    have throughout : Throughout (EntryLaw locking) [] journal [] := chronicle.lawful outermost
    simpa using throughout.at split

/-- Whatever providers and handles do, and whatever tasks do: the locks around a task are those of the calls it runs
in, a task runs only under its lock, only the innermost lock is extended, and every lock acquired is released once,
when its task has ended. Keeping the journal that shows this does not change the run. -/
theorem executor_scopes (locking : Locking σ ρ η) (work : μ → StateM σ Unit) (job : Job ρ μ α) (s : σ) :
    let recorded := job.record locking work [] (s, [])
    Scoped locking recorded.2.2 ∧ (recorded.1, recorded.2.1) = job.perform locking work [] s := by
  obtain ⟨journal, same, chronicle⟩ := chronicle_of_run locking work job [] s []
  rw [same]
  exact ⟨chronicle.scoped, rfl⟩

end TaskLease

import TaskLease.Proofs.Provider.GrantedLease
import TaskLease.Proofs.Provider.Traffic
import TaskLease.Proofs.Task.Scope

/-!
# Tasks and leases

Executors on the providers of a world, with anything happening between the things that tasks do: steps of the world,
such as attempts of other providers or the clock set, and operations on the store by whoever can reach it.

When an executor has just acquired a lock for a task, the task starts under a live lease of the executor's own
provider. A task whose name is around it already starts without a look at the store. It is under the lease that the
call around it has acquired for as long as that has not run out.
-/

namespace TaskLease

open World

/-! ## Executors in a world -/

/-- The answer to an attempt, with the number of its handle. -/
def World.Answer.attempt (number : Nat) : World.Answer → Except LockError (Option Nat)
  | .attempted answer => answer.map (Option.map fun _ => number)
  | _ => .ok none

/-- The answer to a release. -/
def World.Answer.release : World.Answer → Except LockError Unit
  | .released answer => answer
  | _ => .ok ()

/-- The answer to an extension. -/
def World.Answer.extension : World.Answer → Except LockError Bool
  | .extended answer => answer
  | _ => .ok false

/-- What can happen to a world while a task runs. -/
inductive World.Happening where
  | act (act : World.Act)
  /-- Somebody performs an operation on the store. -/
  | perform (holder : String) (strategy : AcquireStrategy) (op : Operation) (config : LockConfig)
deriving DecidableEq, Repr

namespace Setting

variable (e : Setting) (faults : World e.store.State → Operation → Option StoreFault)

/-- The providers and handles of a world, by their numbers. What fails may depend on anything. -/
def locking : Locking (World e.store.State) Nat Nat where
  tryLock provider config := fun w =>
    let reply := e.step (faults w) w (.tryLock provider config)
    (reply.1.attempt w.handles.length, reply.2)
  unlock handle := fun w =>
    let reply := e.step (faults w) w (.unlock handle)
    (reply.1.release, reply.2)
  extend handle atMost atLeast := fun w =>
    let reply := e.step (faults w) w (.extend handle atMost atLeast)
    (reply.1.extension, reply.2)
  drop handle := fun w => ((), (e.step (faults w) w (.drop handle)).2)
  tell event := fun w => ((), { w with stage := { w.stage with events := w.stage.events ++ [event] } })

/-- What a happening does. -/
def happen : World.Happening → StateM (World e.store.State) Unit
  | .act act => fun w => ((), (e.step (faults w) w act).2)
  | .perform holder strategy op config => fun w =>
    let access : Access := { holder, config, now := w.clock, strategy, op }
    ((), { w with stage := { w.stage with store := (e.store.perform access w.stage.store).2 } })

/-- The record of a name is live. -/
def Live (name : String) (w : World e.store.State) : Prop := e.store.Live w.stage.store name w.clock

/-- The record of a name is live, and an identity's. -/
def Holds (name identity : String) (w : World e.store.State) : Prop :=
  ∃ r, e.store.find w.stage.store name = .ok (some r) ∧ r.isHeldAt w.clock = true ∧ r.lockedBy = identity

instance (name identity : String) (w : World e.store.State) : Decidable (e.Holds name identity w) :=
  match found : e.store.find w.stage.store name with
  | .ok (some r) => decidable_of_iff (r.isHeldAt w.clock = true ∧ r.lockedBy = identity) (by simp [Holds, found])
  | .ok none => .isFalse (by simp [Holds, found])
  | .error _ => .isFalse (by simp [Holds, found])

/-- How a task starts under some locks, after what a journal tells. -/
inductive Start {α : Type} (stack : LockStack Nat) (w : World e.store.State) :
    Journal (World e.store.State) Nat Nat World.Happening α → Prop
  /-- The executor has just acquired the lock. If that is for some time, its provider holds a live lease. -/
  | acquired {earlier} (provider : Nat) (config : LockConfig) (handle : Nat) :
    (0 < config.atMost.nanos → w.clock < .max → e.Holds config.name (e.holder provider) w) →
    Start stack w (earlier ++ [(.tryLock provider config (.ok (some handle)), w)])
  /-- A call around the task has acquired the lock. If the lease has not run out at any time since then, the provider
  of that call still holds it. -/
  | direct {earlier between v} (outer : Nat) (held : LockConfig) (handle : Nat) (provider : Nat) (config : LockConfig) :
    held.name = config.name → ⟨config.name, handle⟩ ∈ stack →
    ((∀ state ∈ v :: between.map Prod.snd, e.Live config.name state) → e.Live config.name w →
      e.Holds config.name (e.holder outer) w) →
    Start stack w (earlier ++ (.tryLock outer held (.ok (some handle)), v) :: between ++
      [(.execute stack provider config, w)])

/-- What is said of how tasks start. -/
def StartsGuarded : Prop :=
  ∀ (α : Type) (faults : World e.store.State → Operation → Option StoreFault) (job : Job Nat World.Happening α)
    (w : World e.store.State),
    let recorded := job.record (e.locking faults) (e.happen faults) [] (w, [])
    ∀ before stack state after, recorded.2.2 = before ++ (.began stack, state) :: after → e.Start stack state before

end Setting

/-! ## A live lease stays its holder's -/

namespace Setting

variable {e : Setting} {w next : World e.store.State}

/-- Whoever holds a name whose record is live holds it in the next state as well. -/
def HoldersStay (e : Setting) (w next : World e.store.State) : Prop :=
  ∀ name r r', e.store.find w.stage.store name = .ok (some r) → r.isHeldAt w.clock = true →
    e.store.find next.stage.store name = .ok (some r') → r'.lockedBy = r.lockedBy

theorem holdersStay_of_lease (strict : e.store.Strict)
    (stays : ∀ name l, e.store.Sound w.stage.store name → e.store.lease w.stage.store name = some l →
      w.clock < l.lockUntil → ∃ l', e.store.lease next.stage.store name = some l' ∧ l'.lockedBy = l.lockedBy) :
    e.HoldersStay w next := by
  intro name r r' found live found'
  obtain ⟨l', after, same⟩ := stays name r.lease (strict.sound_of_find found) (e.store.lease_of_find found)
    (LockRecord.isHeldAt_iff.mp live)
  cases after.symm.trans (e.store.lease_of_find found')
  exact same

theorem holdersStay_refl (w : World e.store.State) : e.HoldersStay w w := by
  intro name r r' found _ found'
  rw [Option.some.inj (Except.ok.inj (found.symm.trans found'))]

theorem step_holdersStay (strict : e.store.Strict) (faults : Operation → Option StoreFault) (w : World e.store.State)
    (act : World.Act) : e.HoldersStay w (e.step faults w act).2 := by
  apply holdersStay_of_lease strict
  intro name l sound found live
  have timely := e.store.timely w.clock
  rcases act.attempt_or with ⟨provider, config, rfl⟩ | no_attempt
  · obtain ⟨-, -, stored, -⟩ := e.tryLock_spec faults w provider config
    have same : e.store.lease (e.tryLock faults w provider config).2.stage.store name =
        e.store.lease w.stage.store name := by
      rw [stored]
      by_cases named : config.name = name
      · subst named
        rcases acquire_effect (e.strategy provider) (e.holder provider) faults (w.registries provider) sound timely with
          ⟨-, unchanged⟩ | ⟨-, acquired⟩
        · exact unchanged
        · have expired := acquired.expired l found
          rw [e.store.clock_eq] at expired
          exact absurd live (not_lt.mpr expired)
      · exact (acquire_of_ne (e.strategy provider) (e.holder provider) faults (w.registries provider) w.stage.store
          timely named).1
    exact ⟨l, same.trans found, rfl⟩
  · rcases (step_lease faults no_attempt sound).2.2 with same | ⟨before, after, there, next, by_holder, -⟩
    · exact ⟨l, same.trans found, rfl⟩
    · cases there.symm.trans found
      exact ⟨after, next, by_holder⟩

theorem happen_holdersStay (strict : e.store.Strict) (faults : World e.store.State → Operation → Option StoreFault)
    (what : World.Happening) (w : World e.store.State) : e.HoldersStay w (e.happen faults what w).2 := by
  cases what with
  | act act => exact step_holdersStay strict (faults w) w act
  | perform holder strategy op config =>
    let access : Access := { holder, config, now := w.clock, strategy, op }
    apply holdersStay_of_lease strict
    intro name l sound found live
    have timely := e.store.timely w.clock
    cases acquired : e.store.acquires name access w.stage.store with
    | true =>
      have expired := (LeaseStore.lease_of_acquires sound timely acquired).1 l found
      rw [e.store.clock_eq] at expired
      exact absurd live (not_lt.mpr expired)
    | false =>
      rcases LeaseStore.lease_of_not_acquires sound timely acquired with
        same | ⟨before, there, -, -, ⟨-, after⟩ | ⟨-, after⟩⟩
      · exact ⟨l, same.trans found, rfl⟩
      · cases there.symm.trans found
        exact ⟨_, after, rfl⟩
      · cases there.symm.trans found
        exact ⟨_, after, rfl⟩

theorem links_holdersStay (strict : e.store.Strict) (faults : World e.store.State → Operation → Option StoreFault) :
    Links e.HoldersStay (e.locking faults) (e.happen faults) where
  refl := holdersStay_refl
  tryLock provider config w := step_holdersStay strict (faults w) w (.tryLock provider config)
  unlock handle w := step_holdersStay strict (faults w) w (.unlock handle)
  extend handle atMost atLeast w := step_holdersStay strict (faults w) w (.extend handle atMost atLeast)
  drop handle w := step_holdersStay strict (faults w) w (.drop handle)
  tell _ w := holdersStay_refl w
  work what w := happen_holdersStay strict faults what w

/-- A record that stays live through linked states stays its holder's. -/
theorem holds_of_linked {μ α : Type} {name identity : String}
    {between : Journal (World e.store.State) Nat Nat μ α} (linked : Linked e.HoldersStay w between next)
    (holds : e.Holds name identity w) (live : ∀ state ∈ between.map Prod.snd, e.Live name state) :
    e.Holds name identity next := by
  induction between generalizing w with
  | nil =>
    cases linked
    exact holds
  | cons entry rest ih =>
    obtain ⟨here, later⟩ := linked
    obtain ⟨r, found, held, own⟩ := holds
    obtain ⟨r', found', held'⟩ := live entry.2 List.mem_cons_self
    refine ih later ⟨r', found', held', (here name r r' found held found').trans own⟩ ?_
    exact fun state member => live state (List.mem_cons_of_mem _ member)

/-! ## Starts -/

/-- An attempt that is answered with a handle leaves a lease of its provider. -/
theorem has_of_tryLock (strict : e.store.Strict) {faults : World e.store.State → Operation → Option StoreFault}
    {provider handle : Nat} {config : LockConfig}
    (granted : (e.locking faults).tryLock provider config w = (.ok (some handle), next)) :
    e.store.Has next.stage.store config.name
      (RecordStore.acquiredRecord (e.holder provider) config next.clock) := by
  obtain ⟨answer, clock, stored, -⟩ := e.tryLock_spec (faults w) w provider config
  have granted' : ((e.tryLock (faults w) w provider config).1.attempt w.handles.length,
      (e.tryLock (faults w) w provider config).2) = (.ok (some handle), next) := granted
  obtain ⟨given, rfl⟩ := Prod.mk.inj granted'
  rw [answer] at given
  have acquired : (acquire (e.accessor (faults w) provider w.clock) config (w.registries provider) w.stage.store).1 =
      .ok true := by
    revert given
    rcases (acquire (e.accessor (faults w) provider w.clock) config (w.registries provider) w.stage.store).1 with
      fault | _ | _ <;> intro given
    · cases given
    · cases given
    · rfl
  rw [stored, clock]
  exact (RecordStore.acquire_grants strict acquired).2

theorem holds_of_live {r : LockRecord} {name : String} (has : e.store.Has w.stage.store name r)
    (live : e.Live name w) : e.Holds name r.lockedBy w := by
  obtain ⟨found, same, held⟩ := live
  obtain rfl : found = r := Option.some.inj (Except.ok.inj (same.symm.trans has.find))
  exact ⟨found, same, held, rfl⟩

section

variable {α : Type} {faults : World e.store.State → Operation → Option StoreFault}
  {w last state v : World e.store.State} {provider handle : Nat} {config : LockConfig}
  {journal : Journal (World e.store.State) Nat Nat World.Happening α}

/-- Right after an acquisition for some time its provider holds a live lease. -/
theorem holds_of_acquired (strict : e.store.Strict)
    (chronicle : Chronicle (e.locking faults) (e.happen faults) [] w journal last) {before after}
    (split : journal = before ++ (.tryLock provider config (.ok (some handle)), state) :: after)
    (some_time : 0 < config.atMost.nanos) (before_last : state.clock < .max) :
    e.Holds config.name (e.holder provider) state := by
  obtain ⟨-, -, asked, -, -, granted⟩ := chronicle.scoped.lawful _ _ _ _ split
  have has := has_of_tryLock strict granted
  have live : state.clock < state.clock.add config.atMost := (Instant.lt_add_iff before_last).mpr some_time
  exact holds_of_live has ⟨_, has.find, LockRecord.isHeldAt_iff.mpr live⟩

/-- From an acquisition on, its provider holds the lease as long as there is no state in which that has run out. -/
theorem holds_since_acquired (strict : e.store.Strict)
    (chronicle : Chronicle (e.locking faults) (e.happen faults) [] w journal last) {before between after entry}
    (split : journal = before ++
      (.tryLock provider config (.ok (some handle)), v) :: (between ++ (entry, state) :: after))
    (live : ∀ other ∈ v :: between.map Prod.snd, e.Live config.name other) (live_now : e.Live config.name state) :
    e.Holds config.name (e.holder provider) state := by
  obtain ⟨-, -, asked, -, -, granted⟩ := chronicle.scoped.lawful _ _ _ _ split
  have begun : e.Holds config.name (e.holder provider) v :=
    holds_of_live (has_of_tryLock strict granted) (live v List.mem_cons_self)
  have linked := chronicle.linked (links_holdersStay strict faults)
  rw [split] at linked
  obtain ⟨-, -, -, onwards⟩ := linked_append.mp linked
  obtain ⟨previous, inside, here, -⟩ := linked_append.mp onwards
  have until_now : Linked e.HoldersStay v (between ++ [(entry, state)]) state :=
    linked_append.mpr ⟨previous, inside, here, rfl⟩
  refine holds_of_linked until_now begun fun other member => ?_
  rw [List.map_append, List.mem_append] at member
  rcases member with earlier | now
  · exact live other (List.mem_cons_of_mem _ earlier)
  · rw [List.mem_singleton.mp now]
    exact live_now

end

theorem startsGuarded_of_strict (strict : e.store.Strict) : e.StartsGuarded := by
  intro α faults job w recorded before stack state after split
  obtain ⟨journal, same, chronicle⟩ := chronicle_of_run (e.locking faults) (e.happen faults) job [] w []
  have whole : recorded.2.2 = journal := by
    simp only [recorded, same, List.nil_append]
  rw [whole] at split
  obtain ⟨around, ⟨earlier, provider, config, rfl, named⟩ | ⟨earlier, provider, config, handle, outer, rfl, rfl⟩⟩ :=
    chronicle.scoped.lawful _ _ _ _ split
  · -- The name is around the task, so there was an attempt that acquired it.
    obtain ⟨lock, member, same_name⟩ := List.mem_map.mp named
    have encloses : lock ∈ enclosing earlier := by
      rw [around.stack_eq] at member
      simpa [enclosing, Entry.calls] using member
    obtain ⟨first, outer, held, v, between, rfl, of_lock⟩ := exists_tryLock_of_enclosing encloses
    have of_config : held.name = config.name := of_lock.trans same_name
    refine .direct outer held lock.handle provider config of_config (same_name ▸ member) ?_
    rw [← of_config]
    exact holds_since_acquired strict chronicle (by simpa using split)
  · refine .acquired provider config handle fun some_time before_last => ?_
    exact holds_of_acquired strict chronicle (by simpa using split) some_time before_last

end Setting

/-- In memory and in files a task starts under a live lease of its executor's provider, if the executor has acquired
the lock for it. If its name is around it already, it starts under the lease of the call around it, as long as that
has not run out. -/
theorem tasks_start_guarded (strategy : Nat → AcquireStrategy) (holder : Nat → String) :
    (⟨.memory, strategy, holder⟩ : Setting).StartsGuarded ∧
      ∀ s, (⟨.file s, strategy, holder⟩ : Setting).StartsGuarded :=
  ⟨Setting.startsGuarded_of_strict RecordStore.strict_memory,
    fun s => Setting.startsGuarded_of_strict (RecordStore.strict_file s)⟩

/-- Whether a task starts. -/
def Entry.isStart {ρ η μ α : Type} : Entry ρ η μ α → Bool
  | .began _ => true
  | _ => false

/-- A task runs longer than its lease, and a rival acquires the lock. The task then starts another one under the same
name, although the rival holds the live lease of it. -/
theorem inner_task_starts_unguarded :
    let e : Setting := ⟨.memory, fun _ => .insertThenUpdate, fun provider => if provider = 0 then "node" else "rival"⟩
    let late : Instant := Instant.epoch.add (.ofSeconds 61)
    let inner : Job Nat World.Happening Nat := .execute 0 .nightly (.done 1) fun _ => .done 2
    let job : Job Nat World.Happening Nat :=
      .execute 0 .nightly (.work (.act (.setClock late)) (.work (.act (.tryLock 1 .nightly)) inner)) fun _ => .done 3
    let recorded := job.record (e.locking fun _ _ => none) (e.happen fun _ _ => none) []
      (e.start (∅ : Records) .epoch, [])
    e.holder 0 = "node" ∧ ∃ entry ∈ recorded.2.2, entry.1.isStart = true ∧ e.Holds "backup" "rival" entry.2 := by
  decide +kernel

end TaskLease

import TaskLease.Proofs.Provider.LeaseSteps
import TaskLease.Proofs.Provider.RaceOutcome

/-!
# Acquisitions that nothing interrupts

What a provider's attempt comes to when no other attempt runs in between. `acquire_free` and `acquire_held`
say what it answers where no operation fails.

An operation may fail without reaching the store. `acquire_cases` says what holds whatever fails: the lease
stays as it is, or the lock was acquired where no lease was live. Either way a registry that knows the name
is right about it.
-/

namespace TaskLease

section

variable {τ : Type} [LinearOrder τ] {store : LeaseStore τ} {strategy : AcquireStrategy} {holder : String}
  {now : Instant} {faults : Operation → Option StoreFault} {config : LockConfig} {registry : Registry}
  {s : store.State} {name : String}

/-! ## What stays -/

theorem steps_frame (k : Nat) (a : Attempt) (registry : Registry) (s : store.State) (timely : store.Timely now) :
    let last := Attempt.steps (store.accessor strategy holder now faults) config k a registry s
    (store.Sound s name → store.Sound last.2.2 name) ∧
      (store.Keeps last.2.2 name ↔ store.Keeps s name) ∧
      (config.name ≠ name → store.lease last.2.2 name = store.lease s name ∧
        last.2.1.contains name = registry.contains name) := by
  induction k generalizing a registry s with
  | zero => exact ⟨id, Iff.rfl, fun _ => ⟨rfl, rfl⟩⟩
  | succ k ih =>
    obtain ⟨sound, keeps, other⟩ := ih
      (a.step (store.accessor strategy holder now faults) config registry s).1
      (a.step (store.accessor strategy holder now faults) config registry s).2.1
      (a.step (store.accessor strategy holder now faults) config registry s).2.2
    refine ⟨fun first => sound (Race.sound_step first timely), keeps.trans Race.keeps_step, ?_⟩
    intro ne
    obtain ⟨lease, contains⟩ := other ne
    obtain ⟨lease', contains'⟩ := Race.step_of_ne strategy holder now faults a registry s ne
    exact ⟨lease.trans lease', contains.trans contains'⟩

theorem sound_acquire (strategy : AcquireStrategy) (holder : String) (faults : Operation → Option StoreFault)
    (config : LockConfig) (registry : Registry) (sound : store.Sound s name) (timely : store.Timely now) :
    store.Sound (acquire (store.accessor strategy holder now faults) config registry s).2.2 name :=
  (steps_frame 5 _ registry s timely).1 sound

theorem keeps_acquire (strategy : AcquireStrategy) (holder : String) (faults : Operation → Option StoreFault)
    (config : LockConfig) (registry : Registry) (s : store.State) (name : String) (timely : store.Timely now) :
    store.Keeps (acquire (store.accessor strategy holder now faults) config registry s).2.2 name ↔
      store.Keeps s name :=
  (steps_frame 5 _ registry s timely).2.1

theorem acquire_of_ne (strategy : AcquireStrategy) (holder : String) (faults : Operation → Option StoreFault)
    (registry : Registry) (s : store.State) (timely : store.Timely now) (other : config.name ≠ name) :
    store.lease (acquire (store.accessor strategy holder now faults) config registry s).2.2 name =
        store.lease s name ∧
      (acquire (store.accessor strategy holder now faults) config registry s).2.1.contains name =
        registry.contains name :=
  (steps_frame 5 _ registry s timely).2.2 other

theorem finished_acquire (accessor : Accessor store.State) (config : LockConfig) (registry : Registry)
    (s : store.State) :
    ∃ answer, (Attempt.steps accessor config 5 (.first accessor.strategy) registry s).1 = .finished answer ∧
      (acquire accessor config registry s).1 = answer := by
  have bound := Attempt.rank_steps accessor config 5 (.first accessor.strategy) registry s
  have start : (Attempt.first accessor.strategy).rank ≤ 5 := by
    unfold Attempt.first
    split <;> simp [Attempt.rank]
  have spent : (Attempt.steps accessor config 5 (.first accessor.strategy) registry s).1.rank = 0 := by omega
  obtain ⟨answer, ended⟩ := Race.finished_of_rank spent
  exact ⟨answer, ended, by rw [acquire, ended]; rfl⟩

/-! ## Attempts without faults -/

theorem steps_winning (k : Nat) {a : Attempt} (accessor : Accessor store.State) (config : LockConfig)
    (registry : Registry) (s : store.State) (winning : Race.Winning a) :
    Race.Winning (Attempt.steps accessor config k a registry s).1 ∧
      (Attempt.steps accessor config k a registry s).2.2 = s := by
  induction k generalizing a registry s with
  | zero => exact ⟨winning, rfl⟩
  | succ k ih =>
    obtain ⟨still, same⟩ := Race.winning_step accessor config registry s winning
    obtain ⟨won, last⟩ := ih (a.step accessor config registry s).2.1 (a.step accessor config registry s).2.2 still
    exact ⟨won, last.trans same⟩

theorem steps_pending (k : Nat) {a : Attempt} (holder : String) (sound : store.Sound s config.name)
    (timely : store.Timely now) (keeps : store.Keeps s config.name)
    (expired : ∀ l, store.lease s config.name = some l → l.lockUntil ≤ store.clock.reading now)
    (known : registry.contains config.name = true → (store.lease s config.name).isSome = true)
    (pending : Race.Pending strategy (store.lease s config.name) a) :
    let last := Attempt.steps (store.accessor strategy holder now) config k a registry s
    Race.Pending strategy (store.lease s config.name) last.1 ∨
      (Race.Winning last.1 ∧
        store.lease last.2.2 config.name = some (Demand.freshLease store.clock ⟨holder, config, now⟩)) := by
  induction k generalizing a registry s with
  | zero => exact .inl pending
  | succ k ih =>
    have phase := Race.pending_step holder sound timely keeps expired known pending
    rcases phase with ⟨pending', known', same⟩ | ⟨won, fresh⟩
    · have later := ih (Race.sound_step sound timely) (Race.keeps_step.mpr keeps) (same ▸ expired)
        (same ▸ known') (same ▸ pending')
      rwa [same] at later
    · right
      obtain ⟨still, last⟩ := steps_winning k (store.accessor strategy holder now) config
        (a.step (store.accessor strategy holder now) config registry s).2.1
        (a.step (store.accessor strategy holder now) config registry s).2.2 won
      exact ⟨still, (congrArg (store.lease · config.name) last).trans fresh⟩

theorem steps_losing (k : Nat) {a : Attempt} {l : StoredLease τ} (strategy : AcquireStrategy) (holder : String)
    (registry : Registry) (sound : store.Sound s config.name) (timely : store.Timely now)
    (keeps : store.Keeps s config.name) (found : store.lease s config.name = some l)
    (live : store.clock.reading now < l.lockUntil) (losing : Race.Losing a) :
    let last := Attempt.steps (store.accessor strategy holder now) config k a registry s
    Race.Losing last.1 ∧ store.lease last.2.2 config.name = some l := by
  induction k generalizing a registry s with
  | zero => exact ⟨losing, found⟩
  | succ k ih =>
    obtain ⟨lost, kept⟩ := Race.losing_step strategy holder registry sound timely keeps found live losing
    exact ih _ (Race.sound_step sound timely) (Race.keeps_step.mpr keeps) kept lost

/-- Where no lease is live and nothing fails, an attempt acquires the lock. -/
theorem acquire_free (strategy : AcquireStrategy) (holder : String) (sound : store.Sound s config.name)
    (timely : store.Timely now) (keeps : store.Keeps s config.name)
    (expired : ∀ l, store.lease s config.name = some l → l.lockUntil ≤ store.clock.reading now)
    (known : registry.contains config.name = true → (store.lease s config.name).isSome = true) :
    (acquire (store.accessor strategy holder now) config registry s).1 = .ok true ∧
      store.lease (acquire (store.accessor strategy holder now) config registry s).2.2 config.name =
        some (Demand.freshLease store.clock ⟨holder, config, now⟩) := by
  obtain ⟨answer, ended, same⟩ :=
    finished_acquire (store.accessor strategy holder now) config registry s
  rcases steps_pending 5 holder sound timely keeps expired known (Race.pending_first strategy _) with
    pending | ⟨won, fresh⟩
  · change Race.Pending _ _ (Attempt.steps _ _ 5 (.first (store.accessor strategy holder now).strategy) _ _).1
      at pending
    rw [ended] at pending
    cases pending
  · have answered := Race.answer_of_winning won ended
    refine ⟨?_, fresh⟩
    rw [same]
    exact Attempt.finished.inj (ended.symm.trans answered)

/-- Where a lease is live and nothing fails, an attempt is turned away and leaves the lease alone. -/
theorem acquire_held {l : StoredLease τ} (strategy : AcquireStrategy) (holder : String) (registry : Registry)
    (sound : store.Sound s config.name) (timely : store.Timely now)
    (keeps : store.Keeps s config.name) (found : store.lease s config.name = some l)
    (live : store.clock.reading now < l.lockUntil) :
    (acquire (store.accessor strategy holder now) config registry s).1 = .ok false ∧
      store.lease (acquire (store.accessor strategy holder now) config registry s).2.2 config.name = some l := by
  obtain ⟨answer, ended, same⟩ :=
    finished_acquire (store.accessor strategy holder now) config registry s
  have first := Race.losing_of_pending (Race.pending_first strategy (some l))
  obtain ⟨lost, kept⟩ := steps_losing 5 strategy holder registry sound timely keeps found live first
  have answered := Race.answer_of_losing lost ended
  refine ⟨?_, kept⟩
  rw [same]
  exact Attempt.finished.inj (ended.symm.trans answered)

/-! ## Attempts with faults -/

/-- An acquisition has found no live lease in a place where the store can keep one, and has left its own. -/
structure LeaseStore.Acquired (store : LeaseStore τ) (d : Demand) (before after : store.State) : Prop where
  keeps : store.Keeps before d.config.name
  expired : ∀ l, store.lease before d.config.name = some l → l.lockUntil ≤ store.clock.reading d.now
  fresh : store.lease after d.config.name = some (d.freshLease store.clock)

theorem LeaseStore.Acquired.of_unchanged {d : Demand} {before middle after : store.State}
    (acquired : store.Acquired d middle after)
    (keeps : store.Keeps middle d.config.name ↔ store.Keeps before d.config.name)
    (same : store.lease middle d.config.name = store.lease before d.config.name) :
    store.Acquired d before after :=
  ⟨keeps.mp acquired.keeps, fun l found => acquired.expired l (same.trans found), acquired.fresh⟩

/-- A phase of an attempt that has not won, whatever has failed. -/
def Race.Trying (found : Option (StoredLease τ)) : Attempt → Prop
  | .looking | .inserting _ | .updating _ | .forgetting _ => True
  | .remembering acquired => acquired = false ∧ found.isSome = true
  | .finished answer => answer ≠ .ok true

/-- An operation that is to acquire the lock does, or leaves the lease as it is. An insert that is refused
has found one. -/
theorem perform_acquisition (strategy : AcquireStrategy) (holder : String)
    (faults : Operation → Option StoreFault) (op : Operation) (acquisition : op.isAcquisition = true)
    (sound : store.Sound s config.name) (timely : store.Timely now) :
    let reply := (store.accessor strategy holder now faults).perform op config s
    (reply.1 ≠ .ok true ∧ store.lease reply.2 config.name = store.lease s config.name ∧
        (op = .insert → reply.1 = .ok false → (store.lease s config.name).isSome = true)) ∨
      (reply.1 = .ok true ∧ store.Acquired ⟨holder, config, now⟩ s reply.2) := by
  rcases LeaseStore.accessor_perform strategy holder now faults op config s with
    ⟨fault, failed⟩ | ⟨keeps, performed⟩
  · rw [failed]
    exact .inl ⟨by simp, rfl, fun _ answered => by cases answered⟩
  rw [performed]
  have answer := store.perform_kept (a := { holder, config, now, strategy, op }) sound timely keeps
  have lease := store.lease_perform_kept (a := { holder, config, now, strategy, op }) sound timely keeps
  cases applied : op.applies store.clock ⟨holder, config, now⟩ (store.reclaims strategy)
      (store.lease s config.name) with
  | true =>
    rw [applied] at answer
    refine .inr ⟨answer, keeps, ?_, lease.trans (Operation.after_acquisition acquisition applied)⟩
    intro l found
    rw [found] at applied
    exact Operation.expired_of_applies acquisition applied
  | false =>
    rw [applied] at answer
    rw [Operation.after, applied] at lease
    refine .inl ⟨by simp [answer], lease, ?_⟩
    rintro rfl -
    cases found : store.lease s config.name with
    | none =>
      rw [found] at applied
      cases applied
    | some l => rfl

theorem trying_step {a : Attempt} (strategy : AcquireStrategy) (holder : String)
    (faults : Operation → Option StoreFault) (sound : store.Sound s config.name) (timely : store.Timely now)
    (known : registry.contains config.name = true → (store.lease s config.name).isSome = true)
    (trying : Race.Trying (store.lease s config.name) a) :
    let next := a.step (store.accessor strategy holder now faults) config registry s
    (Race.Trying (store.lease s config.name) next.1 ∧
        (next.2.1.contains config.name = true → (store.lease s config.name).isSome = true) ∧
        store.lease next.2.2 config.name = store.lease s config.name) ∨
      (Race.Winning next.1 ∧ store.Acquired ⟨holder, config, now⟩ s next.2.2) := by
  cases a with
  | looking =>
    refine .inl ⟨?_, known, rfl⟩
    simp only [Attempt.step, Attempt.afterLook]
    split <;> trivial
  | inserting remembers =>
    simp only [Attempt.step]
    rcases perform_acquisition strategy holder faults .insert rfl sound timely with
      ⟨refused, same, present⟩ | ⟨won, fresh⟩
    · refine .inl ⟨?_, known, same⟩
      revert refused present
      cases ((store.accessor strategy holder now faults).perform .insert config s).1 with
      | error fault => exact fun _ _ => by simp [Attempt.afterInsert, Race.Trying]
      | ok acquired =>
        intro refused present
        cases acquired with
        | true => exact absurd rfl refused
        | false =>
          cases remembers with
          | true => exact ⟨rfl, present rfl rfl⟩
          | false => simp [Attempt.afterInsert, Race.Trying]
    · right
      refine ⟨?_, fresh⟩
      rw [won]
      cases remembers with
      | true => exact .inl rfl
      | false => exact .inr rfl
  | remembering acquired =>
    obtain ⟨rfl, present⟩ := trying
    exact .inl ⟨trivial, fun _ => present, rfl⟩
  | updating inserted =>
    simp only [Attempt.step]
    rcases perform_acquisition strategy holder faults .update rfl sound timely with
      ⟨refused, same, -⟩ | ⟨won, fresh⟩
    · refine .inl ⟨?_, known, same⟩
      revert refused
      cases ((store.accessor strategy holder now faults).perform .update config s).1 with
      | error fault => cases inserted <;> simp [Attempt.afterUpdate, Race.Trying]
      | ok acquired => exact fun refused => by simpa [Attempt.afterUpdate, Race.Trying] using refused
    · right
      refine ⟨?_, fresh⟩
      rw [won]
      exact .inr rfl
  | forgetting fault =>
    refine .inl ⟨by simp [Attempt.step, Race.Trying], ?_, rfl⟩
    intro knows
    rw [Attempt.step, Registry.contains_remove] at knows
    simp at knows
  | finished answer => exact .inl ⟨trying, known, rfl⟩

theorem steps_trying (k : Nat) {a : Attempt} (strategy : AcquireStrategy) (holder : String)
    (faults : Operation → Option StoreFault) (sound : store.Sound s config.name) (timely : store.Timely now)
    (known : registry.contains config.name = true → (store.lease s config.name).isSome = true)
    (trying : Race.Trying (store.lease s config.name) a) :
    let last := Attempt.steps (store.accessor strategy holder now faults) config k a registry s
    (Race.Trying (store.lease s config.name) last.1 ∧
        (last.2.1.contains config.name = true → (store.lease s config.name).isSome = true) ∧
        store.lease last.2.2 config.name = store.lease s config.name) ∨
      (Race.Winning last.1 ∧ store.Acquired ⟨holder, config, now⟩ s last.2.2) := by
  induction k generalizing a registry s with
  | zero => exact .inl ⟨trying, known, rfl⟩
  | succ k ih =>
    rcases trying_step strategy holder faults sound timely known trying with
      ⟨trying', known', same⟩ | ⟨won, acquired⟩
    · rcases ih (Race.sound_step sound timely) (same ▸ known') (same ▸ trying') with
        ⟨still, known, unchanged⟩ | ⟨won, acquired⟩
      · exact .inl ⟨same ▸ still, same ▸ known, unchanged.trans same⟩
      · exact .inr ⟨won, acquired.of_unchanged Race.keeps_step same⟩
    · right
      obtain ⟨still, last⟩ := steps_winning k (store.accessor strategy holder now faults) config
        (a.step (store.accessor strategy holder now faults) config registry s).2.1
        (a.step (store.accessor strategy holder now faults) config registry s).2.2 won
      exact ⟨still, acquired.keeps, acquired.expired,
        (congrArg (store.lease · config.name) last).trans acquired.fresh⟩

/-- An attempt acquires the lock where no lease is live, or it leaves the lease alone. A registry that knows
only names with a lease does so afterwards. -/
theorem acquire_cases (strategy : AcquireStrategy) (holder : String)
    (faults : Operation → Option StoreFault) (sound : store.Sound s config.name) (timely : store.Timely now)
    (known : registry.contains config.name = true → (store.lease s config.name).isSome = true) :
    let last := acquire (store.accessor strategy holder now faults) config registry s
    (last.2.1.contains config.name = true → (store.lease last.2.2 config.name).isSome = true) ∧
      ((last.1 ≠ .ok true ∧ store.lease last.2.2 config.name = store.lease s config.name) ∨
        (last.1 = .ok true ∧ store.Acquired ⟨holder, config, now⟩ s last.2.2)) := by
  have first : Race.Trying (store.lease s config.name)
      (.first (store.accessor strategy holder now faults).strategy) := by
    unfold Attempt.first
    split <;> trivial
  obtain ⟨answer, ended, same⟩ :=
    finished_acquire (store.accessor strategy holder now faults) config registry s
  rcases steps_trying 5 strategy holder faults sound timely known first with
    ⟨trying, known', unchanged⟩ | ⟨won, acquired⟩
  · rw [ended] at trying
    refine ⟨?_, .inl ⟨fun won => trying (same.symm.trans won), unchanged⟩⟩
    intro knows
    exact (congrArg Option.isSome unchanged).trans (known' knows)
  · have answered := Attempt.finished.inj (ended.symm.trans (Race.answer_of_winning won ended))
    refine ⟨?_, .inr ⟨same.trans answered, acquired⟩⟩
    intro _
    exact congrArg Option.isSome acquired.fresh

/-! ## Attempts that rely on nothing -/

/-- A phase of an attempt that has not acquired the lock leaves the lease alone, or acquires the lock. What
the registry knows makes no difference. -/
theorem phase_cases {a : Attempt} (strategy : AcquireStrategy) (holder : String)
    (faults : Operation → Option StoreFault) (registry : Registry) (sound : store.Sound s config.name)
    (timely : store.Timely now) (trying : ¬ Race.Winning a) :
    let next := a.step (store.accessor strategy holder now faults) config registry s
    (¬ Race.Winning next.1 ∧ store.lease next.2.2 config.name = store.lease s config.name) ∨
      (Race.Winning next.1 ∧ store.Acquired ⟨holder, config, now⟩ s next.2.2) := by
  cases a with
  | looking =>
    refine .inl ⟨?_, rfl⟩
    simp only [Attempt.step, Attempt.afterLook]
    split <;> simp [Race.Winning]
  | inserting remembers =>
    simp only [Attempt.step]
    rcases perform_acquisition strategy holder faults .insert rfl sound timely with
      ⟨refused, same, -⟩ | ⟨won, acquired⟩
    · refine .inl ⟨?_, same⟩
      revert refused
      rcases ((store.accessor strategy holder now faults).perform .insert config s).1 with fault | _ | _
      · simp [Attempt.afterInsert, Race.Winning]
      · cases remembers <;> simp [Attempt.afterInsert, Race.Winning]
      · exact fun refused => absurd rfl refused
    · refine .inr ⟨?_, acquired⟩
      rw [won]
      cases remembers with
      | true => exact .inl rfl
      | false => exact .inr rfl
  | remembering acquired =>
    cases acquired with
    | true => exact absurd (.inl rfl) trying
    | false => exact .inl ⟨by simp [Attempt.step, Attempt.afterRemember, Race.Winning], rfl⟩
  | updating inserted =>
    simp only [Attempt.step]
    rcases perform_acquisition strategy holder faults .update rfl sound timely with
      ⟨refused, same, -⟩ | ⟨won, acquired⟩
    · refine .inl ⟨?_, same⟩
      revert refused
      rcases ((store.accessor strategy holder now faults).perform .update config s).1 with fault | _ | _
      · cases inserted <;> simp [Attempt.afterUpdate, Race.Winning]
      · simp [Attempt.afterUpdate, Race.Winning]
      · exact fun refused => absurd rfl refused
    · refine .inr ⟨?_, acquired⟩
      rw [won]
      exact .inr rfl
  | forgetting fault => exact .inl ⟨by simp [Attempt.step, Race.Winning], rfl⟩
  | finished answer => exact .inl ⟨trying, rfl⟩

theorem phases_cases (k : Nat) {a : Attempt} (strategy : AcquireStrategy) (holder : String)
    (faults : Operation → Option StoreFault) (registry : Registry) (sound : store.Sound s config.name)
    (timely : store.Timely now) (trying : ¬ Race.Winning a) :
    let last := Attempt.steps (store.accessor strategy holder now faults) config k a registry s
    (¬ Race.Winning last.1 ∧ store.lease last.2.2 config.name = store.lease s config.name) ∨
      (Race.Winning last.1 ∧ store.Acquired ⟨holder, config, now⟩ s last.2.2) := by
  induction k generalizing a registry s with
  | zero => exact .inl ⟨trying, rfl⟩
  | succ k ih =>
    rcases phase_cases strategy holder faults registry sound timely trying with
      ⟨trying', same⟩ | ⟨won, acquired⟩
    · rcases ih (a.step (store.accessor strategy holder now faults) config registry s).2.1
          (Race.sound_step sound timely) trying' with ⟨still, unchanged⟩ | ⟨won, acquired⟩
      · exact .inl ⟨still, unchanged.trans same⟩
      · exact .inr ⟨won, acquired.of_unchanged Race.keeps_step same⟩
    · right
      obtain ⟨still, last⟩ := steps_winning k (store.accessor strategy holder now faults) config
        (a.step (store.accessor strategy holder now faults) config registry s).2.1
        (a.step (store.accessor strategy holder now faults) config registry s).2.2 won
      exact ⟨still, acquired.keeps, acquired.expired,
        (congrArg (store.lease · config.name) last).trans acquired.fresh⟩

/-- Whatever the registry knows, an attempt acquires the lock where no lease is live, or leaves the lease
alone. -/
theorem acquire_effect (strategy : AcquireStrategy) (holder : String)
    (faults : Operation → Option StoreFault) (registry : Registry) (sound : store.Sound s config.name)
    (timely : store.Timely now) :
    let last := acquire (store.accessor strategy holder now faults) config registry s
    (last.1 ≠ .ok true ∧ store.lease last.2.2 config.name = store.lease s config.name) ∨
      (last.1 = .ok true ∧ store.Acquired ⟨holder, config, now⟩ s last.2.2) := by
  have first : ¬ Race.Winning (.first (store.accessor strategy holder now faults).strategy) := by
    unfold Attempt.first
    split <;> simp [Race.Winning]
  obtain ⟨answer, ended, same⟩ :=
    finished_acquire (store.accessor strategy holder now faults) config registry s
  rcases phases_cases 5 strategy holder faults registry sound timely first with
    ⟨trying, unchanged⟩ | ⟨won, acquired⟩
  · rw [ended] at trying
    refine .inl ⟨fun won => trying (.inr ?_), unchanged⟩
    rw [← same, won]
  · have answered := Attempt.finished.inj (ended.symm.trans (Race.answer_of_winning won ended))
    exact .inr ⟨same.trans answered, acquired⟩

/-! ## Layers of providers -/

/-- All layers of a provider that keep locks alive take a configuration. -/
def Provider.Admits (config : LockConfig) : Provider → Prop
  | .plain _ => True
  | .keepingAlive minimum inner => Renewal.check minimum config = .ok () ∧ inner.Admits config
  | .tracking _ inner => inner.Admits config

/-- Where a lease is live and nothing fails, no provider gives out a handle. -/
theorem Provider.tryLock_held {p : Provider} {stage : Stage store.State} {l : StoredLease τ}
    (strategy : AcquireStrategy) (holder : String) (timer : Duration)
    (sound : store.Sound stage.store config.name) (timely : store.Timely now)
    (keeps : store.Keeps stage.store config.name) (found : store.lease stage.store config.name = some l)
    (live : store.clock.reading now < l.lockUntil) (admits : p.Admits config) :
    (p.tryLock (store.accessor strategy holder now) timer config stage).1.1 = .ok none := by
  induction p with
  | plain registry =>
    have held := (acquire_held strategy holder registry sound timely keeps found live).1
    have answer : (tryPlain (store.accessor strategy holder now) config registry stage).1.1 = .ok none := by
      rw [tryPlain_answer, held, answerOf]
    exact answer
  | keepingAlive minimum inner ih =>
    obtain ⟨accepted, admits⟩ := admits
    have refused := ih admits
    simp only [tryLock, accepted, bind, StateT.bind]
    revert refused
    rcases inner.tryLock (store.accessor strategy holder now) timer config stage with ⟨⟨answer, inner'⟩, stage'⟩
    rintro ⟨⟩
    rfl
  | tracking tracker inner ih =>
    have refused := ih admits
    simp only [tryLock, bind, StateT.bind]
    revert refused
    rcases inner.tryLock (store.accessor strategy holder now) timer config stage with ⟨⟨answer, inner'⟩, stage'⟩
    rintro ⟨⟩
    rfl

end

end TaskLease

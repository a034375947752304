import TaskLease.Proofs.Lease.Effect

/-!
# Stores of leases

What holders may rely on is the same for all stores that decide inside one atomic unit. A `LeaseStore` is
such a store with the proof that it does: its state shows at most one lease for each name, an operation
does to the lease of its own name what `Operation.applies` and `Operation.after` say, and it leaves the
leases of other names alone.

A store need not be able to keep a lease under every name. Under a name that it can not keep one, every
operation fails and changes nothing.
-/

namespace TaskLease

/-- A store of leases, whose times are of type `τ`. -/
structure LeaseStore (τ : Type) [LinearOrder τ] where
  /-- The states of the store. -/
  State : Type
  clock : Reckoning τ
  /-- Whether an insert of an accessor with a strategy takes over an expired lease. -/
  reclaims : AcquireStrategy → Bool
  /-- Whether what the state holds under a name is a lease or nothing. -/
  Sound : State → String → Prop
  /-- Whether the store can keep a lease under a name. -/
  Keeps : State → String → Prop
  /-- The instants that its clock can show. -/
  Timely : Instant → Prop
  perform : Access → State → Except StoreFault Bool × State
  /-- The lease kept under a name. -/
  lease : State → String → Option (StoredLease τ)
  reclaims_of_insertReclaims : ∀ {strategy}, strategy.insertReclaims = true → reclaims strategy = true
  sound_perform : ∀ {a s name}, Sound s name → Timely a.now → Sound (perform a s).2 name
  keeps_perform : ∀ {a s name}, Keeps (perform a s).2 name ↔ Keeps s name
  perform_kept : ∀ {a s}, Sound s a.config.name → Timely a.now → Keeps s a.config.name →
    (perform a s).1 =
      .ok (a.op.applies clock a.toDemand (reclaims a.strategy) (lease s a.config.name))
  lease_perform_kept : ∀ {a s}, Sound s a.config.name → Timely a.now → Keeps s a.config.name →
    lease (perform a s).2 a.config.name =
      a.op.after clock a.toDemand (reclaims a.strategy) (lease s a.config.name)
  perform_not_kept : ∀ {a s}, ¬ Keeps s a.config.name → ∃ fault, perform a s = (.error fault, s)
  lease_perform_of_ne : ∀ {a s name}, a.config.name ≠ name → lease (perform a s).2 name = lease s name

namespace LeaseStore

variable {τ : Type} [LinearOrder τ] (store : LeaseStore τ)

/-- The state after some accesses, one after the other. -/
def run (accesses : List Access) (s : store.State) : store.State :=
  accesses.foldl (fun s a => (store.perform a s).2) s

/-- Whether an access acquires the lock of a name. -/
def acquires (name : String) (a : Access) (s : store.State) : Bool :=
  a.op.isAcquisition && decide (a.config.name = name) && decide ((store.perform a s).1.toOption = some true)

/-- The accessor of a holder to the store at an instant. An operation for which there is a fault fails with
it, and does not reach the store. -/
def accessor (strategy : AcquireStrategy) (holder : String) (now : Instant)
    (faults : Operation → Option StoreFault := fun _ => none) : Accessor store.State where
  strategy := strategy
  perform op config s :=
    match faults op with
    | some fault => (.error fault, s)
    | none => store.perform { holder, config, now, strategy, op } s

/-- A run that can be made from a state on: it is sound under a name, and the clock can show the times. -/
structure Possible (name : String) (accesses : List Access) (s : store.State) : Prop where
  sound : store.Sound s name
  timely : ∀ a ∈ accesses, store.Timely a.now

variable {store} {name : String} {a : Access} {accesses : List Access} {s : store.State}

theorem Possible.now (possible : store.Possible name (a :: accesses) s) : store.Timely a.now :=
  possible.timely a List.mem_cons_self

/-- After the first access the others can still be made. -/
theorem Possible.next (possible : store.Possible name (a :: accesses) s) :
    store.Possible name accesses (store.perform a s).2 where
  sound := store.sound_perform possible.sound possible.now
  timely b member := possible.timely b (List.mem_cons_of_mem a member)

/-- After some accesses the others can still be made. -/
theorem Possible.run {before after : List Access} (possible : store.Possible name (before ++ after) s) :
    store.Possible name after (store.run before s) := by
  induction before generalizing s with
  | nil => exact possible
  | cons a rest ih => exact ih possible.next

theorem Possible.before {before after : List Access} (possible : store.Possible name (before ++ after) s) :
    store.Possible name before s :=
  ⟨possible.sound, fun a member => possible.timely a (List.mem_append_left after member)⟩

theorem run_append (first last : List Access) (s : store.State) :
    store.run (first ++ last) s = store.run last (store.run first s) :=
  List.foldl_append

/-- Whoever acquires a lock finds no live lease, and leaves one that begins then. -/
theorem lease_of_acquires (sound : store.Sound s name) (timely : store.Timely a.now)
    (acquired : store.acquires name a s = true) :
    (∀ l, store.lease s name = some l → l.lockUntil ≤ store.clock.reading a.now) ∧
      store.lease (store.perform a s).2 name = some (a.freshLease store.clock) := by
  rw [acquires, Bool.and_eq_true, Bool.and_eq_true, decide_eq_true_iff, decide_eq_true_iff] at acquired
  obtain ⟨⟨acquisition, rfl⟩, answer⟩ := acquired
  have kept : store.Keeps s a.config.name := by
    by_contra not_kept
    obtain ⟨fault, failed⟩ := store.perform_not_kept not_kept
    rw [failed] at answer
    cases answer
  rw [store.perform_kept sound timely kept] at answer
  have applied := Option.some.inj answer
  constructor
  · intro l found
    rw [found] at applied
    exact Operation.expired_of_applies acquisition applied
  · rw [store.lease_perform_kept sound timely kept]
    exact Operation.after_acquisition acquisition applied

/-- An access that does not acquire the lock leaves its lease alone, or is a release or a renewal by the
holder of that lease. -/
theorem lease_of_not_acquires (sound : store.Sound s name) (timely : store.Timely a.now)
    (not_acquired : store.acquires name a s = false) :
    store.lease (store.perform a s).2 name = store.lease s name ∨
      ∃ l, store.lease s name = some l ∧ a.config.name = name ∧ a.holder = l.lockedBy ∧
        ((a.op = .unlock ∧ store.lease (store.perform a s).2 name = some (a.releasedLease store.clock l)) ∨
          (a.op = .extend ∧ store.lease (store.perform a s).2 name = some (a.renewedLease store.clock l))) := by
  by_cases same : a.config.name = name
  · subst same
    by_cases kept : store.Keeps s a.config.name
    · have answer := store.perform_kept sound timely kept
      rw [store.lease_perform_kept sound timely kept]
      have refused : a.op.isAcquisition = true →
          a.op.applies store.clock a.toDemand (store.reclaims a.strategy) (store.lease s a.config.name) =
            false := by
        intro acquisition
        rw [acquires, acquisition, answer] at not_acquired
        simpa [Except.toOption] using not_acquired
      rcases Operation.after_of_not_acquired refused with unchanged | ⟨l, found, own, change⟩
      · exact .inl unchanged
      · exact .inr ⟨l, found, rfl, own.symm, change⟩
    · obtain ⟨fault, failed⟩ := store.perform_not_kept kept
      rw [failed]
      exact .inl rfl
  · exact .inl (store.lease_perform_of_ne same)

/-- An operation that is not applied leaves the lease alone. -/
theorem lease_of_refused (sound : store.Sound s a.config.name) (timely : store.Timely a.now)
    (refused : (store.perform a s).1 ≠ .ok true) :
    store.lease (store.perform a s).2 a.config.name = store.lease s a.config.name := by
  by_cases kept : store.Keeps s a.config.name
  · rw [store.perform_kept sound timely kept] at refused
    rw [store.lease_perform_kept sound timely kept, Operation.after, if_neg fun applied => refused (by rw [applied])]
  · obtain ⟨fault, failed⟩ := store.perform_not_kept kept
    rw [failed]

/-! ## Acquisitions where no lease is live -/

/-- An insert that finds no live lease acquires the lock. It is refused only where it finds an expired lease
and its strategy does not take that over. -/
theorem insert_of_expired (is_insert : a.op = .insert) (sound : store.Sound s a.config.name)
    (timely : store.Timely a.now) (keeps : store.Keeps s a.config.name)
    (expired : ∀ l, store.lease s a.config.name = some l → l.lockUntil ≤ store.clock.reading a.now) :
    ((store.perform a s).1 = .ok true ∧
        store.lease (store.perform a s).2 a.config.name = some (a.freshLease store.clock)) ∨
      ((store.perform a s).1 = .ok false ∧
        store.lease (store.perform a s).2 a.config.name = store.lease s a.config.name ∧
        (store.lease s a.config.name).isSome = true ∧ a.strategy.insertReclaims = false) := by
  have answer := store.perform_kept sound timely keeps
  have lease := store.lease_perform_kept sound timely keeps
  rw [is_insert] at answer lease
  cases applied : Operation.applies store.clock a.toDemand (store.reclaims a.strategy) .insert
      (store.lease s a.config.name) with
  | true =>
    rw [applied] at answer
    exact .inl ⟨answer, lease.trans (Operation.after_acquisition rfl applied)⟩
  | false =>
    rw [applied] at answer
    rw [Operation.after, applied] at lease
    refine .inr ⟨answer, lease, ?_⟩
    cases found : store.lease s a.config.name with
    | none =>
      rw [found] at applied
      cases applied
    | some l =>
      rw [found] at applied
      have ended : l.lockUntil ≤ store.clock.reading a.now := expired l found
      simp only [Operation.applies, ended, decide_true, Bool.and_true] at applied
      refine ⟨rfl, Bool.eq_false_iff.mpr fun reclaims => ?_⟩
      rw [store.reclaims_of_insertReclaims reclaims] at applied
      cases applied

/-- An update that finds an expired lease acquires the lock. -/
theorem update_of_expired {l : StoredLease τ} (is_update : a.op = .update) (sound : store.Sound s a.config.name)
    (timely : store.Timely a.now) (keeps : store.Keeps s a.config.name)
    (found : store.lease s a.config.name = some l) (expired : l.lockUntil ≤ store.clock.reading a.now) :
    (store.perform a s).1 = .ok true ∧
      store.lease (store.perform a s).2 a.config.name = some (a.freshLease store.clock) := by
  have answer := store.perform_kept sound timely keeps
  have lease := store.lease_perform_kept sound timely keeps
  have applied : Operation.applies store.clock a.toDemand (store.reclaims a.strategy) .update
      (store.lease s a.config.name) = true := by
    rw [found]
    exact decide_eq_true expired
  rw [is_update] at answer lease
  rw [applied] at answer
  exact ⟨answer, lease.trans (Operation.after_acquisition rfl applied)⟩

/-- Where a lease is live nothing acquires the lock. -/
theorem refused_of_live {l : StoredLease τ} (acquisition : a.op.isAcquisition = true)
    (sound : store.Sound s a.config.name) (timely : store.Timely a.now) (keeps : store.Keeps s a.config.name)
    (found : store.lease s a.config.name = some l) (live : store.clock.reading a.now < l.lockUntil) :
    (store.perform a s).1 = .ok false := by
  rw [store.perform_kept sound timely keeps, found]
  cases applied : Operation.applies store.clock a.toDemand (store.reclaims a.strategy) a.op (some l) with
  | true => exact absurd live (not_lt.mpr (Operation.expired_of_applies acquisition applied))
  | false => rfl

/-! ## Releases -/

/-- A release of a lease by its holder succeeds, live or not. -/
theorem unlock_of_own {l : StoredLease τ} (is_unlock : a.op = .unlock) (sound : store.Sound s a.config.name)
    (timely : store.Timely a.now) (keeps : store.Keeps s a.config.name)
    (found : store.lease s a.config.name = some l) (own : l.lockedBy = a.holder) :
    (store.perform a s).1 = .ok true ∧
      store.lease (store.perform a s).2 a.config.name = some (a.releasedLease store.clock l) := by
  have answer := store.perform_kept sound timely keeps
  have lease := store.lease_perform_kept sound timely keeps
  have applied : Operation.applies store.clock a.toDemand (store.reclaims a.strategy) .unlock
      (store.lease s a.config.name) = true := by
    rw [found]
    exact decide_eq_true own
  rw [is_unlock] at answer lease
  rw [applied] at answer
  rw [Operation.after, if_pos applied, found] at lease
  exact ⟨answer, lease⟩

/-! ## Renewals -/

/-- A renewal of a live lease by its holder succeeds. -/
theorem extend_of_live {l : StoredLease τ} (is_extend : a.op = .extend) (sound : store.Sound s a.config.name)
    (timely : store.Timely a.now) (keeps : store.Keeps s a.config.name)
    (found : store.lease s a.config.name = some l) (own : l.lockedBy = a.holder)
    (live : store.clock.reading a.now < l.lockUntil) :
    (store.perform a s).1 = .ok true ∧
      store.lease (store.perform a s).2 a.config.name = some (a.renewedLease store.clock l) := by
  have answer := store.perform_kept sound timely keeps
  have lease := store.lease_perform_kept sound timely keeps
  have applied : Operation.applies store.clock a.toDemand (store.reclaims a.strategy) .extend
      (store.lease s a.config.name) = true := by
    rw [found, Operation.applies, Bool.and_eq_true]
    exact ⟨decide_eq_true own, decide_eq_true live⟩
  rw [is_extend] at answer lease
  rw [applied] at answer
  rw [Operation.after, if_pos applied, found] at lease
  exact ⟨answer, lease⟩

/-- A renewal of a lease that is over, or somebody else's, is refused and changes nothing. -/
theorem extend_of_over {l : StoredLease τ} (is_extend : a.op = .extend) (sound : store.Sound s a.config.name)
    (timely : store.Timely a.now) (keeps : store.Keeps s a.config.name)
    (found : store.lease s a.config.name = some l)
    (lost : l.lockedBy ≠ a.holder ∨ l.lockUntil ≤ store.clock.reading a.now) :
    (store.perform a s).1 = .ok false ∧
      store.lease (store.perform a s).2 a.config.name = store.lease s a.config.name := by
  have answer := store.perform_kept sound timely keeps
  have lease := store.lease_perform_kept sound timely keeps
  have refused : Operation.applies store.clock a.toDemand (store.reclaims a.strategy) .extend
      (store.lease s a.config.name) = false := by
    rw [found, Operation.applies, Bool.and_eq_false_iff]
    exact lost.imp decide_eq_false fun ended => decide_eq_false (not_lt.mpr ended)
  rw [is_extend] at answer lease
  rw [refused] at answer
  rw [Operation.after, refused] at lease
  exact ⟨answer, lease⟩

/-- A renewal succeeds only where it finds a live lease of its holder, which is renewed then. -/
theorem lease_of_extended (is_extend : a.op = .extend) (sound : store.Sound s a.config.name)
    (timely : store.Timely a.now) (extended : (store.perform a s).1 = .ok true) :
    store.Keeps s a.config.name ∧ ∃ l, store.lease s a.config.name = some l ∧ l.lockedBy = a.holder ∧
      store.clock.reading a.now < l.lockUntil ∧
      store.lease (store.perform a s).2 a.config.name = some (a.renewedLease store.clock l) := by
  have keeps : store.Keeps s a.config.name := by
    by_contra not_kept
    obtain ⟨fault, failed⟩ := store.perform_not_kept not_kept
    rw [failed] at extended
    cases extended
  have answer := store.perform_kept sound timely keeps
  rw [extended, is_extend] at answer
  have applied := (Except.ok.inj answer).symm
  cases found : store.lease s a.config.name with
  | none =>
    rw [found] at applied
    cases applied
  | some l =>
    rw [found, Operation.applies, Bool.and_eq_true] at applied
    obtain ⟨own, live⟩ := applied.imp of_decide_eq_true of_decide_eq_true
    exact ⟨keeps, l, rfl, own, live, (extend_of_live is_extend sound timely keeps found own live).2⟩

/-! ## Accessors -/

section

variable {strategy : AcquireStrategy} {holder : String} {now : Instant} {faults : Operation → Option StoreFault}

/-- An operation of an accessor fails and changes nothing, or reaches a store that can keep the lease. -/
theorem accessor_perform (strategy : AcquireStrategy) (holder : String) (now : Instant)
    (faults : Operation → Option StoreFault) (op : Operation) (config : LockConfig) (s : store.State) :
    (∃ fault, (store.accessor strategy holder now faults).perform op config s = (.error fault, s)) ∨
      (store.Keeps s config.name ∧ (store.accessor strategy holder now faults).perform op config s =
        store.perform { holder, config, now, strategy, op } s) := by
  simp only [accessor]
  cases faults op with
  | some fault => exact .inl ⟨fault, rfl⟩
  | none =>
    by_cases kept : store.Keeps s config.name
    · exact .inr ⟨kept, rfl⟩
    · exact .inl (store.perform_not_kept (a := { holder, config, now, strategy, op }) kept)

theorem sound_accessor (op : Operation) (config : LockConfig) (sound : store.Sound s name)
    (timely : store.Timely now) :
    store.Sound ((store.accessor strategy holder now faults).perform op config s).2 name := by
  rcases accessor_perform strategy holder now faults op config s with ⟨fault, failed⟩ | ⟨-, performed⟩
  · rwa [failed]
  · rw [performed]
    exact store.sound_perform sound timely

theorem keeps_accessor (op : Operation) (config : LockConfig) :
    store.Keeps ((store.accessor strategy holder now faults).perform op config s).2 name ↔ store.Keeps s name := by
  rcases accessor_perform strategy holder now faults op config s with ⟨fault, failed⟩ | ⟨-, performed⟩
  · rw [failed]
  · rw [performed]
    exact store.keeps_perform

theorem lease_accessor_of_ne (op : Operation) {config : LockConfig} (other : config.name ≠ name) :
    store.lease ((store.accessor strategy holder now faults).perform op config s).2 name =
      store.lease s name := by
  rcases accessor_perform strategy holder now faults op config s with ⟨fault, failed⟩ | ⟨-, performed⟩
  · rw [failed]
  · rw [performed]
    exact store.lease_perform_of_ne other

/-- A release or a renewal of an accessor leaves the lease alone, or is that of the lease's holder, which
stays its holder. -/
theorem lease_accessor_of_not_acquisition {op : Operation} (not_acquisition : op.isAcquisition = false)
    (config : LockConfig) (sound : store.Sound s name) (timely : store.Timely now) :
    let next := ((store.accessor strategy holder now faults).perform op config s).2
    store.lease next name = store.lease s name ∨
      ∃ l l', store.lease s name = some l ∧ store.lease next name = some l' ∧ l'.lockedBy = l.lockedBy ∧
        config.name = name ∧ holder = l.lockedBy := by
  rcases accessor_perform strategy holder now faults op config s with ⟨fault, failed⟩ | ⟨-, performed⟩
  · rw [failed]
    exact .inl rfl
  rw [performed]
  have not_acquired : store.acquires name { holder, config, now, strategy, op } s = false := by
    rw [acquires, not_acquisition]
    rfl
  rcases lease_of_not_acquires sound timely not_acquired with
    same | ⟨l, found, named, own, ⟨-, next⟩ | ⟨-, next⟩⟩
  · exact .inl same
  · exact .inr ⟨l, _, found, next, rfl, named, own⟩
  · exact .inr ⟨l, _, found, next, rfl, named, own⟩

end

end LeaseStore

end TaskLease

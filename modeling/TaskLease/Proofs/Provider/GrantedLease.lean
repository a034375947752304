import TaskLease.Proofs.Lease.RecordStores
import TaskLease.Proofs.Provider.Acquisition
import TaskLease.Proofs.Provider.Calls

/-!
# Granted leases

A lease is granted by an attempt that gives out a handle, or by an extension that succeeds. `acquire_grants` and
`extend_grants` say what the store then keeps.

A granted lease is live at the instant at which it is granted exactly if it is granted for some time, and while it
is live nobody else is given a handle. A lease for no time at all is over as soon as it is granted, so at one
instant it can be granted to any number of holders.
-/

namespace TaskLease

section

variable {σ : Type} {accessor : Accessor σ} {config : LockConfig} {stage : Stage σ} {timer : Duration}
  {handle : Handle}

/-- A provider that gives out a handle, with whatever layers, has acquired the lock on the store. -/
theorem Provider.acquire_of_tryLock {p : Provider}
    (granted : (p.tryLock accessor timer config stage).1.1 = .ok (some handle)) :
    ∃ registry, (acquire accessor config registry stage.store).1 = .ok true ∧
      (p.tryLock accessor timer config stage).2.store = (acquire accessor config registry stage.store).2.2 := by
  induction p generalizing handle with
  | plain registry =>
    have answered : (tryPlain accessor config registry stage).1.1 = .ok (some handle) := granted
    rw [tryPlain_answer] at answered
    exact ⟨registry, eq_true_of_answerOf answered, tryPlain_state.2⟩
  | keepingAlive minimum inner ih =>
    simp only [tryLock] at granted ⊢
    cases accepted : Renewal.check minimum config with
    | error e =>
      rw [accepted] at granted
      cases granted
    | ok =>
      simp only [accepted, bind, StateT.bind] at granted ⊢
      revert granted ih
      rcases inner.tryLock accessor timer config stage with ⟨⟨fault | _ | inside, inner'⟩, stage'⟩
      · intro _ granted
        cases granted
      · intro _ granted
        cases granted
      · intro ih _
        exact ih rfl
  | tracking tracker inner ih =>
    simp only [tryLock, bind, StateT.bind] at granted ⊢
    revert granted ih
    rcases inner.tryLock accessor timer config stage with ⟨⟨fault | _ | inside, inner'⟩, stage'⟩
    · intro _ granted
      cases granted
    · intro _ granted
      cases granted
    · intro ih _
      exact ih rfl

end

namespace RecordStore

/-- A live record is found under a name. -/
def Live (store : RecordStore) (s : store.State) (name : String) (now : Instant) : Prop :=
  ∃ r, store.find s name = .ok (some r) ∧ r.isHeldAt now = true

/-- No provider gives out a handle of a name at an instant, whoever it acts for. -/
def Closed (store : RecordStore) (s : store.State) (name : String) (now : Instant) : Prop :=
  ∀ (strategy : AcquireStrategy) (holder : String) (faults : Operation → Option StoreFault) (timer : Duration)
    (config : LockConfig) (p : Provider) (events : List Event) (handle : Handle), config.name = name →
    (p.tryLock (store.accessor strategy holder now faults) timer config { store := s, events }).1.1 ≠
      .ok (some handle)

/-- What is said of a lease that was granted for some time. -/
structure Granted (store : RecordStore) (s : store.State) (name : String) (now : Instant) (length : Duration) :
    Prop where
  live_iff : store.Live s name now ↔ 0 < length.nanos
  closed : 0 < length.nanos → store.Closed s name now

variable {store : RecordStore} {strategy : AcquireStrategy} {holder : String} {now : Instant}
  {faults : Operation → Option StoreFault} {config : LockConfig} {s : store.State} {name : String}

theorem sound_of_accessor (strict : store.Strict) {op : Operation} {applied : Bool}
    (answered : ((store.accessor strategy holder now faults).perform op config s).1 = .ok applied) :
    store.Sound s config.name := by
  rcases LeaseStore.accessor_perform strategy holder now faults op config s with
    ⟨fault, failed⟩ | ⟨-, performed⟩
  · rw [failed] at answered
    cases answered
  · rw [performed] at answered
    exact strict.sound_of_ok answered

/-- Whoever acquires a lock has found a record that can be read, or none. -/
theorem sound_of_acquire (strict : store.Strict) {registry : Registry}
    (acquired : (acquire (store.accessor strategy holder now faults) config registry s).1 = .ok true) :
    store.Sound s config.name := by
  let accessor := store.accessor strategy holder now faults
  cases reclaims : accessor.strategy.insertReclaims with
  | true =>
    rw [acquire_reclaiming reclaims] at acquired
    exact sound_of_accessor strict acquired
  | false =>
    cases knows : registry.contains config.name with
    | true =>
      rw [acquire_known reclaims knows] at acquired
      exact sound_of_accessor strict acquired
    | false =>
      rw [acquire_unknown reclaims knows] at acquired
      cases first : (accessor.perform .insert config s).1 with
      | ok applied => exact sound_of_accessor strict first
      | error fault =>
        rw [first] at acquired
        cases acquired

/-- The record of a lease that a holder has acquired. -/
def acquiredRecord (holder : String) (config : LockConfig) (now : Instant) : LockRecord :=
  ⟨config.name, now.add config.atMost, now, holder⟩

/-- An attempt that acquires the lock has found no live lease, and leaves its own. -/
theorem acquire_grants (strict : store.Strict) {registry : Registry}
    (acquired : (acquire (store.accessor strategy holder now faults) config registry s).1 = .ok true) :
    (∀ l, store.lease s config.name = some l → l.lockUntil ≤ now) ∧
      store.Has (acquire (store.accessor strategy holder now faults) config registry s).2.2 config.name
        (acquiredRecord holder config now) := by
  have sound := sound_of_acquire strict acquired
  have timely := store.timely now
  rcases acquire_effect strategy holder faults registry sound timely with ⟨lost, -⟩ | ⟨-, won⟩
  · exact absurd acquired lost
  have expired := won.expired
  have fresh := won.fresh
  rw [store.clock_eq] at expired fresh
  refine ⟨expired, ?_, ?_, fresh⟩
  · exact sound_acquire strategy holder faults config registry sound timely
  · exact (keeps_acquire strategy holder faults config registry s config.name timely).mpr won.keeps

/-- An extension that succeeds leaves a lease of its holder that begins now. -/
theorem extend_grants (strict : store.Strict) {l : Lease} {atMost atLeast : Duration} {stage : Stage store.State}
    (succeeded : (l.extend (store.accessor strategy holder now faults) atMost atLeast stage).1.1 = .ok true) :
    ∃ r, store.Has (l.extend (store.accessor strategy holder now faults) atMost atLeast stage).2.store l.config.name r ∧
      r.lockUntil = now.add atMost ∧ r.lockedAt = now ∧ r.lockedBy = holder := by
  let accessor := store.accessor strategy holder now faults
  have held : l.state = .held := by
    cases state : l.state with
    | held => rfl
    | released =>
      rw [Lease.extend_released _ _ atMost atLeast state] at succeeded
      cases succeeded
    | lost =>
      rw [Lease.extend_lost _ _ atMost atLeast state] at succeeded
      cases succeeded
  cases allowed : l.config.withDurations atMost atLeast with
  | error e =>
    rw [Lease.extend_refused _ _ held allowed] at succeeded
    cases succeeded
  | ok extended =>
    obtain ⟨named, rfl, rfl⟩ := LockConfig.withDurations_eq_ok_iff.mp allowed
    obtain ⟨outcome, stored⟩ := Lease.extend_held accessor stage held allowed
    have answered : (accessor.perform .extend extended stage.store).1 = .ok true := by
      rw [outcome] at succeeded
      revert succeeded
      rcases (accessor.perform .extend extended stage.store).1 with fault | _ | _ <;> intro succeeded
      · cases succeeded
      · cases succeeded
      · rfl
    have sound := sound_of_accessor strict answered
    have timely := store.timely now
    have after : ∃ r, store.Has (accessor.perform .extend extended stage.store).2 extended.name r ∧
        r.lockUntil = now.add extended.atMost ∧ r.lockedAt = now ∧ r.lockedBy = holder := by
      rcases LeaseStore.accessor_perform strategy holder now faults .extend extended stage.store with
        ⟨fault, failed⟩ | ⟨-, performed⟩
      · rw [failed] at answered
        cases answered
      rw [performed] at answered ⊢
      obtain ⟨keeps, found, -, own, -, renewed⟩ := LeaseStore.lease_of_extended rfl sound timely answered
      rw [store.clock_eq] at renewed
      refine ⟨⟨found.name, now.add extended.atMost, now, found.lockedBy⟩, ⟨?_, ?_, renewed⟩, rfl, rfl, own⟩
      · exact store.sound_perform sound timely
      · exact store.keeps_perform.mpr keeps
    rw [stored, ← named]
    exact after

/-- A record that was granted is live exactly if it was granted for some time, and closes the lock then. -/
theorem Has.granted {r : LockRecord} {length : Duration} (has : store.Has s name r)
    (granted : r.lockUntil = now.add length) (before : now < .max) (strict : store.Strict) :
    store.Granted s name now length where
  live_iff := by
    rw [← Instant.lt_add_iff before, ← granted]
    constructor
    · rintro ⟨found, same, live⟩
      cases Option.some.inj (Except.ok.inj (same.symm.trans has.find))
      exact LockRecord.isHeldAt_iff.mp live
    · intro live
      exact ⟨r, has.find, LockRecord.isHeldAt_iff.mpr live⟩
  closed := by
    intro some_time strategy holder faults timer config p events handle named given
    obtain ⟨registry, acquired, -⟩ := Provider.acquire_of_tryLock given
    have expired := (acquire_grants strict acquired).1 r.lease (named ▸ has.lease)
    have live : now < r.lockUntil := by
      rw [granted]
      exact (Instant.lt_add_iff before).mpr some_time
    exact absurd live (not_lt.mpr expired)

/-- Whatever the state of the store, and whatever fails: what is said of the leases that are granted at an instant
before the last one. -/
structure GrantsLive (store : RecordStore) (now : Instant) : Prop where
  tryLock : ∀ (strategy : AcquireStrategy) (holder : String) (faults : Operation → Option StoreFault) (p : Provider)
    (timer : Duration) (config : LockConfig) (stage : Stage store.State) (handle : Handle),
    let reply := p.tryLock (store.accessor strategy holder now faults) timer config stage
    reply.1.1 = .ok (some handle) → now < .max → store.Granted reply.2.store config.name now config.atMost
  extend : ∀ (strategy : AcquireStrategy) (holder : String) (faults : Operation → Option StoreFault) (l : Lease)
    (atMost atLeast : Duration) (stage : Stage store.State),
    let reply := l.extend (store.accessor strategy holder now faults) atMost atLeast stage
    reply.1.1 = .ok true → now < .max → store.Granted reply.2.store l.config.name now atMost

theorem Strict.grantsLive (strict : store.Strict) (now : Instant) : store.GrantsLive now where
  tryLock := by
    intro strategy holder faults p timer config stage handle reply given before
    obtain ⟨registry, acquired, stored⟩ := Provider.acquire_of_tryLock given
    have has := (acquire_grants strict acquired).2
    rw [← stored] at has
    exact has.granted rfl before strict
  extend := by
    intro strategy holder faults l atMost atLeast stage reply extended before
    obtain ⟨r, has, lockUntil, -⟩ := extend_grants strict extended
    exact has.granted lockUntil before strict

end RecordStore

/-- In memory and in files a lease that is granted for some time is live, and nobody else is given a handle at the
same instant. -/
theorem granted_leases_live (now : Instant) :
    RecordStore.memory.GrantsLive now ∧ ∀ s, (RecordStore.file s).GrantsLive now :=
  ⟨RecordStore.strict_memory.grantsLive now, fun s => (RecordStore.strict_file s).grantsLive now⟩

/-- A lease that is asked for for no time at all is granted to two holders at one instant. -/
theorem empty_lease_granted_twice :
    let config : LockConfig := { LockConfig.nightly with
      atMost := .zero, atLeast := .zero, atLeast_le_atMost := by decide }
    let accessor (holder : String) := RecordStore.memory.accessor .insertThenUpdate holder .epoch
    let attempt (holder : String) (stage : Stage Records) :=
      (Provider.plain .empty).tryLock (accessor holder) .zero config stage
    let first := attempt "node" { store := (∅ : Records) }
    let second := attempt "rival" first.2
    first.1.1 = .ok (some (.lease { config })) ∧ second.1.1 = .ok (some (.lease { config })) ∧
      RecordStore.memory.find second.2.store "backup" = .ok (some ⟨"backup", .epoch, .epoch, "rival"⟩) := by
  decide +kernel

end TaskLease

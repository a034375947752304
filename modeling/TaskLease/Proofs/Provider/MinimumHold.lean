import TaskLease.Proofs.Provider.GrantedLease
import TaskLease.Proofs.Provider.Vigil

/-!
# The minimum hold under renewals

The minimum hold of a lock counts from its acquisition. A renewal begins the lease anew, so it takes one period off
what is left of the minimum: if no renewal comes before the period that it ends is over, the hold still ends where
it would have ended without renewals, or later.

`Carrying` is the invariant. It holds whatever other holders do to the store, and whatever others of the same
identity do; only that the lease is the one that the last renewal has left needs that there are no such others.
-/

namespace TaskLease

/-- The time that some periods between renewals take. A period is half of the maximum time, in whole nanoseconds. -/
def Renewal.spent (config : LockConfig) (periods : Nat) : Duration := ⟨periods * (config.atMost.nanos / 2)⟩

theorem Renewal.sub_spent_succ (config : LockConfig) (d : Duration) (periods : Nat) :
    d - spent config (periods + 1) = d - spent config periods - periodOf config := by
  have period : (periodOf config).nanos = config.atMost.nanos / 2 := rfl
  apply congrArg Duration.mk
  simp only [spent, Duration.nanos_sub, period, Nat.add_one_mul, Nat.sub_sub]

namespace Keeper

variable (k : Keeper)

/-- When a renewal gets an answer from the store in a turn, if one gets it. -/
def answered? (answer : Bool) (v : Vigil k.store.State) : Vigil.Turn → Option Instant
  | .ring => if (k.calls v).any (·.answer = .ok answer) then some v.clock else none
  | .pass _ | .perform .. => none

/-- When renewals get an answer from the store in some turns, the first time first. -/
def answered (answer : Bool) : List Vigil.Turn → Vigil k.store.State → List Instant
  | [], _ => []
  | t :: rest, v => (k.answered? answer v t).toList ++ answered answer rest (k.turn v t)

/-- When the lock is renewed in some turns. -/
def renewals (turns : List Vigil.Turn) (v : Vigil k.store.State) : List Instant := k.answered true turns v

/-- When the store refuses to renew the lock in some turns. -/
def refusals (turns : List Vigil.Turn) (v : Vigil k.store.State) : List Instant := k.answered false turns v

/-- Nobody else acts for the identity of the keeper. -/
def Alone (turns : List Vigil.Turn) : Prop :=
  ∀ holder strategy op config, Vigil.Turn.perform holder strategy op config ∈ turns → holder ≠ k.identity

/-- The answer to a release through the handle, and what it leaves. -/
def release (v : Vigil k.store.State) : Except LockError Unit × Vigil k.store.State :=
  let reply := v.handle.unlock (k.accessor v.clock) v.provider v.stage
  (reply.1.1, { v with stage := reply.2, handle := reply.1.2.1, provider := reply.1.2.2 })

/-- The answer to a release of a lease that is not renewed, and what it leaves of a store. -/
def releasePlain (config : LockConfig) (now : Instant) (s : k.store.State) : Except LockError Unit × k.store.State :=
  let reply := Lease.unlock (k.accessor now) { config } { store := s }
  (reply.1.1, reply.2.store)

end Keeper

/-- No renewal comes before the period that it ends is over. -/
def NotEarly (config : LockConfig) (start : Instant) (times : List Instant) : Prop :=
  ∀ i : Fin times.length, start.add (Renewal.spent config (i + 1)) ≤ times[i]

/-- Every renewal comes when the period that it ends is over. -/
def OnTime (config : LockConfig) (start : Instant) (times : List Instant) : Prop :=
  ∀ i : Fin times.length, times[i] = start.add (Renewal.spent config (i + 1))

instance (config : LockConfig) (start : Instant) (times : List Instant) : Decidable (NotEarly config start times) :=
  inferInstanceAs (Decidable (∀ _ : Fin _, _))

instance (config : LockConfig) (start : Instant) (times : List Instant) : Decidable (OnTime config start times) :=
  inferInstanceAs (Decidable (∀ _ : Fin _, _))

/-- Whether a handle counts as held, as the plain handle inside it knows. -/
def Handle.isHeld : Handle → Bool
  | .lease l => l.state = .held
  | .keptAlive _ inner | .tracked _ inner => inner.isHeld

/-- What a handle takes to be left of the minimum hold when the lock is renewed. -/
def Handle.remaining? : Handle → Option Duration
  | .lease _ => none
  | .keptAlive r _ => some r.remaining
  | .tracked _ inner => inner.remaining?

theorem NotEarly.last_le {config : LockConfig} {start : Instant} {times : List Instant}
    (not_early : NotEarly config start times) :
    start.add (Renewal.spent config times.length) ≤ times.getLastD start := by
  rcases List.eq_nil_or_concat times with rfl | ⟨earlier, t, rfl⟩
  · simp [Renewal.spent, Instant.add_zero]
  · simpa using not_early ⟨earlier.length, by simp⟩

theorem OnTime.last_eq {config : LockConfig} {start : Instant} {times : List Instant}
    (on_time : OnTime config start times) :
    times.getLastD start = start.add (Renewal.spent config times.length) := by
  rcases List.eq_nil_or_concat times with rfl | ⟨earlier, t, rfl⟩
  · simp [Renewal.spent, Instant.add_zero]
  · simpa using on_time ⟨earlier.length, by simp⟩

namespace Keeper

variable (k : Keeper) (config : LockConfig)

/-! ## The invariant -/

/-- The lease was begun at an instant, or later. If nobody else acts for the identity of the keeper, the keeper's
own lease was begun right then. -/
structure Begun (alone : Prop) (last : Instant) (found : StoredLease Instant) : Prop where
  last_le : last ≤ found.lockedAt
  calm : found.lockedAt.isLeap = false
  own : alone → found.lockedBy = k.identity → found.lockedAt = last

/-- After renewals at some times, the handle and the store agree on what is left of the minimum hold. -/
structure Carrying (alone granted : Prop) (start : Instant) (times : List Instant) (v : Vigil k.store.State)
    (r : Renewal) (l : Lease) : Prop where
  handle : v.handle = .keptAlive r (.lease l)
  config_eq : r.config = config
  name : l.config.name = config.name
  /-- What the handle would release the lock with. -/
  atLeast : l.config.atLeast = config.atLeast - Renewal.spent config times.length
  /-- Only a renewal that the store refuses makes the handle lose the lock. -/
  held : granted → l.state = .held
  /-- While renewals go on the lock is held, and they know what is left of the minimum. -/
  going : ∀ due, r.due = some due → r.active = true ∧ l.state = .held ∧
    r.remaining = config.atLeast - Renewal.spent config times.length
  sound : k.store.Sound v.stage.store config.name
  keeps : k.store.Keeps v.stage.store config.name
  calm : v.clock.isLeap = false
  last_le : times.getLastD start ≤ v.clock
  lease : ∃ found, k.store.lease v.stage.store config.name = some found ∧
    k.Begun alone (times.getLastD start) found

/-- The lock has just been renewed, for the last of some times. -/
structure Renewed (times : List Instant) (v : Vigil k.store.State) : Prop where
  lease : ∃ found, k.store.lease v.stage.store config.name = some found ∧ found.lockedAt = v.clock ∧
    found.lockedBy = k.identity
  remaining : v.handle.remaining? = some (config.atLeast - Renewal.spent config times.length)

variable {k config} {alone granted : Prop} {start last : Instant} {times : List Instant} {v : Vigil k.store.State}
  {r : Renewal} {l : Lease} {found : StoredLease Instant}

/-- No operation begins a lease before it happens. -/
theorem Begun.perform (begun : k.Begun alone last found) {a : Access} {s : k.store.State} {name : String}
    (sound : k.store.Sound s name) (lease : k.store.lease s name = some found) (later : last ≤ a.now)
    (calm : a.now.isLeap = false) (other : alone → a.holder ≠ k.identity) :
    ∃ next, k.store.lease (k.store.perform a s).2 name = some next ∧ k.Begun alone last next := by
  have timely := k.store.timely a.now
  have now : k.store.clock.reading a.now = a.now := by rw [k.store.clock_eq]; rfl
  cases acquired : k.store.acquires name a s with
  | true =>
    refine ⟨_, (LeaseStore.lease_of_acquires sound timely acquired).2, ?_, ?_, ?_⟩
    · exact later.trans_eq now.symm
    · exact (congrArg Instant.isLeap now).trans calm
    · exact fun are_alone own => absurd own (other are_alone)
  | false =>
    rcases LeaseStore.lease_of_not_acquires sound timely acquired with
      unchanged | ⟨before, there, -, by_holder, ⟨-, released⟩ | ⟨-, renewed⟩⟩
    · exact ⟨found, unchanged.trans lease, begun⟩
    · cases there.symm.trans lease
      exact ⟨_, released, begun.last_le, begun.calm, begun.own⟩
    · cases there.symm.trans lease
      refine ⟨_, renewed, ?_, ?_, ?_⟩
      · exact later.trans_eq now.symm
      · exact (congrArg Instant.isLeap now).trans calm
      · exact fun are_alone own => absurd (by_holder.trans own) (other are_alone)

namespace Carrying

/-! ## One turn -/

theorem pass (c : k.Carrying config alone granted start times v r l) (time : Duration) :
    k.Carrying config alone granted start times (k.turn v (.pass time)) r l :=
  { c with calm := Instant.add_not_leap c.calm, last_le := c.last_le.trans (Instant.le_add c.calm) }

theorem perform (c : k.Carrying config alone granted start times v r l) {holder : String}
    (other : alone → holder ≠ k.identity) (strategy : AcquireStrategy) (op : Operation) (asked : LockConfig) :
    k.Carrying config alone granted start times (k.turn v (.perform holder strategy op asked)) r l := by
  let access : Access := { holder, config := asked, now := v.clock, strategy, op }
  obtain ⟨found, lease, begun⟩ := c.lease
  exact { c with
    sound := k.store.sound_perform (a := access) c.sound (k.store.timely v.clock)
    keeps := (k.store.keeps_perform (a := access)).mpr c.keeps
    lease := begun.perform (a := access) c.sound lease c.last_le c.calm other }

/-- What is left of the minimum hold suits a renewal for as long as before. -/
theorem withDurations_ok (c : k.Carrying config alone granted start times v r l)
    (left : r.remaining = config.atLeast - Renewal.spent config times.length) :
    ∃ extended, l.config.withDurations r.config.atMost (r.remaining - r.period) = .ok extended := by
  have short : r.remaining - r.period ≤ r.config.atMost := by
    have bound := Duration.le_def.mp config.atLeast_le_atMost
    rw [left, c.config_eq, Duration.le_def]
    simp only [Duration.nanos_sub]
    omega
  exact ⟨⟨l.config.name, _, _, l.config.name_ne_empty, l.config.name_length_le, short⟩,
    LockConfig.withDurations_eq_ok_iff.mpr ⟨rfl, rfl, rfl⟩⟩

/-- A renewal that the store grants leaves one period less of the minimum hold. -/
theorem renew (c : k.Carrying config alone granted start times v r l) {due : Duration} {extended : LockConfig}
    (active : r.active = true) (held : l.state = .held)
    (left : r.remaining = config.atLeast - Renewal.spent config times.length) (in_time : ¬ r.expiry < v.timer)
    (allowed : l.config.withDurations r.config.atMost (r.remaining - r.period) = .ok extended)
    (renews : (k.store.perform ⟨⟨k.identity, extended, v.clock⟩, k.strategy, .extend⟩ v.stage.store).1 = .ok true)
    (stored : (k.ring v).stage.store =
      (k.store.perform ⟨⟨k.identity, extended, v.clock⟩, k.strategy, .extend⟩ v.stage.store).2)
    (handle : (k.ring v).handle = .keptAlive (r.tick due v.timer).2 (.lease { l with config := extended })) :
    k.Carrying config alone granted start (times ++ [v.clock]) (k.ring v) (r.tick due v.timer).2
        { l with config := extended } ∧
      k.Renewed config (times ++ [v.clock]) (k.ring v) := by
  obtain ⟨named, -, atLeast⟩ := LockConfig.withDurations_eq_ok_iff.mp allowed
  have name : extended.name = config.name := named.trans c.name
  have timely := k.store.timely v.clock
  obtain ⟨keeps, found, -, own, -, renewed⟩ := LeaseStore.lease_of_extended
    (a := ⟨⟨k.identity, extended, v.clock⟩, k.strategy, .extend⟩) rfl (name ▸ c.sound) timely renews
  rw [← stored, name] at renewed
  have now : k.store.clock.reading v.clock = v.clock := by rw [k.store.clock_eq]; rfl
  have less : extended.atLeast = config.atLeast - Renewal.spent config (times ++ [v.clock]).length := by
    rw [atLeast, left, Renewal.period, c.config_eq, List.length_append, List.length_singleton,
      Renewal.sub_spent_succ]
  have last : (times ++ [v.clock]).getLastD start = v.clock := by simp
  have next := tick_in_time due active in_time
  have remaining : (r.tick due v.timer).2.remaining =
      config.atLeast - Renewal.spent config (times ++ [v.clock]).length := by
    rw [next]
    exact atLeast ▸ less
  refine ⟨?_, ⟨_, renewed, now.trans (ring_clock v).symm, own⟩, by rw [handle, Handle.remaining?, remaining]⟩
  exact {
    handle := handle
    config_eq := (tick_config ..).trans c.config_eq
    name := name
    atLeast := less
    held := fun _ => held
    going := by
      intro later _
      exact ⟨by rw [next]; exact active, held, remaining⟩
    sound := by
      rw [stored]
      exact k.store.sound_perform c.sound timely
    keeps := by
      rw [stored]
      exact k.store.keeps_perform.mpr c.keeps
    calm := by simpa using c.calm
    last_le := by simp
    lease := by
      refine ⟨_, renewed, ?_, ?_, ?_⟩
      · exact (last.trans now.symm).le
      · exact (congrArg Instant.isLeap now).trans c.calm
      · exact fun _ _ => now.trans last.symm }

/-- A ring that leaves the lease alone ends the renewals. -/
theorem stop (c : k.Carrying config alone granted start times v r l) {r' : Renewal} {state : LeaseState}
    (handle : (k.ring v).handle = .keptAlive r'.stop (.lease { l with state }))
    (config_eq : r'.config = config) (held : granted → state = .held)
    (sound : k.store.Sound (k.ring v).stage.store config.name)
    (keeps : k.store.Keeps (k.ring v).stage.store config.name)
    (same : k.store.lease (k.ring v).stage.store config.name = k.store.lease v.stage.store config.name) :
    k.Carrying config alone granted start times (k.ring v) r'.stop { l with state } where
  handle := handle
  config_eq := config_eq
  name := c.name
  atLeast := c.atLeast
  held := held
  going _ rings := by cases rings
  sound := sound
  keeps := keeps
  calm := by simpa using c.calm
  last_le := by simpa using c.last_le
  lease := same ▸ c.lease

/-- A ring before the handle's deadline: what becomes of the lock is up to the store. -/
theorem ring_in_time (c : k.Carrying config alone granted start times v r l) {due : Duration}
    (due_now : r.due = some due) (in_time : ¬ r.expiry < v.timer) (accepts : granted → k.answered? false v .ring = none) :
    ∃ r' l', k.Carrying config alone granted start (times ++ (k.answered? true v .ring).toList) (k.ring v) r' l' ∧
      ∀ t, k.answered? true v .ring = some t → k.Renewed config (times ++ [t]) (k.ring v) := by
  obtain ⟨active, held, left⟩ := c.going due due_now
  obtain ⟨extended, allowed⟩ := c.withDurations_ok left
  obtain ⟨called, stored, handle⟩ := ring_once c.handle due_now active in_time held allowed
  let access : Access := ⟨⟨k.identity, extended, v.clock⟩, k.strategy, .extend⟩
  have name : access.config.name = config.name := (LockConfig.withDurations_eq_ok_iff.mp allowed).1.trans c.name
  have timely := k.store.timely v.clock
  have sound : k.store.Sound (k.store.perform access v.stage.store).2 config.name :=
    k.store.sound_perform c.sound timely
  have keeps : k.store.Keeps (k.store.perform access v.stage.store).2 config.name :=
    k.store.keeps_perform.mpr c.keeps
  have refused (not_granted : (k.store.perform access v.stage.store).1 ≠ .ok true) :
      k.store.lease (k.store.perform access v.stage.store).2 config.name = k.store.lease v.stage.store config.name :=
    name ▸ LeaseStore.lease_of_refused (name ▸ c.sound) timely not_granted
  have config_eq : (r.tick due v.timer).2.config = config := (tick_config ..).trans c.config_eq
  rw [answered?, called]
  rcases answer : (k.store.perform access v.stage.store).1 with fault | _ | _
  · rw [answer] at handle
    refine ⟨(r.tick due v.timer).2.stop, l, ?_⟩
    simpa [answer] using c.stop handle config_eq c.held (stored ▸ sound) (stored ▸ keeps)
      (stored ▸ refused (by simp [answer]))
  · rw [answer] at handle
    have refuses (is_granted : granted) : LeaseState.lost = .held := by
      have accepted := accepts is_granted
      simp only [answered?, called] at accepted
      simp [access, answer] at accepted
    refine ⟨(r.tick due v.timer).2.stop, { l with state := .lost }, ?_⟩
    simpa [answer] using c.stop handle config_eq refuses (stored ▸ sound) (stored ▸ keeps)
      (stored ▸ refused (by simp [answer]))
  · rw [answer] at handle
    refine ⟨(r.tick due v.timer).2, { l with config := extended }, ?_⟩
    simpa [answer] using c.renew active held left in_time allowed answer stored handle

/-- A ring renews the lock, or leaves the lease alone and ends the renewals. -/
theorem ring (c : k.Carrying config alone granted start times v r l)
    (accepts : granted → k.answered? false v .ring = none) :
    ∃ r' l', k.Carrying config alone granted start (times ++ (k.answered? true v .ring).toList) (k.ring v) r' l' ∧
      ∀ t, k.answered? true v .ring = some t → k.Renewed config (times ++ [t]) (k.ring v) := by
  cases due_now : r.due with
  | none =>
    have idle : v.handle.due? = none := by rw [c.handle, Handle.due?, due_now]; rfl
    obtain ⟨-, same, silent⟩ := run_ended [] idle
    rw [run, List.foldl_nil] at same silent
    refine ⟨r, l, ?_⟩
    rw [same, answered?, silent]
    simpa using c
  | some due =>
    by_cases expired : r.expiry < v.timer
    · obtain ⟨called, stored, handle⟩ := ring_late c.handle due_now (c.going due due_now).1 expired
      refine ⟨r.stop, l, ?_⟩
      rw [answered?, called]
      simpa using c.stop handle c.config_eq c.held (stored ▸ c.sound) (stored ▸ c.keeps) (by rw [stored])
    · exact c.ring_in_time due_now expired accepts

/-! ## Any number of turns -/

theorem turn (c : k.Carrying config alone granted start times v r l) (t : Vigil.Turn) (fair : alone → k.Alone [t])
    (accepts : granted → k.answered? false v t = none) :
    ∃ r' l', k.Carrying config alone granted start (times ++ (k.answered? true v t).toList) (k.turn v t) r' l' := by
  cases t with
  | pass time => exact ⟨r, l, by simpa [answered?] using c.pass time⟩
  | perform holder strategy op asked =>
    have other (are_alone : alone) : holder ≠ k.identity :=
      fair are_alone holder strategy op asked List.mem_cons_self
    exact ⟨r, l, by simpa [answered?] using c.perform other strategy op asked⟩
  | ring =>
    obtain ⟨r', l', next, -⟩ := c.ring accepts
    exact ⟨r', l', next⟩

theorem run (c : k.Carrying config alone granted start times v r l) (turns : List Vigil.Turn)
    (fair : alone → k.Alone turns) (accepts : granted → k.refusals turns v = []) :
    ∃ r' l', k.Carrying config alone granted start (times ++ k.renewals turns v) (k.run turns v) r' l' := by
  induction turns generalizing v r l times with
  | nil => exact ⟨r, l, by simpa [renewals, answered, Keeper.run] using c⟩
  | cons t rest ih =>
    have first (are_alone : alone) : k.Alone [t] := by
      intro holder strategy op asked member
      exact fair are_alone holder strategy op asked (List.mem_cons.mpr (.inl (List.mem_singleton.mp member)))
    have others (are_alone : alone) : k.Alone rest :=
      fun holder strategy op asked member => fair are_alone holder strategy op asked (List.mem_cons_of_mem _ member)
    have accepted (is_granted : granted) : k.answered? false v t = none ∧ k.refusals rest (k.turn v t) = [] := by
      simpa [refusals, answered] using accepts is_granted
    obtain ⟨r', l', next⟩ := c.turn t first fun is_granted => (accepted is_granted).1
    obtain ⟨r'', l'', last⟩ := ih next others fun is_granted => (accepted is_granted).2
    exact ⟨r'', l'', by simpa [renewals, answered, Keeper.run] using last⟩

end Carrying

theorem carrying_of_start (strict : k.store.Strict) {minimum : Duration} {registry : Registry} {now : Instant}
    {timer : Duration} {stage : Stage k.store.State} (calm : now.isLeap = false)
    (started : k.start minimum registry config now timer stage = some v) (alone granted : Prop) :
    k.Carrying config alone granted now [] v (.start config timer) { config } := by
  obtain ⟨won, -, events, provider, rfl⟩ := start_spec started
  have has := (RecordStore.acquire_grants strict won).2
  have nothing : config.atLeast = config.atLeast - Renewal.spent config 0 := by simp [Renewal.spent]; rfl
  exact {
    handle := rfl
    config_eq := rfl
    name := rfl
    atLeast := nothing
    held := fun _ => rfl
    going := fun _ _ => ⟨rfl, rfl, nothing⟩
    sound := has.sound
    keeps := has.keeps
    calm := calm
    last_le := le_rfl
    lease := ⟨_, has.lease, le_rfl, calm, fun _ _ => rfl⟩ }

/-! ## Releases -/

/-- A handle of a lock whose record is its holder's releases it, no sooner than the minimum after it began. -/
theorem unlock_own (now : Instant) (stage : Stage k.store.State) {record : LockRecord}
    (has : k.store.Has stage.store l.config.name record) (own : record.lockedBy = k.identity) (held : l.state = .held) :
    (l.unlock (k.accessor now) stage).1 = (.ok (), { l with state := .released }) ∧
      k.store.Has (l.unlock (k.accessor now) stage).2.store l.config.name
        { record with lockUntil := max now (record.lockedAt.add l.config.atLeast) } := by
  let access : Access := ⟨⟨k.identity, l.config, now⟩, k.strategy, .unlock⟩
  have timely := k.store.timely now
  obtain ⟨answer, lease⟩ := LeaseStore.unlock_of_own (a := access) rfl has.sound timely has.keeps has.lease own
  obtain ⟨answered, stored⟩ := Lease.unlock_held (k.accessor now) stage held
  have reached : (k.accessor now).perform .unlock l.config stage.store = k.store.perform access stage.store := rfl
  rw [reached] at answered stored
  rw [answer] at answered
  rw [k.store.clock_eq] at lease
  refine ⟨answered, ?_⟩
  rw [stored]
  exact ⟨k.store.sound_perform has.sound timely, k.store.keeps_perform.mpr has.keeps, lease⟩

/-- A lease that is not renewed ends no sooner than the minimum after its acquisition, whenever it is released. -/
theorem releasePlain_acquired {now : Instant} {s : k.store.State}
    (has : k.store.Has s config.name (RecordStore.acquiredRecord k.identity config start)) :
    (k.releasePlain config now s).1 = .ok () ∧
      ∃ record, k.store.find (k.releasePlain config now s).2 config.name = .ok (some record) ∧
        record.lockUntil = max now (start.add config.atLeast) := by
  obtain ⟨answered, left⟩ := unlock_own now { store := s } (l := { config }) has rfl rfl
  exact ⟨congrArg Prod.fst answered, _, left.find, rfl⟩

theorem release_keptAlive (handle : v.handle = .keptAlive r (.lease l)) :
    let unlocked := l.unlock (k.accessor v.clock) v.stage
    (k.release v).1 = unlocked.1.1 ∧ (k.release v).2.stage.store = unlocked.2.store := by
  rw [release, handle]
  exact ⟨rfl, rfl⟩

/-! ## What is carried -/

variable (k config) (start times v)

/-- A renewal at the last of some times leaves a record that says when it was, and a handle that still knows as much
of the minimum as the hold needs to end where it would have ended without renewals, or later. -/
structure RenewedFor (record : LockRecord) : Prop where
  find : k.store.find v.stage.store config.name = .ok (some record)
  lockedAt : record.lockedAt = v.clock
  lockedBy : record.lockedBy = k.identity
  remaining : v.handle.remaining? = some (config.atLeast - Renewal.spent config times.length)
  reaches : start.add config.atLeast ≤ record.lockedAt.add (config.atLeast - Renewal.spent config times.length)

/-- A release after renewals at some times turns one record into another. The lease ends no sooner than it would have
ended without renewals, and right then if they were on time and the last one of them began the lease. -/
structure ReleasedFrom (record released : LockRecord) : Prop where
  answer : (k.release v).1 = .ok ()
  find : k.store.find (k.release v).2.stage.store config.name = .ok (some released)
  lockedBy : released.lockedBy = k.identity
  reaches : max v.clock (start.add config.atLeast) ≤ released.lockUntil
  on_time : OnTime config start times → record.lockedAt = times.getLastD start →
    released.lockUntil = max v.clock (start.add config.atLeast)

/-- What renewals do to the minimum hold of a lock that was acquired at an instant. -/
structure CarriesMinimum : Prop where
  renewed : ∀ turns t, k.answered? true (k.run turns v) .ring = some t →
    NotEarly config start (k.renewals turns v ++ [t]) →
    ∃ record, k.RenewedFor config start (k.renewals turns v ++ [t]) (k.ring (k.run turns v)) record
  /-- As long as the handle counts as held and the record is still its holder's. -/
  released : ∀ turns record, NotEarly config start (k.renewals turns v) → (k.run turns v).handle.isHeld = true →
    k.store.find (k.run turns v).stage.store config.name = .ok (some record) → record.lockedBy = k.identity →
    ∃ released, k.ReleasedFrom config start (k.renewals turns v) (k.run turns v) record released
  /-- Only a renewal that the store refuses makes the handle lose the lock. -/
  held : ∀ turns, k.refusals turns v = [] → (k.run turns v).handle.isHeld = true
  /-- If nobody else acts for the holder, it was the last renewal that began the holder's lease. -/
  own : ∀ turns record, k.Alone turns →
    k.store.find (k.run turns v).stage.store config.name = .ok (some record) → record.lockedBy = k.identity →
    record.lockedAt = (k.renewals turns v).getLastD start
  /-- The same lease without renewals. -/
  plain : ∀ s now, k.store.Has s config.name (RecordStore.acquiredRecord k.identity config start) →
    (k.releasePlain config now s).1 = .ok () ∧
      ∃ record, k.store.find (k.releasePlain config now s).2 config.name = .ok (some record) ∧
        record.lockUntil = max now (start.add config.atLeast)

variable {k config start times v}

theorem Renewed.renewedFor (renewed : k.Renewed config times v) (calm : start.isLeap = false)
    (calm_now : v.clock.isLeap = false) (last : times.getLastD start = v.clock)
    (not_early : NotEarly config start times) (sound : k.store.Sound v.stage.store config.name)
    (keeps : k.store.Keeps v.stage.store config.name) :
    ∃ record, k.RenewedFor config start times v record := by
  obtain ⟨found, lease, now, own⟩ := renewed.lease
  have has : k.store.Has v.stage.store config.name found.record := ⟨sound, keeps, lease⟩
  refine ⟨found.record, has.find, now, own, renewed.remaining, ?_⟩
  have begun : found.record.lockedAt = v.clock := now
  rw [begun]
  exact Instant.add_le_add_rest calm calm_now (not_early.last_le.trans_eq last)

theorem Carrying.releasedFrom (c : k.Carrying config alone granted start times v r l) {record : LockRecord}
    (calm : start.isLeap = false) (not_early : NotEarly config start times) (held : v.handle.isHeld = true)
    (found : k.store.find v.stage.store config.name = .ok (some record)) (own : record.lockedBy = k.identity) :
    ∃ released, k.ReleasedFrom config start times v record released := by
  obtain ⟨lease, same, begun⟩ := c.lease
  obtain rfl : record.lease = lease := Option.some.inj ((k.store.lease_of_find found).symm.trans same)
  have state : l.state = .held := by simpa [c.handle, Handle.isHeld] using held
  have has : k.store.Has v.stage.store l.config.name record := by
    rw [c.name]
    exact ⟨c.sound, c.keeps, same⟩
  obtain ⟨answered, left⟩ := unlock_own v.clock v.stage has own state
  obtain ⟨answer, stored⟩ := release_keptAlive c.handle
  rw [← stored, c.name] at left
  refine ⟨_, answer.trans (congrArg Prod.fst answered), left.find, own, ?_, ?_⟩
  · rw [c.atLeast]
    exact max_le_max le_rfl (Instant.add_le_add_rest calm begun.calm (not_early.last_le.trans begun.last_le))
  · intro on_time last
    rw [c.atLeast, last, on_time.last_eq]
    exact Instant.max_add_rest calm c.calm (on_time.last_eq.symm.trans_le c.last_le)

/-- What a vigil that begins with an acquisition carries. -/
theorem carriesMinimum_of_start (strict : k.store.Strict) {minimum : Duration} {registry : Registry}
    {timer : Duration} {stage : Stage k.store.State} (calm : start.isLeap = false)
    (started : k.start minimum registry config start timer stage = some v) : k.CarriesMinimum config start v where
  renewed := by
    intro turns t renews not_early
    obtain ⟨r, l, before⟩ := (carrying_of_start strict calm started False False).run turns False.elim False.elim
    obtain ⟨r', l', after, renewed⟩ := before.ring False.elim
    rw [renews] at after
    have now : (k.run turns v).clock = t := by
      simp only [answered?] at renews
      split at renews
      · exact Option.some.inj renews
      · cases renews
    exact (renewed t renews).renewedFor calm after.calm (by simp [now]) not_early after.sound after.keeps
  released := by
    intro turns record not_early held found own
    obtain ⟨r, l, c⟩ := (carrying_of_start strict calm started False False).run turns False.elim False.elim
    exact c.releasedFrom calm not_early held found own
  held := by
    intro turns accepted
    obtain ⟨r, l, c⟩ := (carrying_of_start strict calm started False True).run turns False.elim fun _ => accepted
    simp [c.handle, Handle.isHeld, c.held trivial]
  own := by
    intro turns record are_alone found own
    obtain ⟨r, l, c⟩ := (carrying_of_start strict calm started True False).run turns (fun _ => are_alone) False.elim
    obtain ⟨lease, same, begun⟩ := c.lease
    obtain rfl : record.lease = lease := Option.some.inj ((k.store.lease_of_find found).symm.trans same)
    exact begun.own trivial own
  plain s now has := releasePlain_acquired has

end Keeper

/-- Renewals carry the minimum hold of a lock along, in memory and in files: however often it is renewed, if no renewal
comes early, a release leaves a lease that ends no sooner than without renewals, and right then if they are on time. -/
theorem renewals_carry_minimum (identity : String) (minimum : Duration) (registry : Registry) (config : LockConfig)
    (now : Instant) (calm : now.isLeap = false) (timer : Duration) :
    (∀ (strategy : AcquireStrategy) (stage : Stage Records) (v : Vigil Records),
      let k : Keeper := ⟨.memory, strategy, identity⟩
      k.start minimum registry config now timer stage = some v → k.CarriesMinimum config now v) ∧
    (∀ (s : FileStore) (strategy : AcquireStrategy) (stage : Stage FileTree) (v : Vigil FileTree),
      let k : Keeper := ⟨.file s, strategy, identity⟩
      k.start minimum registry config now timer stage = some v → k.CarriesMinimum config now v) := by
  constructor
  · intro strategy stage v k started
    exact Keeper.carriesMinimum_of_start RecordStore.strict_memory calm started
  · intro s strategy stage v k started
    exact Keeper.carriesMinimum_of_start (RecordStore.strict_file s) calm started

/-- A lock for a minute at most, forty seconds of which are the least: more than one renewal period. -/
def LockConfig.slow : LockConfig :=
  { LockConfig.nightly with atLeast := .ofSeconds 40, atLeast_le_atMost := by decide }

/-- A renewal on time, with a rival waiting, in memory and in files: the lease that is then released still ends forty
seconds after its acquisition. -/
theorem renewals_carry_minimum_slow :
    let k : Keeper := ⟨.memory, .insertThenUpdate, "node"⟩
    let inFiles : Keeper := ⟨.file ⟨[], ["locks"]⟩, .atomicProcedure, "node"⟩
    let turns : List Vigil.Turn :=
      [.pass (.ofSeconds 30), .ring, .perform "rival" .insertThenUpdate .update .slow, .pass (.ofSeconds 5)]
    (∃ v ∈ k.start (.ofSeconds 1) .empty .slow .epoch .zero { store := (∅ : Records) }, ∃ record released,
      k.ReleasedFrom .slow .epoch (k.renewals turns v) (k.run turns v) record released ∧
        released.lockUntil = Instant.epoch.add (.ofSeconds 40)) ∧
    ∃ v ∈ inFiles.start (.ofSeconds 1) .empty .slow .epoch .zero { store := (⟨[["locks"]], ∅⟩ : FileTree) },
      ∃ record released,
        inFiles.ReleasedFrom .slow .epoch (inFiles.renewals turns v) (inFiles.run turns v) record released ∧
          released.lockUntil = Instant.epoch.add (.ofSeconds 40) := by
  intro k inFiles turns
  obtain ⟨memory, file⟩ := renewals_carry_minimum "node" (.ofSeconds 1) .empty .slow .epoch rfl .zero
  let record : LockRecord :=
    ⟨"backup", Instant.epoch.add (.ofSeconds 90), Instant.epoch.add (.ofSeconds 30), "node"⟩
  constructor
  · have runs : ∃ v ∈ k.start (.ofSeconds 1) .empty .slow .epoch .zero { store := (∅ : Records) },
        NotEarly .slow .epoch (k.renewals turns v) ∧ (k.run turns v).handle.isHeld = true ∧
          k.store.find (k.run turns v).stage.store "backup" = .ok (some record) ∧
          OnTime .slow .epoch (k.renewals turns v) ∧ record.lockedAt = (k.renewals turns v).getLastD .epoch ∧
          max (k.run turns v).clock (Instant.epoch.add (.ofSeconds 40)) = Instant.epoch.add (.ofSeconds 40) := by
      decide +kernel
    obtain ⟨v, begun, not_early, held, found, on_time, last, latest⟩ := runs
    obtain ⟨released, from_record⟩ :=
      (memory .insertThenUpdate _ v begun).released turns record not_early held found rfl
    exact ⟨v, begun, record, released, from_record, (from_record.on_time on_time last).trans latest⟩
  · have runs : ∃ v ∈ inFiles.start (.ofSeconds 1) .empty .slow .epoch .zero { store := (⟨[["locks"]], ∅⟩ : FileTree) },
        NotEarly .slow .epoch (inFiles.renewals turns v) ∧ (inFiles.run turns v).handle.isHeld = true ∧
          inFiles.store.find (inFiles.run turns v).stage.store "backup" = .ok (some record) ∧
          OnTime .slow .epoch (inFiles.renewals turns v) ∧
          record.lockedAt = (inFiles.renewals turns v).getLastD .epoch ∧
          max (inFiles.run turns v).clock (Instant.epoch.add (.ofSeconds 40)) = Instant.epoch.add (.ofSeconds 40) := by
      decide +kernel
    obtain ⟨v, begun, not_early, held, found, on_time, last, latest⟩ := runs
    obtain ⟨released, from_record⟩ :=
      (file ⟨[], ["locks"]⟩ .atomicProcedure _ v begun).released turns record not_early held found rfl
    exact ⟨v, begun, record, released, from_record, (from_record.on_time on_time last).trans latest⟩

/-- A handle that is lost to a renewal right at the end of the lease releases nothing, and another renewal by somebody
of the same identity moves the end of the minimum. In both cases the record is still its holder's. -/
theorem minimum_hold_not_carried :
    let k : Keeper := ⟨.memory, .insertThenUpdate, "node"⟩
    let refused : List Vigil.Turn :=
      [.pass (.ofSeconds 30), .ring, .pass (.ofSeconds 60), .ring, .pass (.ofSeconds 5)]
    let shared : List Vigil.Turn :=
      [.pass (.ofSeconds 30), .ring, .pass (.ofSeconds 5), .perform "node" .insertThenUpdate .extend .nightly,
        .pass (.ofSeconds 1)]
    let seconds (n : Nat) : Instant := Instant.epoch.add (.ofSeconds n)
    ∃ v ∈ k.start (.ofSeconds 1) .empty .slow .epoch .zero { store := (∅ : Records) },
      (k.renewals refused v = [seconds 30] ∧ (k.run refused v).clock = seconds 95 ∧
        k.store.find (k.run refused v).stage.store "backup" = .ok (some ⟨"backup", seconds 90, seconds 30, "node"⟩) ∧
        (k.release (k.run refused v)).1 = .ok () ∧
        k.store.find (k.release (k.run refused v)).2.stage.store "backup" =
          .ok (some ⟨"backup", seconds 90, seconds 30, "node"⟩) ∧
        seconds 90 < max (seconds 95) (seconds 40)) ∧
      k.renewals shared v = [seconds 30] ∧ OnTime .slow .epoch (k.renewals shared v) ∧
        (k.run shared v).clock = seconds 36 ∧
        k.store.find (k.run shared v).stage.store "backup" = .ok (some ⟨"backup", seconds 95, seconds 35, "node"⟩) ∧
        (k.release (k.run shared v)).1 = .ok () ∧
        k.store.find (k.release (k.run shared v)).2.stage.store "backup" =
          .ok (some ⟨"backup", seconds 45, seconds 35, "node"⟩) ∧
        seconds 45 ≠ max (seconds 36) (seconds 40) := by
  decide +kernel

end TaskLease

import TaskLease.Proofs.Provider.Vigil

/-!
# Renewals never lose a live lock

As long as the timer of a lock that is kept alive rings before the lease is over, every ring renews the lease, so
the lock stays with its holder however long that goes on. Once a ring comes too late, it changes nothing, and it
is the last one.

`Watching` is the invariant of the former: the handle's deadline by the timer is the end of the lease by the
clock of the store, and the lease is the one that the last ring has left, unless it is over and somebody else
has acquired the lock since. What decides at the very end of the lease is the store: it takes a lease for over at
an instant at which the timer still lets the extension through.
-/

namespace TaskLease

/-- A deadline that is less than thirty years away never falls short, not even beyond the timer's range. -/
theorem Timer.le_deadline {length : Duration} (now : Duration) (short : length < Timer.farFuture) :
    now + length ≤ Timer.deadline now length := by
  rw [Duration.lt_def] at short
  unfold Timer.deadline
  split
  · exact Nat.le_refl _
  · simp only [Duration.le_def, Duration.nanos_add]
    omega

/-- A turn that is possible where nobody else acts for an identity and the clock stays within its range. -/
def Vigil.Turn.Fair (identity : String) (clock : Instant) : Vigil.Turn → Prop
  | .pass time => clock.ticks + time.nanos ≤ Instant.max.ticks
  | .ring => True
  | .perform holder _ _ _ => holder ≠ identity

instance (identity : String) (clock : Instant) (t : Vigil.Turn) : Decidable (t.Fair identity clock) :=
  match t with
  | .pass _ => inferInstanceAs (Decidable (_ ≤ _))
  | .ring => isTrue trivial
  | .perform .. => inferInstanceAs (Decidable (_ ≠ _))

/-- Less time has passed since the timer rang last than a lease lasts, and the clock has not come to its last
instant. -/
def Vigil.InTime {σ : Type} (config : LockConfig) (v : Vigil σ) : Prop :=
  v.clock.ticks < v.since.ticks + config.atMost.nanos ∧ v.clock < .max

instance {σ : Type} (config : LockConfig) (v : Vigil σ) : Decidable (v.InTime config) :=
  inferInstanceAs (Decidable (_ ∧ _))

/-- As much time has passed since the timer rang last as a lease lasts, or more. -/
def Vigil.Overdue {σ : Type} (config : LockConfig) (v : Vigil σ) : Prop :=
  v.since.ticks + config.atMost.nanos ≤ v.clock.ticks

instance {σ : Type} (config : LockConfig) (v : Vigil σ) : Decidable (v.Overdue config) :=
  inferInstanceAs (Decidable (_ ≤ _))

namespace Keeper

variable (k : Keeper) (config : LockConfig)

/-- All turns are possible. -/
def Fair : List Vigil.Turn → Vigil k.store.State → Prop
  | [], _ => True
  | t :: rest, v => t.Fair k.identity v.clock ∧ Fair rest (k.turn v t)

/-- At no time during the turns, nor after them, is a ring overdue. -/
def Prompt : List Vigil.Turn → Vigil k.store.State → Prop
  | [], v => v.InTime config
  | t :: rest, v => v.InTime config ∧ Prompt rest (k.turn v t)

instance decidableFair : (turns : List Vigil.Turn) → (v : Vigil k.store.State) → Decidable (k.Fair turns v)
  | [], _ => isTrue trivial
  | t :: rest, v =>
    have := decidableFair rest (k.turn v t)
    inferInstanceAs (Decidable (_ ∧ _))

instance decidablePrompt : (turns : List Vigil.Turn) → (v : Vigil k.store.State) → Decidable (k.Prompt config turns v)
  | [], v => inferInstanceAs (Decidable (v.InTime config))
  | t :: rest, v =>
    have := decidablePrompt rest (k.turn v t)
    inferInstanceAs (Decidable (_ ∧ _))

/-- The record that a renewal at an instant leaves. -/
def own (since : Instant) : LockRecord := ⟨config.name, since.add config.atMost, since, k.identity⟩

/-- The holder has the lock, nobody else can acquire it, and if the timer rings now the lock is renewed. -/
structure Kept (v : Vigil k.store.State) : Prop where
  record : k.store.find v.stage.store config.name = .ok (some (k.own config v.since))
  live : (k.own config v.since).isHeldAt v.clock = true
  /-- No operation acquires the lock, not even one of the same identity. -/
  unacquired : ∀ a : Access, a.now = v.clock → a.config.name = config.name → a.op.isAcquisition = true →
    (k.store.perform a v.stage.store).1 = .ok false
  /-- No provider gives the lock out. -/
  refused : ∀ (strategy : AcquireStrategy) (holder : String) (timer : Duration) (asked : LockConfig) (p : Provider),
    asked.name = config.name → p.Admits asked →
      (p.tryLock (k.store.accessor strategy holder v.clock) timer asked v.stage).1.1 = .ok none
  /-- The timer makes one call, an extension for as long as before, and it succeeds. -/
  renewed : ∃ extended : LockConfig, extended.name = config.name ∧ extended.atMost = config.atMost ∧
    k.calls v = [⟨.extend, extended, .ok true⟩]
  after : k.store.find (k.ring v).stage.store config.name = .ok (some (k.own config v.clock))

/-- If the timer rings now, the record stays as it is, and the timer never rings again. -/
structure Lapsed (v : Vigil k.store.State) : Prop where
  record : k.store.find (k.ring v).stage.store config.name = k.store.find v.stage.store config.name
  refused : ∀ call ∈ k.calls v, call.answer = .ok false
  last : ∀ later : List Vigil.Turn,
    let v' := k.run later (k.ring v)
    k.ring v' = v' ∧ k.calls v' = []

/-- Whatever the turns are: as long as rings are prompt the lock is kept, and when one is overdue it changes
nothing. -/
def Guards (v : Vigil k.store.State) : Prop :=
  ∀ turns, k.Fair turns v →
    (k.Prompt config turns v → k.Kept config (k.run turns v)) ∧
      ((k.run turns v).Overdue config → k.Lapsed config (k.run turns v))

theorem Lapsed.of_ended {k : Keeper} {config : LockConfig} {v : Vigil k.store.State} (ended : v.handle.due? = none) :
    k.Lapsed config v := by
  obtain ⟨-, same, silent⟩ := run_ended [] ended
  rw [run, List.foldl_nil] at same silent
  refine ⟨by rw [same], by simp [silent], ?_⟩
  intro later
  rw [same]
  exact (run_ended later ended).2

/-- Renewals go on, and the handle, the timer and the store agree on the lease. -/
structure Watching (v : Vigil k.store.State) (r : Renewal) (l : Lease) (base : Duration) : Prop where
  handle : v.handle = .keptAlive r (.lease l)
  active : r.active = true
  due : r.due.isSome = true
  config_eq : r.config = config
  remaining_le : r.remaining ≤ config.atMost
  held : l.state = .held
  name : l.config.name = config.name
  /-- The handle's deadline counts from the reading that the timer had when it rang last. -/
  expiry : r.expiry = Timer.deadline base config.atMost
  /-- The clock and the timer have advanced together since then. -/
  together : v.clock.ticks - v.since.ticks = v.timer.nanos - base.nanos
  calm_since : v.since.isLeap = false
  calm : v.clock.isLeap = false
  sound : k.store.Sound v.stage.store config.name
  keeps : k.store.Keeps v.stage.store config.name
  /-- The lease is the holder's own, or it is over and somebody else has acquired the lock since. -/
  lease : k.store.lease v.stage.store config.name = some (k.own config v.since).lease ∨
    ∃ taken, k.store.lease v.stage.store config.name = some taken ∧ taken.lockedBy ≠ k.identity ∧
      v.since.add config.atMost ≤ v.clock

variable {k config} {v : Vigil k.store.State} {r : Renewal} {l : Lease} {base : Duration}

namespace Watching

/-- While the lease runs it is the holder's own. -/
theorem has_own (w : k.Watching config v r l base) (live : v.clock < v.since.add config.atMost) :
    k.store.Has v.stage.store config.name (k.own config v.since) where
  sound := w.sound
  keeps := w.keeps
  lease := by
    rcases w.lease with own | ⟨taken, -, -, past⟩
    · exact own
    · exact absurd live (not_lt.mpr past)

theorem rings (w : k.Watching config v r l base) : ∃ due, r.due = some due ∧ v.handle.due? = some due := by
  obtain ⟨due, rings⟩ := Option.isSome_iff_exists.mp w.due
  exact ⟨due, rings, by simp [w.handle, Handle.due?, rings]⟩

/-! ## Between two rings -/

theorem pass (w : k.Watching config v r l base) {time : Duration}
    (fair : v.clock.ticks + time.nanos ≤ Instant.max.ticks) :
    k.Watching config (k.turn v (.pass time)) r l base := by
  have later : (v.clock.add time).ticks = v.clock.ticks + time.nanos := by
    rw [Instant.ticks_add w.calm]
    exact min_eq_left fair
  have together := w.together
  refine { w with together := ?_, calm := Instant.add_not_leap w.calm, lease := ?_ }
  · simp only [turn, later, Duration.nanos_add]
    omega
  · refine w.lease.imp_right ?_
    rintro ⟨taken, found, other, past⟩
    exact ⟨taken, found, other, past.trans (Instant.le_add w.calm)⟩

theorem perform (w : k.Watching config v r l base) {holder : String} (other : holder ≠ k.identity)
    (strategy : AcquireStrategy) (op : Operation) (asked : LockConfig) :
    k.Watching config (k.turn v (.perform holder strategy op asked)) r l base := by
  let access : Access := { holder, config := asked, now := v.clock, strategy, op }
  have timely := k.store.timely v.clock
  refine { w with
    sound := k.store.sound_perform (a := access) w.sound timely
    keeps := (k.store.keeps_perform (a := access)).mpr w.keeps
    lease := ?_ }
  -- Only an acquisition puts somebody else's lease there, and it needs ours to be over.
  cases acquired : k.store.acquires config.name access v.stage.store with
  | true =>
    obtain ⟨expired, fresh⟩ := LeaseStore.lease_of_acquires w.sound timely acquired
    refine .inr ⟨_, fresh, other, ?_⟩
    rcases w.lease with own | ⟨-, -, -, past⟩
    · have past := expired _ own
      rw [k.store.clock_eq] at past
      exact past
    · exact past
  | false =>
    rcases LeaseStore.lease_of_not_acquires w.sound timely acquired with
      unchanged | ⟨found, before, -, by_holder, change⟩
    · simp only [turn]
      rw [unchanged]
      exact w.lease
    · rcases w.lease with own | ⟨taken, there, stranger, past⟩
      · cases before.symm.trans own
        exact absurd by_holder other
      · cases before.symm.trans there
        rcases change with ⟨-, after⟩ | ⟨-, after⟩
        · exact .inr ⟨_, after, stranger, past⟩
        · exact .inr ⟨_, after, stranger, past⟩

/-! ## A ring -/

/-- A ring of the timer before the handle's deadline is one extension, for as long as the lock was acquired
for. What becomes of the handle is up to the store. -/
theorem extends_once (w : k.Watching config v r l base) (before : ¬ r.expiry < v.timer) :
    ∃ (due : Duration) (extended : LockConfig), extended.name = config.name ∧ extended.atMost = config.atMost ∧
      let next := (r.tick due v.timer).2
      let reply := k.store.perform ⟨⟨k.identity, extended, v.clock⟩, k.strategy, .extend⟩ v.stage.store
      k.calls v = [⟨.extend, extended, reply.1⟩] ∧ (k.ring v).stage.store = reply.2 ∧
        (k.ring v).handle =
          (match reply.1 with
          | .ok true => .keptAlive next (.lease { l with config := extended })
          | .ok false => .keptAlive next.stop (.lease { l with state := .lost })
          | .error _ => .keptAlive next.stop (.lease l)) := by
  obtain ⟨due, rings, -⟩ := w.rings
  have shorter : r.remaining - r.period ≤ config.atMost :=
    Duration.le_def.mpr ((Nat.sub_le ..).trans w.remaining_le)
  let extended : LockConfig := ⟨l.config.name, config.atMost, r.remaining - r.period, l.config.name_ne_empty,
    l.config.name_length_le, shorter⟩
  have same : r.config.atMost = config.atMost := congrArg LockConfig.atMost w.config_eq
  have allowed : l.config.withDurations r.config.atMost (r.remaining - r.period) = .ok extended :=
    LockConfig.withDurations_eq_ok_iff.mpr ⟨rfl, same.symm, rfl⟩
  exact ⟨due, extended, w.name, rfl, ring_once w.handle rings w.active before w.held allowed⟩

/-- While the lease runs, its holder's timer does not find it expired. -/
theorem not_expired (w : k.Watching config v r l base) (short : config.atMost < Timer.farFuture)
    (live : v.clock < v.since.add config.atMost) : ¬ r.expiry < v.timer := by
  have running : v.clock.ticks < v.since.ticks + config.atMost.nanos := by
    have before := not_le.mpr live
    rw [Instant.le_iff_ticks (Instant.add_not_leap w.calm_since) w.calm, Instant.ticks_add w.calm_since] at before
    omega
  have reaches := Timer.le_deadline base short
  have together := w.together
  rw [w.expiry, Duration.lt_def]
  rw [Duration.le_def, Duration.nanos_add] at reaches
  omega

/-- While the lease runs, the store renews it. -/
theorem extend_live (w : k.Watching config v r l base) (live : v.clock < v.since.add config.atMost)
    {extended : LockConfig} (name : extended.name = config.name) (atMost : extended.atMost = config.atMost) :
    let reply := k.store.perform ⟨⟨k.identity, extended, v.clock⟩, k.strategy, .extend⟩ v.stage.store
    reply.1 = .ok true ∧ k.store.Has reply.2 config.name (k.own config v.clock) := by
  have timely := k.store.timely v.clock
  have sound : k.store.Sound v.stage.store extended.name := name ▸ w.sound
  have keeps : k.store.Keeps v.stage.store extended.name := name ▸ w.keeps
  have own := (w.has_own live).lease
  rw [← name] at own
  obtain ⟨answer, renewed⟩ := LeaseStore.extend_of_live (a := ⟨⟨k.identity, extended, v.clock⟩, k.strategy, .extend⟩)
    rfl sound timely keeps own rfl (by rw [k.store.clock_eq]; exact live)
  have fresh : Demand.renewedLease k.store.clock ⟨k.identity, extended, v.clock⟩ (k.own config v.since).lease =
      (k.own config v.clock).lease := by
    rw [k.store.clock_eq, Demand.renewedLease, atMost]
    rfl
  rw [fresh] at renewed
  refine ⟨answer, ?_⟩
  rw [← name]
  exact ⟨k.store.sound_perform sound timely, k.store.keeps_perform.mpr keeps, renewed⟩

/-- A ring while the lease runs renews it. -/
theorem ring_live (w : k.Watching config v r l base) (short : config.atMost < Timer.farFuture)
    (live : v.clock < v.since.add config.atMost) :
    ∃ (due : Duration) (extended : LockConfig), extended.name = config.name ∧ extended.atMost = config.atMost ∧
      k.calls v = [⟨.extend, extended, .ok true⟩] ∧
      k.store.Has (k.ring v).stage.store config.name (k.own config v.clock) ∧
      k.Watching config (k.ring v) (r.tick due v.timer).2 { l with config := extended } v.timer := by
  have before := w.not_expired short live
  obtain ⟨due, extended, name, atMost, called, stored, handle⟩ := w.extends_once before
  obtain ⟨answer, has⟩ := w.extend_live live name atMost
  rw [answer] at called handle
  rw [← stored] at has
  obtain ⟨last, -, rings⟩ := w.rings
  have next := tick_in_time due w.active before
  refine ⟨due, extended, name, atMost, called, has, ?_⟩
  -- The timer's reading of now is what the next deadline counts from.
  exact {
    handle := handle
    active := by rw [next]; exact w.active
    due := by rw [next]; rfl
    config_eq := (tick_config ..).trans w.config_eq
    remaining_le := by
      rw [next]
      exact Duration.le_def.mpr ((Nat.sub_le ..).trans w.remaining_le)
    held := w.held
    name := name
    expiry := by rw [next, ← w.config_eq]
    together := by simp [ring_since rings]
    calm_since := by simp [ring_since rings, w.calm]
    calm := by simp [w.calm]
    sound := has.sound
    keeps := has.keeps
    lease := by
      rw [ring_since rings]
      exact .inl has.lease }

/-- Where the lease is over, the store refuses to renew it: it has expired, or it is somebody else's by now. -/
theorem extend_over (w : k.Watching config v r l base) (past : v.since.add config.atMost ≤ v.clock)
    {extended : LockConfig} (name : extended.name = config.name) :
    let reply := k.store.perform ⟨⟨k.identity, extended, v.clock⟩, k.strategy, .extend⟩ v.stage.store
    reply.1 = .ok false ∧ k.store.find reply.2 config.name = k.store.find v.stage.store config.name := by
  have timely := k.store.timely v.clock
  have lost : ∃ found, k.store.lease v.stage.store config.name = some found ∧
      (found.lockedBy ≠ k.identity ∨ found.lockUntil ≤ v.clock) := by
    rcases w.lease with own | ⟨taken, found, other, -⟩
    · exact ⟨_, own, .inr past⟩
    · exact ⟨taken, found, .inl other⟩
  have sound := w.sound
  have keeps := w.keeps
  rw [← name] at lost sound keeps ⊢
  obtain ⟨found, lease, lost⟩ := lost
  obtain ⟨answer, same⟩ := LeaseStore.extend_of_over (a := ⟨⟨k.identity, extended, v.clock⟩, k.strategy, .extend⟩)
    rfl sound timely keeps lease (by rw [k.store.clock_eq]; exact lost)
  exact ⟨answer, RecordStore.find_eq_of_lease sound keeps (k.store.sound_perform sound timely)
    (k.store.keeps_perform.mpr keeps) same⟩

/-- A ring when the lease is over changes nothing: the handle gives up by itself, or the store refuses. Either
way it is the last one. -/
theorem ring_over (w : k.Watching config v r l base) (past : v.since.add config.atMost ≤ v.clock) :
    k.store.find (k.ring v).stage.store config.name = k.store.find v.stage.store config.name ∧
      (∀ call ∈ k.calls v, call.answer = .ok false) ∧ (k.ring v).handle.due? = none := by
  by_cases expired : r.expiry < v.timer
  · obtain ⟨due, due_now, -⟩ := w.rings
    obtain ⟨called, stored, handle⟩ := ring_late w.handle due_now w.active expired
    exact ⟨congrArg (k.store.find · config.name) stored, by simp [called], congrArg Handle.due? handle⟩
  · -- At the very end of the lease the timer still lets the extension through.
    obtain ⟨due, extended, name, -, called, stored, handle⟩ := w.extends_once expired
    obtain ⟨answer, same⟩ := w.extend_over past name
    rw [answer] at called handle
    rw [← stored] at same
    exact ⟨same, by simp [called], by rw [handle]; rfl⟩

/-! ## Any number of turns -/

theorem live_of_inTime (w : k.Watching config v r l base) (in_time : v.InTime config) :
    v.clock < v.since.add config.atMost := by
  obtain ⟨soon, before_end⟩ := in_time
  rw [← not_le, Instant.le_iff_ticks rfl w.calm] at before_end
  rw [← not_le, Instant.le_iff_ticks (Instant.add_not_leap w.calm_since) w.calm, Instant.ticks_add w.calm_since]
  omega

theorem over_of_overdue (w : k.Watching config v r l base) (overdue : v.Overdue config) :
    v.since.add config.atMost ≤ v.clock := by
  rw [Instant.le_iff_ticks (Instant.add_not_leap w.calm_since) w.calm, Instant.ticks_add w.calm_since]
  exact (min_le_left ..).trans overdue

/-- After a turn the lock is kept alive still, unless the timer has rung after the end of the lease. -/
theorem turn_cases {t : Vigil.Turn} (w : k.Watching config v r l base) (short : config.atMost < Timer.farFuture)
    (fair : t.Fair k.identity v.clock) :
    (∃ r' l' base', k.Watching config (k.turn v t) r' l' base') ∨
      (v.since.add config.atMost ≤ v.clock ∧ (k.turn v t).handle.due? = none) := by
  cases t with
  | pass time => exact .inl ⟨_, _, _, w.pass fair⟩
  | perform holder strategy op asked => exact .inl ⟨_, _, _, w.perform fair strategy op asked⟩
  | ring =>
    rcases lt_or_ge v.clock (v.since.add config.atMost) with live | past
    · obtain ⟨due, extended, -, -, -, -, next⟩ := w.ring_live short live
      exact .inl ⟨_, _, _, next⟩
    · exact .inr ⟨past, (w.ring_over past).2.2⟩

/-- After any turns the lock is kept alive still, or renewals have come to an end. -/
theorem run_cases {turns : List Vigil.Turn} (w : k.Watching config v r l base)
    (short : config.atMost < Timer.farFuture) (fair : k.Fair turns v) :
    (∃ r' l' base', k.Watching config (k.run turns v) r' l' base') ∨ (k.run turns v).handle.due? = none := by
  induction turns generalizing v r l base with
  | nil => exact .inl ⟨r, l, base, w⟩
  | cons t rest ih =>
    obtain ⟨first, later⟩ := fair
    rcases w.turn_cases short first with ⟨r', l', base', next⟩ | ⟨-, ended⟩
    · exact ih next later
    · exact .inr (run_ended rest ended).1

/-- While rings are prompt the lock is kept alive. -/
theorem run_prompt {turns : List Vigil.Turn} (w : k.Watching config v r l base)
    (short : config.atMost < Timer.farFuture) (fair : k.Fair turns v) (prompt : k.Prompt config turns v) :
    ∃ r' l' base', k.Watching config (k.run turns v) r' l' base' ∧ (k.run turns v).InTime config := by
  induction turns generalizing v r l base with
  | nil => exact ⟨r, l, base, w, prompt⟩
  | cons t rest ih =>
    obtain ⟨first, later⟩ := fair
    obtain ⟨in_time, on_time⟩ := prompt
    rcases w.turn_cases short first with ⟨r', l', base', next⟩ | ⟨past, -⟩
    · exact ih next later on_time
    · exact absurd (w.live_of_inTime in_time) (not_lt.mpr past)

/-! ## Guarding -/

theorem kept (w : k.Watching config v r l base) (short : config.atMost < Timer.farFuture)
    (in_time : v.InTime config) : k.Kept config v := by
  have live := w.live_of_inTime in_time
  have own := w.has_own live
  obtain ⟨due, extended, name, atMost, called, next, -⟩ := w.ring_live short live
  exact {
    record := own.find
    live := LockRecord.isHeldAt_iff.mpr live
    unacquired := by
      rintro a now name acquisition
      rw [← name] at own
      exact LeaseStore.refused_of_live acquisition own.sound (k.store.timely a.now) own.keeps own.lease
        (by rw [now, k.store.clock_eq]; exact live)
    refused := by
      intro strategy holder timer asked p name admits
      rw [← name] at own
      exact Provider.tryLock_held strategy holder timer own.sound (k.store.timely v.clock) own.keeps own.lease
        (by rw [k.store.clock_eq]; exact live) admits
    renewed := ⟨extended, name, atMost, called⟩
    after := next.find }

theorem lapsed (w : k.Watching config v r l base) (overdue : v.Overdue config) : k.Lapsed config v := by
  obtain ⟨record, refused, ended⟩ := w.ring_over (w.over_of_overdue overdue)
  exact ⟨record, refused, fun later => (run_ended later ended).2⟩

end Watching

/-- A vigil that begins with an acquisition keeps the lock alive. -/
theorem watching_of_start {minimum : Duration} {registry : Registry} {now : Instant} {timer : Duration}
    {stage : Stage k.store.State} (calm : now.isLeap = false) (sound : k.store.Sound stage.store config.name)
    (started : k.start minimum registry config now timer stage = some v) :
    k.Watching config v (.start config timer) { config } timer := by
  have timely := k.store.timely now
  obtain ⟨won, -, events, provider, rfl⟩ := start_spec started
  rcases acquire_effect k.strategy k.identity (fun _ => none) registry sound timely with
    ⟨lost, -⟩ | ⟨-, acquired⟩
  · exact absurd won lost
  have fresh := acquired.fresh
  rw [k.store.clock_eq] at fresh
  exact {
    handle := rfl
    active := rfl
    due := rfl
    config_eq := rfl
    remaining_le := config.atLeast_le_atMost
    held := rfl
    name := rfl
    expiry := rfl
    together := by simp
    calm_since := calm
    calm := calm
    sound := sound_acquire k.strategy k.identity _ config registry sound timely
    keeps := (keeps_acquire k.strategy k.identity _ config registry stage.store config.name timely).mpr acquired.keeps
    lease := .inl fresh }

/-- A vigil that begins with an acquisition guards the lock. -/
theorem guards_of_start {minimum : Duration} {registry : Registry} {now : Instant} {timer : Duration}
    {stage : Stage k.store.State} (short : config.atMost < Timer.farFuture) (calm : now.isLeap = false)
    (sound : k.store.Sound stage.store config.name)
    (started : k.start minimum registry config now timer stage = some v) : k.Guards config v := by
  have w := watching_of_start calm sound started
  intro turns fair
  constructor
  · intro prompt
    obtain ⟨r, l, base, still, in_time⟩ := w.run_prompt short fair prompt
    exact still.kept short in_time
  · intro overdue
    rcases w.run_cases short fair with ⟨r, l, base, still⟩ | ended
    · exact still.lapsed overdue
    · exact .of_ended ended

end Keeper

/-- A lock that a provider keeps alive, in memory or in files, is never lost while it is live: however long it is
held and whatever others do, every prompt ring renews it, and nobody else acquires it. A ring that is overdue
changes nothing, and no other ring follows it. -/
theorem keep_alive_guards (identity : String) (minimum : Duration) (registry : Registry) (config : LockConfig)
    (short : config.atMost < .ofSeconds (30 * 365 * 86400)) (now : Instant) (calm : now.isLeap = false) (timer : Duration) :
    (∀ (strategy : AcquireStrategy) (stage : Stage Records) (v : Vigil Records),
      let k : Keeper := ⟨.memory, strategy, identity⟩
      k.start minimum registry config now timer stage = some v → k.Guards config v) ∧
    (∀ (s : FileStore) (strategy : AcquireStrategy) (stage : Stage FileTree) (v : Vigil FileTree),
      let k : Keeper := ⟨.file s, strategy, identity⟩
      s.Readable stage.store config.name →
        k.start minimum registry config now timer stage = some v → k.Guards config v) := by
  constructor
  · intro strategy stage v k started
    exact Keeper.guards_of_start short calm trivial started
  · intro s strategy stage v k readable started
    exact Keeper.guards_of_start short calm readable started

/-- A lock that somebody else wants too, and a renewal of it that is late, but not too late. -/
def Keeper.night : List Vigil.Turn :=
  let wanted : Vigil.Turn := .perform "rival" .insertThenUpdate .update .nightly
  [wanted, .pass (.ofSeconds 59), wanted, .ring, wanted, .pass (.ofSeconds 30)]

/-- An acquisition in memory and one in files: the lock is kept through the night, and it lapses when the timer
then does not ring for as long as a lease lasts. -/
theorem keep_alive_guards_night :
    let minimum : Duration := .ofSeconds 1
    let inMemory : Keeper := ⟨.memory, .insertThenUpdate, "node"⟩
    let inFiles : Keeper := ⟨.file ⟨[], ["locks"]⟩, .atomicProcedure, "node"⟩
    let late := Keeper.night ++ [.pass (.ofSeconds 30)]
    (∃ v ∈ inMemory.start minimum .empty .nightly .epoch .zero { store := (∅ : Records) },
      inMemory.Kept .nightly (inMemory.run Keeper.night v) ∧ inMemory.Lapsed .nightly (inMemory.run late v)) ∧
    ∃ v ∈ inFiles.start minimum .empty .nightly .epoch .zero { store := (⟨[["locks"]], ∅⟩ : FileTree) },
      inFiles.Kept .nightly (inFiles.run Keeper.night v) ∧ inFiles.Lapsed .nightly (inFiles.run late v) := by
  intro minimum inMemory inFiles late
  obtain ⟨memory, file⟩ := keep_alive_guards "node" minimum .empty .nightly (by decide) .epoch rfl .zero
  constructor
  · have turns : ∃ v ∈ inMemory.start minimum .empty .nightly .epoch .zero { store := (∅ : Records) },
        (inMemory.Fair Keeper.night v ∧ inMemory.Prompt .nightly Keeper.night v) ∧
          inMemory.Fair late v ∧ (inMemory.run late v).Overdue .nightly := by decide +kernel
    obtain ⟨v, begun, ⟨fair, prompt⟩, fair', overdue⟩ := turns
    have guards := memory .insertThenUpdate _ v begun
    exact ⟨v, begun, (guards _ fair).1 prompt, (guards _ fair').2 overdue⟩
  · have turns : ∃ v ∈ inFiles.start minimum .empty .nightly .epoch .zero { store := (⟨[["locks"]], ∅⟩ : FileTree) },
        (inFiles.Fair Keeper.night v ∧ inFiles.Prompt .nightly Keeper.night v) ∧
          inFiles.Fair late v ∧ (inFiles.run late v).Overdue .nightly := by decide +kernel
    obtain ⟨v, begun, ⟨fair, prompt⟩, fair', overdue⟩ := turns
    have guards := file ⟨[], ["locks"]⟩ .atomicProcedure _ v (FileStore.readable_of_no_file rfl) begun
    exact ⟨v, begun, (guards _ fair).1 prompt, (guards _ fair').2 overdue⟩

end TaskLease

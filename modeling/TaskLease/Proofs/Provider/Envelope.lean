import TaskLease.Proofs.Provider.Tracking

/-!
# How long a lock is held

What the last acquisition or extension of a lock promises. Until its handle is released the lease lasts for
the longest time, which bounds how long a holder that is gone keeps others out. A release ends the lease at
once, or at the end of the shortest time if that is still to come.

`Envelope` says what follows for others: nobody acquires the lock before the end of the shortest time, a
release never prolongs a lease, and once the lease is over the next attempt that does not fail gets the lock.
`lease_envelope` is the statement for records in memory and in files.
-/

namespace TaskLease

open World

/-- A step that may release a handle. -/
def World.Act.IsRelease : Act → Prop
  | .unlock _ | .settle _ => True
  | _ => False

/-- What the last holding of a name promises. -/
structure Envelope (e : Setting) (name : String) (w : World e.store.State) (h : Holding) : Prop where
  /-- The record is that of the holding. -/
  record : e.store.find w.stage.store name = .ok (some ⟨name, h.finish, h.since, e.holder h.provider⟩)
  /-- Nobody acquires the lock before the end of the shortest time. -/
  least : ∀ faults provider config handle, config.name = name →
    (e.step faults w (.tryLock provider config)).1 = .attempted (.ok (some handle)) →
    h.since.add h.atLeast ≤ w.clock
  /-- A release does not prolong a lease that is live, nor make one live that is not. -/
  release : ∀ faults act, act.IsRelease →
    ∃ r, e.store.find (e.step faults w act).2.stage.store name = .ok (some r) ∧
      (w.clock < h.finish → r.lockUntil ≤ h.finish) ∧ (h.finish ≤ w.clock → r.lockUntil ≤ w.clock)
  /-- After the longest time, or a release and the shortest time, the next attempt gets the lock. -/
  free : (h.since.add h.atMost ≤ w.clock ∨
      ∃ moment, h.released = some moment ∧ max moment (h.since.add h.atLeast) ≤ w.clock) →
    ∀ provider config, config.name = name →
      (e.step (fun _ => none) w (.tryLock provider config)).1 = .attempted (.ok (some (.lease { config })))

namespace Holding

variable {h : Holding} {now : Instant} {i : Nat}

theorem least_le_finish (calm : h.since.isLeap = false) (shorter : h.atLeast ≤ h.atMost) :
    h.since.add h.atLeast ≤ h.finish := by
  unfold finish
  cases h.released with
  | none => exact Instant.add_le_add_right calm shorter
  | some moment => exact le_max_right _ _

/-- A release ends a lease no later than it would have ended, or now if it has ended. -/
theorem finish_release_le (calm : h.since.isLeap = false) (shorter : h.atLeast ≤ h.atMost) :
    (h.release i now).finish ≤ max now h.finish := by
  by_cases mine : h.handle = i
  · rw [release_self mine]
    exact max_le_max le_rfl (least_le_finish calm shorter)
  · rw [release_of_ne mine]
    exact le_max_right _ _

/-- After the longest time a lease is over, whatever became of its handle. -/
theorem finish_le (dated : h.Dated now) (shorter : h.atLeast ≤ h.atMost) (past : h.since.add h.atMost ≤ now) :
    h.finish ≤ now := by
  unfold finish
  cases released : h.released with
  | none => exact past
  | some moment =>
    have least : h.since.add h.atLeast ≤ now := (Instant.add_le_add_right dated.1 shorter).trans past
    exact max_le (dated.2 moment released) least

end Holding

variable {e : Setting} {name : String} {first : Option (StoredLease Instant)} {s : e.store.State} {w : World e.store.State} {last : Option Holding}
  {h : Holding} {faults : Operation → Option StoreFault} {provider : Nat} {config : LockConfig} {act : Act}

theorem note_of_release (name : String) (w : World e.store.State) (h : Holding) (release : act.IsRelease)
    (answer : Answer) :
    ∃ g, w.note name act answer (some h) = some g ∧ (g = h ∨ ∃ i, g = h.release i w.clock) := by
  unfold World.note
  split
  · cases release
  · cases release
  · split
    · split
      · exact ⟨_, rfl, .inr ⟨_, rfl⟩⟩
      · exact ⟨h, rfl, .inl rfl⟩
    · exact ⟨h, rfl, .inl rfl⟩
  · exact ⟨_, rfl, .inr ⟨_, rfl⟩⟩
  · exact ⟨h, rfl, .inl rfl⟩

namespace Tracks

/-- A holding is for its shortest time at least. -/
theorem shorter (t : Tracks e name first w (some h)) : h.atLeast ≤ h.atMost := by
  obtain ⟨x, -, -, -, most, least, -⟩ := t.handles.handle h rfl
  rw [← most, ← least]
  exact x.lease.config.atLeast_le_atMost

theorem record (t : Tracks e name first w (some h)) :
    e.store.find w.stage.store name = .ok (some ⟨name, h.finish, h.since, e.holder h.provider⟩) := by
  obtain ⟨found, answer, lease⟩ := e.store.find_kept t.shows.sound (t.shows.keeps rfl)
  have same : some (LockRecord.lease ⟨name, h.finish, h.since, e.holder h.provider⟩) =
      found.map LockRecord.lease := t.shows.lease.symm.trans lease
  obtain ⟨r, rfl, equal⟩ := Option.map_eq_some_iff.mp same.symm
  rw [answer, LockRecord.lease_injective equal]

/-- Whoever acquires the lock finds its lease expired. -/
theorem expired_of_acquired (t : Tracks e name first w (some h)) (named : config.name = name) {handle : Handle}
    (acquired : (e.step faults w (.tryLock provider config)).1 = .attempted (.ok (some handle))) :
    h.finish ≤ w.clock := by
  subst named
  have answer := (e.tryLock_spec faults w provider config).1.symm.trans acquired
  have won := Provider.eq_true_of_answerOf (Answer.attempted.inj answer)
  obtain ⟨-, ⟨refused, -⟩ | ⟨-, found⟩⟩ := acquire_cases (e.strategy provider) (e.holder provider) faults
    t.shows.sound (e.store.timely w.clock) (t.known_lease provider)
  · exact absurd won refused
  · have expired := found.expired _ t.shows.lease
    rw [e.store.clock_eq] at expired
    exact expired

/-- Where the lease has expired, an attempt that does not fail acquires the lock. -/
theorem acquired_of_expired (t : Tracks e name first w (some h)) (named : config.name = name)
    (expired : h.finish ≤ w.clock) :
    (e.step (fun _ => none) w (.tryLock provider config)).1 = .attempted (.ok (some (.lease { config }))) := by
  subst named
  have ended : ∀ l, e.store.lease w.stage.store config.name = some l →
      l.lockUntil ≤ e.store.clock.reading w.clock := by
    intro l found
    cases t.shows.lease.symm.trans found
    rw [e.store.clock_eq]
    exact expired
  obtain ⟨won, -⟩ := acquire_free (e.strategy provider) (e.holder provider) t.shows.sound
    (e.store.timely w.clock) (t.shows.keeps rfl) ended (t.known_lease provider)
  have answer := (e.tryLock_spec (fun _ => none) w provider config).1
  rw [Setting.accessor, won] at answer
  exact answer

/-- A step that may release a handle leaves the holding as it was, or released. -/
theorem after_release (distinct : Function.Injective e.holder) (t : Tracks e name first w (some h))
    (faults : Operation → Option StoreFault) (release : act.IsRelease) :
    ∃ g, (g = h ∨ ∃ i, g = h.release i w.clock) ∧ Tracks e name first (e.step faults w act).2 (some g) := by
  cases act with
  | unlock i =>
    simp only [Setting.step]
    cases found : Issued.at? w.handles i .kept with
    | none => exact ⟨h, .inl rfl, t⟩
    | some x =>
      obtain ⟨there, kept⟩ := Issued.at?_eq_some.mp found
      obtain ⟨g, noted, change⟩ := note_of_release name w h release
        (e.unlock faults w i x).1
      exact ⟨g, change, noted ▸ unlock_tracks distinct t there kept⟩
  | settle i =>
    simp only [Setting.step]
    cases found : Issued.at? w.handles i .dropped with
    | none => exact ⟨h, .inl rfl, t⟩
    | some x =>
      obtain ⟨there, dropped⟩ := Issued.at?_eq_some.mp found
      obtain ⟨g, noted, change⟩ := note_of_release name w h release
        (e.settle faults w i x).1
      exact ⟨g, change, noted ▸ settle_tracks distinct t there dropped⟩
  | tryLock _ _ | extend _ _ _ | drop _ | find _ | clearCache _ | setClock _ => cases release

theorem envelope (distinct : Function.Injective e.holder) (t : Tracks e name first w (some h)) :
    Envelope e name w h where
  record := t.record
  least faults provider config handle named acquired :=
    (Holding.least_le_finish (t.dated h rfl).1 t.shorter).trans (t.expired_of_acquired named acquired)
  release faults act release := by
    obtain ⟨g, change, after⟩ := t.after_release distinct faults release
    have bound : g.finish ≤ max w.clock h.finish := by
      rcases change with rfl | ⟨i, rfl⟩
      · exact le_max_right _ _
      · exact Holding.finish_release_le (t.dated h rfl).1 t.shorter
    refine ⟨_, after.record, ?_, ?_⟩
    · intro live
      rwa [max_eq_right live.le] at bound
    · intro expired
      rwa [max_eq_left expired] at bound
  free ended provider config named := by
    refine t.acquired_of_expired named ?_
    rcases ended with past | ⟨moment, released, past⟩
    · exact Holding.finish_le (t.dated h rfl) t.shorter past
    · rwa [Holding.finish, released]

end Tracks

/-- After a run every record of a name was there at the beginning or has a last holding, and a last holding
promises what it should. -/
def Setting.Envelops (e : Setting) (name : String) (s : e.store.State) (now : Instant) (moves : List Move) :
    Prop :=
  let w := (e.run moves (e.start s now)).2
  let last := e.lastHolding name moves (e.start s now) none
  (∀ r, e.store.find w.stage.store name = .ok (some r) →
      last.isSome = true ∨ e.store.lease s name = some r.lease) ∧
    ∀ h, last = some h → Envelope e name w h

theorem Setting.envelops {now : Instant} {moves : List Move} (distinct : Function.Injective e.holder)
    (calm : now.isLeap = false) (sound : e.store.Sound s name) (steady : e.Steady moves (e.start s now)) :
    e.Envelops name s now moves := by
  have tracks := run_tracks distinct (start_tracks sound calm) steady
  dsimp only [Setting.Envelops]
  cases last : e.lastHolding name moves (e.start s now) none with
  | none =>
    rw [last] at tracks
    refine ⟨fun r found => .inr ?_, fun h this => by cases this⟩
    exact tracks.shows.lease.symm.trans (e.store.lease_of_find found)
  | some h =>
    rw [last] at tracks
    refine ⟨fun _ _ => .inl rfl, ?_⟩
    rintro h ⟨⟩
    exact tracks.envelope distinct

/-- Whatever holders of different identities do with a lock, and whatever fails: its record says what the
last acquisition or extension promised, nobody acquires it earlier, and it is free afterwards. -/
theorem lease_envelope (holder : Nat → String) (distinct : Function.Injective holder) (now : Instant)
    (calm : now.isLeap = false) (moves : List Move) (name : String) :
    (∀ (strategy : Nat → AcquireStrategy) (records : Records),
      Setting.Steady ⟨.memory, strategy, holder⟩ moves (Setting.start _ records now) →
      Setting.Envelops ⟨.memory, strategy, holder⟩ name records now moves) ∧
    (∀ (s : FileStore) (tree : FileTree), s.Readable tree name →
      Setting.Steady ⟨.file s, fun _ => .atomicProcedure, holder⟩ moves (Setting.start _ tree now) →
      Setting.Envelops ⟨.file s, fun _ => .atomicProcedure, holder⟩ name tree now moves) := by
  constructor
  · intro strategy records steady
    exact Setting.envelops distinct calm trivial steady
  · intro s tree readable steady
    exact Setting.envelops distinct calm readable steady

/-- A holder renews its lease, fails to release it, and drops the handle, which releases it. -/
def tenancy : List Move :=
  [{ act := .tryLock 0 .nightly }, { act := .extend 0 (.ofSeconds 90) (.ofSeconds 20) },
    { act := .unlock 0, faults := fun _ => some .unavailable }, { act := .drop 0 }, { act := .settle 0 }]

/-- Another holder tries too early, and then at the end of the shortest time. -/
def succession : List Move :=
  [{ act := .tryLock 1 .nightly }, { act := .setClock (Instant.epoch.add (.ofSeconds 20)) },
    { act := .tryLock 1 .nightly }]

/-- The envelope of a tenancy in files, and of one in memory that another follows. -/
theorem lease_envelope_succession :
    let holder : Nat → String := fun provider => String.ofList (List.replicate provider.succ 'h')
    let memory : Setting := ⟨.memory, fun _ => .insertThenUpdate, holder⟩
    let file : Setting := ⟨.file ⟨[], ["locks"]⟩, fun _ => .atomicProcedure, holder⟩
    memory.Envelops "backup" (∅ : Records) .epoch (tenancy ++ succession) ∧
      file.Envelops "backup" (⟨[["locks"]], ∅⟩ : FileTree) .epoch tenancy ∧
      memory.lastHolding "backup" (tenancy ++ succession) (memory.start (∅ : Records) .epoch) none =
        some ⟨1, 1, Instant.epoch.add (.ofSeconds 20), .ofSeconds 60, .ofSeconds 5, none⟩ := by
  intro holder memory file
  have distinct : Function.Injective holder := by
    intro a b same
    have lengths := congrArg (fun s => s.toList.length) same
    simpa [holder] using lengths
  refine ⟨?_, ?_, by decide +kernel⟩
  · have envelope := (lease_envelope holder distinct .epoch rfl (tenancy ++ succession) "backup").1
    exact envelope (fun _ => .insertThenUpdate) ∅ (by decide +kernel)
  · have envelope := (lease_envelope holder distinct .epoch rfl tenancy "backup").2
    exact envelope ⟨[], ["locks"]⟩ ⟨[["locks"]], ∅⟩ (FileStore.readable_of_no_file rfl) (by decide +kernel)

end TaskLease

import TaskLease.Proofs.Provider.Holding

/-!
# A store and the last holding of a name

`Tracks` is the invariant that ties the last holding of a name to the store and to the handles: the lease is
the one that the holding implies, or the one from the beginning as long as nobody has acquired the lock.
`step_tracks` goes through the steps, `run_tracks` through a run.

An identity in a record stands for a provider, not for a handle. That no provider has two held handles of
the name makes the handle that releases or extends a lease the one that the last holding is of.
-/

namespace TaskLease

open World

/-- What a store holds of a name, compared with the last holding and the lease from the beginning. -/
structure Shows (e : Setting) (name : String) (first : Option (StoredLease Instant)) (s : e.store.State)
    (last : Option Holding) : Prop where
  sound : e.store.Sound s name
  lease : e.store.lease s name = Holding.recorded e.holder name first last
  keeps : last.isSome = true → e.store.Keeps s name

variable {e : Setting} {name : String} {first : Option (StoredLease Instant)} {s : e.store.State} {last : Option Holding} {handles : List Issued}
  {faults : Operation → Option StoreFault} {provider i : Nat} {x : Issued} {now : Instant} {op : Operation}
  {config : LockConfig}

namespace Shows

/-- An operation on a lock of another name changes nothing. -/
theorem perform_of_ne (shown : Shows e name first s last) (faults : Operation → Option StoreFault) (provider : Nat)
    (now : Instant) (op : Operation) (other : config.name ≠ name) :
    Shows e name first ((e.accessor faults provider now).perform op config s).2 last where
  sound := LeaseStore.sound_accessor op config shown.sound (e.store.timely now)
  lease := (LeaseStore.lease_accessor_of_ne op other).trans shown.lease
  keeps some := (LeaseStore.keeps_accessor op config).mpr (shown.keeps some)

/-- An operation on the lock fails and changes nothing, or does to the lease what it does. -/
theorem perform (shown : Shows e name first s last) (faults : Operation → Option StoreFault) (provider : Nat)
    (now : Instant) (op : Operation) (named : config.name = name) :
    let reply := (e.accessor faults provider now).perform op config s
    let d : Demand := ⟨e.holder provider, config, now⟩
    let reclaims := e.store.reclaims (e.strategy provider)
    (∃ fault, reply.1 = .error fault ∧ Shows e name first reply.2 last) ∨
      (reply.1 = .ok (op.applies .instants d reclaims (Holding.recorded e.holder name first last)) ∧
        ∀ next, Holding.recorded e.holder name first next =
          op.after .instants d reclaims (Holding.recorded e.holder name first last) → Shows e name first reply.2 next) := by
  subst named
  have timely := e.store.timely now
  rcases LeaseStore.accessor_perform (e.strategy provider) (e.holder provider) now faults op config s with
    ⟨fault, failed⟩ | ⟨keeps, performed⟩
  · left
    refine ⟨fault, ?_, ?_⟩
    · rw [Setting.accessor, failed]
    · rw [Setting.accessor, failed]
      exact shown
  · right
    have answer := e.store.perform_kept (a := { holder := e.holder provider, config, now
                                                strategy := e.strategy provider, op }) shown.sound timely keeps
    have lease := e.store.lease_perform_kept (a := { holder := e.holder provider, config, now
                                                     strategy := e.strategy provider, op }) shown.sound timely keeps
    rw [shown.lease, e.store.clock_eq] at answer lease
    simp only [Setting.accessor, performed]
    refine ⟨answer, ?_⟩
    intro next right
    exact ⟨e.store.sound_perform shown.sound timely, lease.trans right.symm, fun _ => e.store.keeps_perform.mpr keeps⟩

/-- What an unlock through a held handle leaves of the last holding. -/
theorem after_unlock {reclaims : Bool} (distinct : Function.Injective e.holder)
    (t : HandlesTrack name handles last) (found : handles[i]? = some x) (active : x.Active)
    (named : x.name = name) :
    Holding.recorded e.holder name first (last.map (Holding.release i now)) =
      Operation.after .instants ⟨e.holder x.provider, x.lease.config, now⟩ reclaims .unlock
        (Holding.recorded e.holder name first last) := by
  obtain ⟨h, rfl⟩ := Option.isSome_iff_exists.mp (t.isSome_last found named)
  obtain ⟨y, there, handle⟩ := t.handle h rfl
  simp only [Option.map_some, Holding.recorded]
  by_cases own : x.provider = h.provider
  · obtain rfl := t.only h rfl i x found active named own
    cases found.symm.trans there
    have held : h.released = none := by
      cases released : h.released with
      | none => rfl
      | some moment => exact absurd active (handle.released (by rw [released]; rfl))
    have applied : Operation.applies .instants ⟨e.holder x.provider, x.lease.config, now⟩ reclaims .unlock
        (some (h.lease e.holder name)) = true := decide_eq_true (congrArg e.holder own.symm)
    rw [Operation.after, if_pos applied, Holding.release_self rfl]
    simp only [Operation.written, Option.map_some, Demand.releasedLease, Holding.lease, Holding.finish,
      handle.atLeast]
    rfl
  · have other : h.handle ≠ i := by
      rintro rfl
      cases found.symm.trans there
      exact own handle.provider
    have refused : Operation.applies .instants ⟨e.holder x.provider, x.lease.config, now⟩ reclaims .unlock
        (some (h.lease e.holder name)) = false := decide_eq_false fun same => own (distinct same).symm
    rw [Operation.after, refused, Holding.release_of_ne other]
    rfl

/-- A handle of another name is not that of the last holding. -/
theorem release_of_other (t : HandlesTrack name handles last) (found : handles[i]? = some x)
    (other : x.name ≠ name) : last.map (Holding.release i now) = last := by
  cases last with
  | none => rfl
  | some h =>
    obtain ⟨y, there, handle⟩ := t.handle h rfl
    have ne : h.handle ≠ i := by
      rintro rfl
      cases found.symm.trans there
      exact other handle.name
    rw [Option.map_some, Holding.release_of_ne ne]

/-- An unlock through a held handle fails and changes nothing, or releases the holding of that handle. -/
theorem unlock (distinct : Function.Injective e.holder) (shown : Shows e name first s last)
    (faults : Operation → Option StoreFault) (now : Instant) (t : HandlesTrack name handles last)
    (found : handles[i]? = some x) (active : x.Active) :
    let reply := (e.accessor faults x.provider now).perform .unlock x.lease.config s
    (∃ fault, reply.1 = .error fault ∧ Shows e name first reply.2 last) ∨
      (∃ applied, reply.1 = .ok applied ∧ Shows e name first reply.2 (last.map (Holding.release i now))) := by
  by_cases named : x.name = name
  · refine (shown.perform faults x.provider now .unlock named).imp_right ?_
    rintro ⟨answer, leaves⟩
    exact ⟨_, answer, leaves _ (after_unlock distinct t found active named)⟩
  · have unchanged := shown.perform_of_ne faults x.provider now .unlock named
    rw [release_of_other t found named]
    cases reply : ((e.accessor faults x.provider now).perform .unlock x.lease.config s).1 with
    | error fault => exact .inl ⟨fault, reply, unchanged⟩
    | ok applied => exact .inr ⟨applied, reply, unchanged⟩

/-- An extension through a held handle changes nothing, or begins a holding of that handle. -/
theorem extend (distinct : Function.Injective e.holder) (shown : Shows e name first s last)
    (faults : Operation → Option StoreFault) (provider : Nat) (now : Instant) (named : config.name = name)
    (present : last.isSome = true) :
    let reply := (e.accessor faults provider now).perform .extend config s
    (reply.1 ≠ .ok true ∧ Shows e name first reply.2 last) ∨
      (reply.1 = .ok true ∧ ∀ i, Shows e name first reply.2
        (some { handle := i, provider, since := now, atMost := config.atMost, atLeast := config.atLeast })) := by
  rcases shown.perform faults provider now .extend named with
    ⟨fault, failed, unchanged⟩ | ⟨answer, leaves⟩
  · exact .inl ⟨by simp [failed], unchanged⟩
  cases applied : Operation.applies .instants ⟨e.holder provider, config, now⟩
      (e.store.reclaims (e.strategy provider)) .extend (Holding.recorded e.holder name first last) with
  | false =>
    rw [applied] at answer
    refine .inl ⟨by simp [answer], leaves last ?_⟩
    rw [Operation.after, applied]
    rfl
  | true =>
    rw [applied] at answer
    refine .inr ⟨answer, fun i => leaves _ ?_⟩
    rw [Operation.after, if_pos applied]
    obtain ⟨h, rfl⟩ := Option.isSome_iff_exists.mp present
    have both := (Bool.and_eq_true ..).mp applied
    have own : h.provider = provider := distinct (of_decide_eq_true both.1)
    subst own
    rfl

end Shows

/-- A holding began at an instant that is not a leap second, and was not released in the future. -/
def Holding.Dated (now : Instant) (h : Holding) : Prop :=
  h.since.isLeap = false ∧ ∀ moment, h.released = some moment → moment ≤ now

theorem Holding.Dated.release {h : Holding} (dated : h.Dated now) : (h.release i now).Dated now := by
  by_cases mine : h.handle = i
  · rw [Holding.release_self mine]
    refine ⟨dated.1, ?_⟩
    intro moment this
    cases this
    exact le_rfl
  · rw [Holding.release_of_ne mine]
    exact dated

/-- The store and the handles agree with the last holding of a name. -/
structure Tracks (e : Setting) (name : String) (first : Option (StoredLease Instant)) (w : World e.store.State)
    (last : Option Holding) : Prop where
  shows : Shows e name first w.stage.store last
  handles : HandlesTrack name w.handles last
  dated : ∀ h, last = some h → h.Dated w.clock
  calm : w.clock.isLeap = false
  /-- Registries know the name only if there is a lease. -/
  known : ∀ provider, (w.registries provider).contains name = true →
    (Holding.recorded e.holder name first last).isSome = true

section

variable {w next : World e.store.State} {y : Issued} {atMost atLeast : Duration}

theorem Tracks.known_lease (t : Tracks e name first w last) (provider : Nat)
    (knows : (w.registries provider).contains name = true) :
    (e.store.lease w.stage.store name).isSome = true := by
  rw [t.shows.lease]
  exact t.known provider knows

/-- A step that leaves the last holding what it was. -/
theorem Tracks.unnoted (t : Tracks e name first w last) (clock : next.clock = w.clock)
    (shows : Shows e name first next.stage.store last) (handles : HandlesTrack name next.handles last)
    (known : ∀ provider, (next.registries provider).contains name = true →
      (Holding.recorded e.holder name first last).isSome = true) :
    Tracks e name first next last where
  shows := shows
  handles := handles
  dated h this := by
    rw [clock]
    exact t.dated h this
  calm := by
    rw [clock]
    exact t.calm
  known := known

/-- A step that releases a handle. -/
theorem Tracks.released (t : Tracks e name first w last) (found : w.handles[i]? = some x)
    (provider : y.provider = x.provider) (config : y.lease.config = x.lease.config) (idle : ¬ y.Active)
    (clock : next.clock = w.clock) (registries : next.registries = w.registries)
    (handles : next.handles = w.handles.set i y)
    (shows : Shows e name first next.stage.store (last.map (Holding.release i w.clock))) :
    Tracks e name first next (last.map (Holding.release i w.clock)) where
  shows := shows
  handles := by
    rw [handles]
    have bound := (List.getElem?_eq_some_iff.mp found).1
    have set := t.handles.set found provider config fun active => absurd active idle
    exact set.release (List.getElem?_set_self bound) idle
  dated h this := by
    obtain ⟨before, was, rfl⟩ := Option.map_eq_some_iff.mp this
    rw [clock]
    exact (t.dated before was).release
  calm := by
    rw [clock]
    exact t.calm
  known provider knows := by
    rw [registries] at knows
    have present := t.known provider knows
    cases last with
    | none => exact present
    | some h => rfl

/-! ## Attempts -/

/-- An attempt without success is not noted and gives out no handle. -/
theorem note_of_refused {answer : Except StoreFault Bool} (w : World e.store.State) (name : String)
    (provider : Nat) (config : LockConfig) (last : Option Holding) (refused : answer ≠ .ok true) :
    w.note name (.tryLock provider config) (.attempted (Provider.answerOf config answer)) last = last ∧
      Issued.ofAnswer provider (Provider.answerOf config answer) = [] := by
  rcases answer with fault | _ | _
  · exact ⟨rfl, rfl⟩
  · exact ⟨rfl, rfl⟩
  · exact absurd rfl refused

/-- An attempt for a lock of another name is not noted, and gives out a handle of that name if any. -/
theorem note_of_ne (w : World e.store.State) (provider : Nat) (last : Option Holding)
    (answer : Except StoreFault Bool) (other : config.name ≠ name) :
    w.note name (.tryLock provider config) (.attempted (Provider.answerOf config answer)) last = last ∧
      ∀ y ∈ Issued.ofAnswer provider (Provider.answerOf config answer), y.name ≠ name := by
  rcases answer with fault | _ | _
  · exact ⟨rfl, fun y member => by cases member⟩
  · exact ⟨rfl, fun y member => by cases member⟩
  · refine ⟨if_neg other, ?_⟩
    intro y member
    cases List.mem_singleton.mp member
    exact other

theorem known_update {p : Prop} {registries : Nat → Registry} {registry : Registry}
    (known : ∀ provider, (registries provider).contains name = true → p)
    (mine : registry.contains name = true → p) (other : Nat) :
    (Function.update registries provider registry other).contains name = true → p := by
  by_cases same : other = provider
  · subst same
    rw [Function.update_self]
    exact mine
  · rw [Function.update_of_ne same]
    exact known other

/-- What an attempt does not change, whatever it comes to. -/
theorem tryLock_frame (e : Setting) (faults : Operation → Option StoreFault) (w : World e.store.State)
    (provider : Nat) (config : LockConfig) (name : String) :
    let next := (e.tryLock faults w provider config).2
    (e.store.Sound w.stage.store name → e.store.Sound next.stage.store name) ∧
      (e.store.Keeps next.stage.store name ↔ e.store.Keeps w.stage.store name) := by
  have timely := e.store.timely w.clock
  obtain ⟨-, -, store, -⟩ := e.tryLock_spec faults w provider config
  simp only [store]
  constructor
  · intro sound
    exact sound_acquire (e.strategy provider) (e.holder provider) faults config (w.registries provider) sound timely
  · exact keeps_acquire (e.strategy provider) (e.holder provider) faults config (w.registries provider)
      w.stage.store name timely

theorem tryLock_of_ne (t : Tracks e name first w last) (faults : Operation → Option StoreFault) (provider : Nat)
    (other : config.name ≠ name) :
    Tracks e name first (e.tryLock faults w provider config).2
      (w.note name (.tryLock provider config) (e.tryLock faults w provider config).1 last) := by
  obtain ⟨answer, clock, store, registries, handles⟩ := e.tryLock_spec faults w provider config
  obtain ⟨sound, keeps⟩ := tryLock_frame e faults w provider config name
  obtain ⟨lease, contains⟩ := acquire_of_ne (e.strategy provider) (e.holder provider) faults
    (w.registries provider) w.stage.store (e.store.timely w.clock) other
  obtain ⟨note, others⟩ := note_of_ne w provider last
    (acquire (e.accessor faults provider w.clock) config (w.registries provider) w.stage.store).1 other
  rw [answer, note]
  refine t.unnoted clock ⟨sound t.shows.sound, ?_, fun some => keeps.mpr (t.shows.keeps some)⟩ ?_ ?_
  · rw [store]
    exact lease.trans t.shows.lease
  · rw [handles]
    exact t.handles.append others
  · rw [registries]
    exact known_update t.known fun knows => t.known provider (contains.symm.trans knows)

theorem tryLock_of_refused (t : Tracks e config.name first w last)
    (refused : (acquire (e.accessor faults provider w.clock) config (w.registries provider) w.stage.store).1 ≠
      .ok true)
    (same : e.store.lease (acquire (e.accessor faults provider w.clock) config (w.registries provider)
      w.stage.store).2.2 config.name = e.store.lease w.stage.store config.name)
    (known : (acquire (e.accessor faults provider w.clock) config (w.registries provider)
      w.stage.store).2.1.contains config.name = true →
        (Holding.recorded e.holder config.name first last).isSome = true) :
    Tracks e config.name first (e.tryLock faults w provider config).2
      (w.note config.name (.tryLock provider config) (e.tryLock faults w provider config).1 last) := by
  obtain ⟨answer, clock, store, registries, handles⟩ := e.tryLock_spec faults w provider config
  obtain ⟨sound, keeps⟩ := tryLock_frame e faults w provider config config.name
  obtain ⟨note, issued⟩ := note_of_refused w config.name provider config last refused
  rw [answer, note]
  refine t.unnoted clock ⟨sound t.shows.sound, ?_, fun some => keeps.mpr (t.shows.keeps some)⟩ ?_ ?_
  · rw [store]
    exact same.trans t.shows.lease
  · rw [handles, issued, List.append_nil]
    exact t.handles
  · rw [registries]
    exact known_update t.known known

/-- An attempt that acquires the lock begins a holding of the handle that it gives out. -/
theorem tryLock_of_acquired (t : Tracks e config.name first w last)
    (held : (e.tryLock faults w provider config).2.OneHeld)
    (won : (acquire (e.accessor faults provider w.clock) config (w.registries provider) w.stage.store).1 = .ok true)
    (acquired : e.store.Acquired ⟨e.holder provider, config, w.clock⟩ w.stage.store
      (acquire (e.accessor faults provider w.clock) config (w.registries provider) w.stage.store).2.2) :
    Tracks e config.name first (e.tryLock faults w provider config).2
      (w.note config.name (.tryLock provider config) (e.tryLock faults w provider config).1 last) := by
  obtain ⟨answer, clock, store, registries, handles⟩ := e.tryLock_spec faults w provider config
  obtain ⟨sound, keeps⟩ := tryLock_frame e faults w provider config config.name
  rw [won] at answer handles
  have issued : (e.tryLock faults w provider config).2.handles[w.handles.length]? =
      some { provider, lease := { config } } := by
    rw [handles]
    exact List.getElem?_concat_length
  have fresh := acquired.fresh
  rw [e.store.clock_eq, ← store] at fresh
  simp only [answer, World.note, Provider.answerOf, if_true]
  refine ⟨⟨sound t.shows.sound, fresh, fun _ => keeps.mpr acquired.keeps⟩, ?_, ?_, ?_, fun _ _ => rfl⟩
  · refine HandlesTrack.of_new issued ⟨rfl, rfl, rfl, rfl, fun gone => by cases gone⟩ ?_
    intro j y there active same provider'
    exact held.eq there issued active ⟨rfl, fun gone => by cases gone⟩ provider' same
  · intro h this
    cases this
    exact ⟨t.calm, fun moment this => by cases this⟩
  · rw [clock]
    exact t.calm

theorem tryLock_tracks (t : Tracks e name first w last) (held : (e.tryLock faults w provider config).2.OneHeld) :
    Tracks e name first (e.tryLock faults w provider config).2
      (w.note name (.tryLock provider config) (e.tryLock faults w provider config).1 last) := by
  by_cases named : config.name = name
  · subst named
    obtain ⟨known, ⟨refused, same⟩ | ⟨won, acquired⟩⟩ := acquire_cases (e.strategy provider)
      (e.holder provider) faults t.shows.sound (e.store.timely w.clock) (t.known_lease provider)
    · rw [same, t.shows.lease] at known
      exact tryLock_of_refused t refused same known
    · exact tryLock_of_acquired t held won acquired
  · exact tryLock_of_ne t faults provider named

/-! ## Handles -/

theorem unlock_tracks (distinct : Function.Injective e.holder) (t : Tracks e name first w last)
    (found : w.handles[i]? = some x) (kept : x.standing = .kept) :
    Tracks e name first (e.unlock faults w i x).2 (w.note name (.unlock i) (e.unlock faults w i x).1 last) := by
  by_cases state : x.lease.state = .held
  · have active : x.Active := ⟨state, by rw [kept]; nofun⟩
    obtain ⟨outcome, store⟩ := Lease.unlock_held (e.accessor faults x.provider w.clock) w.stage state
    rcases t.shows.unlock distinct faults w.clock t.handles found active with
      ⟨fault, failed, unchanged⟩ | ⟨applied, answer, released⟩
    · rw [failed] at outcome
      simp only [Setting.unlock, outcome]
      refine t.unnoted rfl ?_ (t.handles.set found rfl rfl id) t.known
      rw [store]
      exact unchanged
    · rw [answer] at outcome
      simp only [Setting.unlock, outcome, World.note, found, state, if_true]
      refine t.released (y := { x with lease := { x.lease with state := .released } }) found rfl rfl ?_ rfl rfl
        rfl ?_
      · rintro ⟨again, -⟩
        cases again
      · rw [store]
        exact released
  · have idle := Lease.unlock_idle (e.accessor faults x.provider w.clock) w.stage state
    simp only [Setting.unlock, idle, World.note, found, state, if_false]
    exact t.unnoted rfl t.shows (t.handles.set found rfl rfl id) t.known

theorem settle_tracks (distinct : Function.Injective e.holder) (t : Tracks e name first w last)
    (found : w.handles[i]? = some x) (dropped : x.standing = .dropped) :
    Tracks e name first (e.settle faults w i x).2 (w.note name (.settle i) (e.settle faults w i x).1 last) := by
  have gone : ¬ Issued.Active { x with standing := .gone } := fun active => active.2 rfl
  by_cases state : x.lease.state = .held
  · have active : x.Active := ⟨state, by rw [dropped]; nofun⟩
    obtain ⟨told, store⟩ := Lease.drop_held (e.accessor faults x.provider w.clock) w.stage state
    rcases t.shows.unlock distinct faults w.clock t.handles found active with
      ⟨fault, failed, unchanged⟩ | ⟨applied, answer, released⟩
    · rw [failed] at told
      simp only [Setting.settle, told, List.drop_left]
      refine t.unnoted rfl ?_ (t.handles.set found rfl rfl fun active => absurd active gone) t.known
      rw [store]
      exact unchanged
    · rw [answer] at told
      simp only [Setting.settle, told, List.drop_left, World.note]
      refine t.released (y := { x with standing := .gone }) found rfl rfl gone rfl rfl rfl ?_
      rw [store]
      exact released
  · have idle := Lease.drop_idle (e.accessor faults x.provider w.clock) w.stage state
    simp only [Setting.settle, idle, List.drop_length, World.note]
    exact t.unnoted rfl t.shows (t.handles.set found rfl rfl fun active => absurd active gone) t.known

/-- A step that extends the lock through a handle. -/
theorem Tracks.extended (t : Tracks e name first w last) (found : w.handles[i]? = some x) (active : x.Active)
    {extended : LockConfig} (named : extended.name = name) (held : next.OneHeld) (clock : next.clock = w.clock)
    (handles : next.handles = w.handles.set i { x with lease := { x.lease with config := extended } })
    (shows : Shows e name first next.stage.store
      (some { handle := i, provider := x.provider, since := w.clock
              atMost := extended.atMost, atLeast := extended.atLeast })) :
    Tracks e name first next
      (some { handle := i, provider := x.provider, since := w.clock
              atMost := extended.atMost, atLeast := extended.atLeast }) := by
  have bound := (List.getElem?_eq_some_iff.mp found).1
  have there : next.handles[i]? = some { x with lease := { x.lease with config := extended } } := by
    rw [handles]
    exact List.getElem?_set_self bound
  refine ⟨shows, ?_, ?_, ?_, fun _ _ => rfl⟩
  · refine HandlesTrack.of_new there ⟨rfl, named, rfl, rfl, nofun⟩ ?_
    intro j y there' active' same provider'
    exact held.eq there' there active' active provider' (same.trans named.symm)
  · intro h this
    cases this
    exact ⟨t.calm, fun moment this => by cases this⟩
  · rw [clock]
    exact t.calm

theorem extend_of_own (distinct : Function.Injective e.holder) (t : Tracks e name first w last)
    (found : w.handles[i]? = some x) (active : x.Active) {extended : LockConfig}
    (allowed : x.lease.config.withDurations extended.atMost extended.atLeast = .ok extended)
    (named : x.name = name) (held : (e.extend faults w i x extended.atMost extended.atLeast).2.OneHeld) :
    Tracks e name first (e.extend faults w i x extended.atMost extended.atLeast).2
      (w.note name (.extend i extended.atMost extended.atLeast)
        (e.extend faults w i x extended.atMost extended.atLeast).1 last) := by
  have own : extended.name = name := (LockConfig.withDurations_eq_ok_iff.mp allowed).1.trans named
  obtain ⟨outcome, store⟩ := Lease.extend_held (e.accessor faults x.provider w.clock) w.stage active.1 allowed
  have present := t.handles.isSome_last found named
  rcases t.shows.extend distinct faults x.provider w.clock own present with ⟨refused, unchanged⟩ | ⟨answer, renewed⟩
  · rw [← store] at unchanged
    revert outcome refused
    rcases ((e.accessor faults x.provider w.clock).perform .extend extended w.stage.store).1 with
      fault | _ | _
    · intro outcome _
      simp only [Setting.extend, outcome]
      exact t.unnoted rfl unchanged (t.handles.set found rfl rfl id) t.known
    · intro outcome _
      simp only [Setting.extend, outcome]
      refine t.unnoted rfl unchanged (t.handles.set found rfl rfl ?_) t.known
      rintro ⟨again, -⟩
      cases again
    · exact fun _ refused => absurd rfl refused
  · rw [answer] at outcome
    have shows := renewed i
    rw [← store] at shows
    simp only [Setting.extend, outcome] at held ⊢
    simp only [World.note, found, named, if_true]
    exact t.extended found active own held rfl rfl shows

theorem extend_of_ne (t : Tracks e name first w last) (found : w.handles[i]? = some x) (active : x.Active)
    {extended : LockConfig}
    (allowed : x.lease.config.withDurations extended.atMost extended.atLeast = .ok extended)
    (other : x.name ≠ name) :
    Tracks e name first (e.extend faults w i x extended.atMost extended.atLeast).2
      (w.note name (.extend i extended.atMost extended.atLeast)
        (e.extend faults w i x extended.atMost extended.atLeast).1 last) := by
  have other' : extended.name ≠ name := by
    rw [(LockConfig.withDurations_eq_ok_iff.mp allowed).1]
    exact other
  obtain ⟨outcome, store⟩ := Lease.extend_held (e.accessor faults x.provider w.clock) w.stage active.1 allowed
  have unchanged := t.shows.perform_of_ne faults x.provider w.clock .extend other'
  rw [← store] at unchanged
  revert outcome
  rcases ((e.accessor faults x.provider w.clock).perform .extend extended w.stage.store).1 with fault | _ | _
  · intro outcome
    simp only [Setting.extend, outcome]
    exact t.unnoted rfl unchanged (t.handles.set found rfl rfl id) t.known
  · intro outcome
    simp only [Setting.extend, outcome]
    exact t.unnoted rfl unchanged (t.handles.set_of_ne found other other) t.known
  · intro outcome
    simp only [Setting.extend, outcome, World.note, found, other, if_false]
    exact t.unnoted rfl unchanged (t.handles.set_of_ne found other other') t.known

theorem extend_tracks (distinct : Function.Injective e.holder) (t : Tracks e name first w last)
    (found : w.handles[i]? = some x) (kept : x.standing = .kept)
    (held : (e.extend faults w i x atMost atLeast).2.OneHeld) :
    Tracks e name first (e.extend faults w i x atMost atLeast).2
      (w.note name (.extend i atMost atLeast) (e.extend faults w i x atMost atLeast).1 last) := by
  have same := t.handles.set found rfl rfl id
  cases state : x.lease.state with
  | released =>
    have idle := Lease.extend_released (e.accessor faults x.provider w.clock) w.stage atMost atLeast state
    simp only [Setting.extend, idle]
    exact t.unnoted rfl t.shows same t.known
  | lost =>
    have idle := Lease.extend_lost (e.accessor faults x.provider w.clock) w.stage atMost atLeast state
    simp only [Setting.extend, idle]
    exact t.unnoted rfl t.shows same t.known
  | held =>
    have active : x.Active := ⟨state, by rw [kept]; nofun⟩
    cases allowed : x.lease.config.withDurations atMost atLeast with
    | error refusal =>
      have refused := Lease.extend_refused (e.accessor faults x.provider w.clock) w.stage state allowed
      simp only [Setting.extend, refused]
      exact t.unnoted rfl t.shows same t.known
    | ok extended =>
      obtain ⟨-, rfl, rfl⟩ := LockConfig.withDurations_eq_ok_iff.mp allowed
      by_cases named : x.name = name
      · exact extend_of_own distinct t found active allowed named held
      · exact extend_of_ne t found active allowed named

/-! ## Runs -/

/-- A step keeps the store and the handles in agreement with the last holding. -/
theorem step_tracks (distinct : Function.Injective e.holder) (t : Tracks e name first w last) (act : Act)
    (forward : act.Forward w.clock) (held : (e.step faults w act).2.OneHeld) :
    Tracks e name first (e.step faults w act).2 (w.note name act (e.step faults w act).1 last) := by
  cases act with
  | tryLock provider config => exact tryLock_tracks t held
  | unlock i =>
    simp only [Setting.step]
    cases found : Issued.at? w.handles i .kept with
    | none => exact t
    | some x =>
      obtain ⟨there, kept⟩ := Issued.at?_eq_some.mp found
      exact unlock_tracks distinct t there kept
  | extend i atMost atLeast =>
    simp only [Setting.step] at held ⊢
    cases found : Issued.at? w.handles i .kept with
    | none => exact t
    | some x =>
      obtain ⟨there, kept⟩ := Issued.at?_eq_some.mp found
      rw [found] at held
      exact extend_tracks distinct t there kept held
  | drop i =>
    simp only [Setting.step]
    cases found : Issued.at? w.handles i .kept with
    | none => exact t
    | some x =>
      obtain ⟨there, kept⟩ := Issued.at?_eq_some.mp found
      refine t.unnoted rfl t.shows (t.handles.set there rfl rfl ?_) t.known
      rintro ⟨state, -⟩
      exact ⟨state, by rw [kept]; nofun⟩
  | settle i =>
    simp only [Setting.step]
    cases found : Issued.at? w.handles i .dropped with
    | none => exact t
    | some x =>
      obtain ⟨there, dropped⟩ := Issued.at?_eq_some.mp found
      exact settle_tracks distinct t there dropped
  | find key => exact t
  | clearCache provider =>
    refine t.unnoted rfl t.shows t.handles (known_update t.known ?_)
    intro knows
    rw [Registry.contains_clear] at knows
    cases knows
  | setClock now =>
    obtain ⟨later, calm⟩ := forward
    refine ⟨t.shows, t.handles, ?_, calm, t.known⟩
    intro h this
    obtain ⟨since, released⟩ := t.dated h this
    exact ⟨since, fun moment this => (released moment this).trans later⟩

/-- So does a run. -/
theorem run_tracks (distinct : Function.Injective e.holder) {moves : List Move} (t : Tracks e name first w last)
    (steady : e.Steady moves w) : Tracks e name first (e.run moves w).2 (e.lastHolding name moves w last) := by
  induction moves generalizing w last with
  | nil => exact t
  | cons m rest ih =>
    obtain ⟨forward, held, later⟩ := steady
    exact ih (step_tracks distinct t m.act forward held) later

/-- At the beginning there was no holding. -/
theorem start_tracks (sound : e.store.Sound s name) (calm : now.isLeap = false) :
    Tracks e name (e.store.lease s name) (e.start s now) none := by
  refine ⟨⟨sound, rfl, ?_⟩, ⟨?_, ?_, ?_⟩, ?_, calm, ?_⟩
  · intro some
    cases some
  · intro _ x member
    cases member
  · intro h this
    cases this
  · intro h this
    cases this
  · intro h this
    cases this
  · intro provider knows
    cases knows

end

end TaskLease

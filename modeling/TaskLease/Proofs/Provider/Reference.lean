import TaskLease.Proofs.Lease.RecordPaths
import TaskLease.Proofs.Provider.World

/-!
# One specification for all stores of records

`Reference` says what locks do without saying how: it keeps a record for each name, and every step is one
decision on a record. An attempt succeeds if there is no record or an expired one, a release moves the end
of the lease if the record is its holder's, and an extension succeeds if the record is its holder's and
live. There are no strategies, no registries and no files in it.

`step_matches` is the simulation: a step of a world on any store of records answers as the reference does,
and leaves the records that the reference keeps. What carries it is that registries know only names with a
record, so an attempt that skips the insert finds the record it updates.
-/

namespace TaskLease

open World

/-- What providers and handles show of locks. -/
structure Reference where
  records : String → Option LockRecord := fun _ => none
  clock : Instant
  handles : List Issued := []

namespace Reference

variable (holder : Nat → String) (ref : Reference)

/-- Keeps a record under a name. -/
def write (name : String) (r : LockRecord) : Reference :=
  { ref with records := Function.update ref.records name (some r) }

/-- Replaces a handle. -/
def setHandle (i : Nat) (x : Issued) : Reference := { ref with handles := ref.handles.set i x }

/-- An attempt succeeds where no record is live. -/
def tryLock (provider : Nat) (config : LockConfig) : Answer × Reference :=
  if (ref.records config.name).all fun r => r.lockUntil ≤ ref.clock then
    let next := ref.write config.name
      ⟨config.name, ref.clock.add config.atMost, ref.clock, holder provider⟩
    (.attempted (.ok (some (.lease { config }))),
      { next with handles := ref.handles ++ [{ provider, lease := { config } }] })
  else (.attempted (.ok none), ref)

/-- A release of a held handle moves the end of its holder's lease to the end of the minimum time, or to
now if that has passed. -/
def release (x : Issued) : Reference :=
  match (ref.records x.name).filter fun r => r.lockedBy = holder x.provider with
  | some r => ref.write x.name { r with lockUntil := max ref.clock (r.lockedAt.add x.lease.config.atLeast) }
  | none => ref

/-- A release through a handle. It is done once. -/
def unlock (i : Nat) (x : Issued) : Answer × Reference :=
  match x.lease.state with
  | .held =>
    (.released (.ok ()), (ref.release holder x).setHandle i { x with lease := { x.lease with state := .released } })
  | .released | .lost => (.released (.ok ()), ref)

/-- An extension through a handle succeeds where its holder has a live lease. Otherwise the lock is lost. -/
def extend (i : Nat) (x : Issued) (atMost atLeast : Duration) : Answer × Reference :=
  match x.lease.state with
  | .released => (.extended (.error (.handleReleased x.name)), ref)
  | .lost => (.extended (.ok false), ref)
  | .held =>
    match x.lease.config.withDurations atMost atLeast with
    | .error e => (.extended (.error e), ref)
    | .ok config =>
      match (ref.records x.name).filter fun r => r.lockedBy = holder x.provider ∧ ref.clock < r.lockUntil with
      | some r =>
        (.extended (.ok true),
          (ref.write x.name { r with lockUntil := ref.clock.add atMost, lockedAt := ref.clock }).setHandle i
            { x with lease := { x.lease with config } })
      | none =>
        (.extended (.ok false), ref.setHandle i { x with lease := { x.lease with state := .lost } })

/-- The background release of a dropped handle. -/
def settle (i : Nat) (x : Issued) : Answer × Reference :=
  match x.lease.state with
  | .held =>
    (.settled [.log .droppedWhileHeld x.name], (ref.release holder x).setHandle i { x with standing := .gone })
  | .released | .lost => (.settled [], ref.setHandle i { x with standing := .gone })

/-- One step. -/
def step : Act → Answer × Reference
  | .tryLock provider config => ref.tryLock holder provider config
  | .unlock i =>
    match Issued.at? ref.handles i .kept with
    | some x => ref.unlock holder i x
    | none => (.nothing, ref)
  | .extend i atMost atLeast =>
    match Issued.at? ref.handles i .kept with
    | some x => ref.extend holder i x atMost atLeast
    | none => (.nothing, ref)
  | .drop i =>
    match Issued.at? ref.handles i .kept with
    | some x => (.nothing, ref.setHandle i { x with standing := .dropped })
    | none => (.nothing, ref)
  | .settle i =>
    match Issued.at? ref.handles i .dropped with
    | some x => ref.settle holder i x
    | none => (.nothing, ref)
  | .find name => (.found (.ok (ref.records name)), ref)
  | .clearCache _ => (.nothing, ref)
  | .setClock now => (.nothing, { ref with clock := now })

/-- The answers of some steps, and the reference after them. -/
def run : List Act → Reference → List Answer × Reference
  | [], ref => ([], ref)
  | act :: rest, ref =>
    let next := ref.step holder act
    let later := run rest next.2
    (next.1 :: later.1, later.2)

/-! ## What the reference does to one record -/

variable {holder ref} {x : Issued} {now : Instant} {reclaims : Bool}

/-- A release leaves the record that an unlock leaves. -/
theorem release_spec (holder : Nat → String) (ref : Reference) (x : Issued) (reclaims : Bool) :
    (ref.release holder x).clock = ref.clock ∧ (ref.release holder x).handles = ref.handles ∧
      ∃ found, (ref.release holder x).records = Function.update ref.records x.name found ∧
        found.map LockRecord.lease =
          Operation.after .instants ⟨holder x.provider, x.lease.config, ref.clock⟩ reclaims .unlock
            ((ref.records x.name).map LockRecord.lease) := by
  have unchanged {found : Option LockRecord} (same : ref.records x.name = found) :
      ref.records = Function.update ref.records x.name found := by
    rw [← same, Function.update_eq_self]
  unfold release
  cases found : ref.records x.name with
  | none => exact ⟨rfl, rfl, none, unchanged found, rfl⟩
  | some r =>
    by_cases own : r.lockedBy = holder x.provider
    · have kept : (some r).filter (fun r : LockRecord => r.lockedBy = holder x.provider) = some r := by simp [own]
      have applied : Operation.applies .instants ⟨holder x.provider, x.lease.config, ref.clock⟩ reclaims .unlock
          (some r.lease) = true := decide_eq_true own
      rw [kept, Option.map_some, Operation.after, if_pos applied]
      exact ⟨rfl, rfl, _, rfl, rfl⟩
    · have dropped : (some r).filter (fun r : LockRecord => r.lockedBy = holder x.provider) = none := by simp [own]
      have refused : Operation.applies .instants ⟨holder x.provider, x.lease.config, ref.clock⟩ reclaims .unlock
          (some r.lease) = false := decide_eq_false own
      rw [dropped, Option.map_some, Operation.after, refused]
      exact ⟨rfl, rfl, some r, unchanged found, rfl⟩

/-- An extension is admitted where the holder has a live record. -/
theorem extend_spec (d : Demand) (reclaims : Bool) (found : Option LockRecord) :
    match found.filter fun r => r.lockedBy = d.holder ∧ d.now < r.lockUntil with
    | some r =>
      Operation.applies .instants d reclaims .extend (found.map LockRecord.lease) = true ∧
        (some { r with lockUntil := d.now.add d.config.atMost, lockedAt := d.now }).map LockRecord.lease =
          Operation.after .instants d reclaims .extend (found.map LockRecord.lease)
    | none =>
      Operation.applies .instants d reclaims .extend (found.map LockRecord.lease) = false ∧
        found.map LockRecord.lease = Operation.after .instants d reclaims .extend (found.map LockRecord.lease) := by
  cases found with
  | none => exact ⟨rfl, rfl⟩
  | some r =>
    have applies : Operation.applies .instants d reclaims .extend (some r.lease) =
        decide (r.lockedBy = d.holder ∧ d.now < r.lockUntil) := (Bool.decide_and ..).symm
    by_cases admitted : r.lockedBy = d.holder ∧ d.now < r.lockUntil
    · simp only [Option.filter_some, admitted, Option.map_some, Operation.after, applies]
      exact ⟨rfl, rfl⟩
    · simp only [Option.filter_some, admitted, Option.map_some, Operation.after, applies]
      exact ⟨rfl, rfl⟩

end Reference

/-! ## The simulation -/

/-- What a store and registries hold of a name, compared to a record. -/
structure MatchesAt (store : RecordStore) (registries : Nat → Registry) (s : store.State) (name : String)
    (found : Option LockRecord) : Prop where
  sound : store.Sound s name
  keeps : store.Keeps s name
  lease : store.lease s name = found.map LockRecord.lease
  /-- Registries know the name only if there is a record. -/
  known : ∀ provider, (registries provider).contains name = true → found.isSome = true

/-- A world shows what the reference shows, as far as the accepted names go. -/
structure Matches (e : Setting) (accepted : String → Prop) (w : World e.store.State) (ref : Reference) : Prop where
  clock : w.clock = ref.clock
  handles : w.handles = ref.handles
  records : ∀ name, accepted name → MatchesAt e.store w.registries w.stage.store name (ref.records name)
  /-- Handles are given out for accepted names only. -/
  names : ∀ x ∈ w.handles, accepted x.name

/-- A step that asks for accepted names only. -/
def World.Act.Accepted (accepted : String → Prop) : World.Act → Prop
  | .tryLock _ config => accepted config.name
  | .find name => accepted name
  | .unlock _ | .extend .. | .drop _ | .settle _ | .clearCache _ | .setClock _ => True

section

variable {e : Setting} {accepted : String → Prop} {w : World e.store.State} {ref : Reference}
  {registries : Nat → Registry} {s : e.store.State} {records : String → Option LockRecord}

/-- Access to one name leaves records that match, if it leaves the right one under that name. -/
theorem matchesAt_perform {a : Access} {found : Option LockRecord} {key : String} (named : a.config.name = key)
    (before : ∀ name, accepted name → MatchesAt e.store registries s name (records name))
    (name_accepted : accepted key)
    (right : found.map LockRecord.lease = a.op.after .instants a.toDemand (e.store.reclaims a.strategy)
      ((records key).map LockRecord.lease)) :
    (e.store.perform a s).1 = .ok (a.op.applies .instants a.toDemand (e.store.reclaims a.strategy)
        ((records key).map LockRecord.lease)) ∧
      ∀ name, accepted name → MatchesAt e.store registries (e.store.perform a s).2 name
        (Function.update records key found name) := by
  subst named
  have here := before a.config.name name_accepted
  have timely := e.store.timely a.now
  have answer := e.store.perform_kept here.sound timely here.keeps
  have after := e.store.lease_perform_kept here.sound timely here.keeps
  rw [here.lease, e.store.clock_eq] at answer after
  refine ⟨answer, ?_⟩
  intro name name_accepted'
  have there := before name name_accepted'
  have sound := e.store.sound_perform (a := a) there.sound timely
  have keeps := (e.store.keeps_perform (a := a)).mpr there.keeps
  by_cases same : name = a.config.name
  · subst same
    rw [Function.update_self]
    refine ⟨sound, keeps, after.trans right.symm, ?_⟩
    intro provider knows
    have before : ((records a.config.name).map LockRecord.lease).isSome = true := by
      rw [Option.isSome_map]
      exact here.known provider knows
    rw [← Option.isSome_map, right]
    exact Operation.isSome_after before
  · rw [Function.update_of_ne same]
    exact ⟨sound, keeps, (e.store.lease_perform_of_ne (Ne.symm same)).trans there.lease, there.known⟩

theorem accepted_set {handles : List Issued} {i : Nat} {x y : Issued} (names : ∀ x ∈ handles, accepted x.name)
    (found : handles[i]? = some x) (same : y.name = x.name) : ∀ z ∈ handles.set i y, accepted z.name := by
  intro z member
  rcases List.mem_or_eq_of_mem_set member with old | rfl
  · exact names z old
  · rw [same]
    exact names x (List.mem_of_getElem? found)

/-- An attempt for one name leaves records that match, if it leaves the right one under that name. -/
theorem matchesAt_acquire {provider : Nat} {now : Instant} {config : LockConfig} {found : LockRecord}
    (before : ∀ name, accepted name → MatchesAt e.store registries s name (records name))
    (right : e.store.lease (acquire (e.accessor (fun _ => none) provider now) config (registries provider) s).2.2
      config.name = some found.lease) (name : String) (name_accepted : accepted name) :
    MatchesAt e.store
      (Function.update registries provider
        (acquire (e.accessor (fun _ => none) provider now) config (registries provider) s).2.1)
      (acquire (e.accessor (fun _ => none) provider now) config (registries provider) s).2.2 name
      (Function.update records config.name (some found) name) := by
  have there := before name name_accepted
  have timely := e.store.timely now
  have sound := sound_acquire (e.strategy provider) (e.holder provider) (fun _ => none) config
    (registries provider) there.sound timely
  have keeps := (keeps_acquire (e.strategy provider) (e.holder provider) (fun _ => none) config
    (registries provider) s name timely).mpr there.keeps
  by_cases same : name = config.name
  · subst same
    rw [Function.update_self]
    exact ⟨sound, keeps, right, fun _ _ => rfl⟩
  · rw [Function.update_of_ne same]
    obtain ⟨lease, contains⟩ := acquire_of_ne (e.strategy provider) (e.holder provider) (fun _ => none)
      (registries provider) s timely (Ne.symm same)
    refine ⟨sound, keeps, lease.trans there.lease, ?_⟩
    intro other knows
    by_cases mine : other = provider
    · subst mine
      rw [Function.update_self] at knows
      exact there.known other (contains.symm.trans knows)
    · rw [Function.update_of_ne mine] at knows
      exact there.known other knows

theorem Matches.reading (m : Matches e accepted w ref) : e.store.clock.reading w.clock = ref.clock := by
  rw [e.store.clock_eq, m.clock]
  rfl

/-- The record found is that of the reference. -/
theorem Matches.find (m : Matches e accepted w ref) {name : String} (name_accepted : accepted name) :
    e.store.find w.stage.store name = .ok (ref.records name) := by
  have here := m.records name name_accepted
  obtain ⟨found, answer, lease⟩ := e.store.find_kept here.sound here.keeps
  have same : found = ref.records name :=
    Option.map_injective (fun _ _ => LockRecord.lease_injective) (lease.symm.trans here.lease)
  rw [answer, same]

theorem tryLock_free_matches (m : Matches e accepted w ref) (provider : Nat) {config : LockConfig}
    (name_accepted : accepted config.name)
    (free : (ref.records config.name).all (fun r => r.lockUntil ≤ ref.clock) = true) :
    (e.tryLock (fun _ => none) w provider config).1 = (ref.tryLock e.holder provider config).1 ∧
      Matches e accepted (e.tryLock (fun _ => none) w provider config).2
        (ref.tryLock e.holder provider config).2 := by
  have here := m.records config.name name_accepted
  obtain ⟨answer, clock, store, registries, handles⟩ := e.tryLock_spec (fun _ => none) w provider config
  have expired : ∀ l, e.store.lease w.stage.store config.name = some l →
      l.lockUntil ≤ e.store.clock.reading w.clock := by
    intro l found
    rw [here.lease, Option.map_eq_some_iff] at found
    obtain ⟨r, found, rfl⟩ := found
    rw [found] at free
    rw [m.reading]
    exact of_decide_eq_true free
  have known : (w.registries provider).contains config.name = true →
      (e.store.lease w.stage.store config.name).isSome = true := by
    intro knows
    rw [here.lease, Option.isSome_map]
    exact here.known provider knows
  obtain ⟨won, fresh⟩ := acquire_free (e.strategy provider) (e.holder provider) here.sound
    (e.store.timely w.clock) here.keeps expired known
  have given : Demand.freshLease e.store.clock ⟨e.holder provider, config, w.clock⟩ =
      LockRecord.lease ⟨config.name, ref.clock.add config.atMost, ref.clock, e.holder provider⟩ := by
    rw [e.store.clock_eq, m.clock]
    rfl
  rw [given] at fresh
  rw [Setting.accessor, won] at answer handles
  rw [Reference.tryLock, if_pos free]
  refine ⟨answer, clock.trans m.clock, handles.trans (congrArg (· ++ _) m.handles), ?_, ?_⟩
  · intro name name_accepted'
    rw [store, registries]
    exact matchesAt_acquire m.records fresh name name_accepted'
  · intro x member
    rw [handles] at member
    rcases List.mem_append.mp member with old | new
    · exact m.names x old
    · cases List.mem_singleton.mp new
      exact name_accepted

theorem tryLock_held_matches (m : Matches e accepted w ref) (provider : Nat) {config : LockConfig}
    (name_accepted : accepted config.name)
    (busy : (ref.records config.name).all (fun r => r.lockUntil ≤ ref.clock) = false) :
    (e.tryLock (fun _ => none) w provider config).1 = (ref.tryLock e.holder provider config).1 ∧
      Matches e accepted (e.tryLock (fun _ => none) w provider config).2
        (ref.tryLock e.holder provider config).2 := by
  have here := m.records config.name name_accepted
  obtain ⟨answer, clock, store, registries, handles⟩ := e.tryLock_spec (fun _ => none) w provider config
  obtain ⟨r, found, live⟩ : ∃ r, ref.records config.name = some r ∧ ref.clock < r.lockUntil := by
    cases found : ref.records config.name with
    | none =>
      rw [found] at busy
      cases busy
    | some r =>
      rw [found] at busy
      exact ⟨r, rfl, not_le.mp (of_decide_eq_false busy)⟩
  have lease : e.store.lease w.stage.store config.name = some r.lease := by
    rw [here.lease, found]
    rfl
  obtain ⟨refused, kept⟩ := acquire_held (e.strategy provider) (e.holder provider) (w.registries provider)
    here.sound (e.store.timely w.clock) here.keeps lease (m.reading ▸ live)
  rw [Setting.accessor, refused] at answer handles
  rw [Reference.tryLock, if_neg (by rw [busy]; exact Bool.false_ne_true)]
  have same : (e.tryLock (fun _ => none) w provider config).2.handles = w.handles :=
    handles.trans (List.append_nil _)
  refine ⟨answer, clock.trans m.clock, same.trans m.handles, ?_, ?_⟩
  · intro name name_accepted'
    have unchanged := matchesAt_acquire m.records kept name name_accepted'
    rw [← found, Function.update_eq_self] at unchanged
    rw [store, registries]
    exact unchanged
  · rw [same]
    exact m.names

theorem tryLock_matches (m : Matches e accepted w ref) (provider : Nat) {config : LockConfig}
    (name_accepted : accepted config.name) :
    (e.tryLock (fun _ => none) w provider config).1 = (ref.tryLock e.holder provider config).1 ∧
      Matches e accepted (e.tryLock (fun _ => none) w provider config).2
        (ref.tryLock e.holder provider config).2 := by
  cases free : (ref.records config.name).all fun r => r.lockUntil ≤ ref.clock with
  | true => exact tryLock_free_matches m provider name_accepted free
  | false => exact tryLock_held_matches m provider name_accepted free

/-- What a release does to the store, through a handle or in the background. -/
theorem release_matches (m : Matches e accepted w ref) {x : Issued} (name_accepted : accepted x.name) :
    let reply := (e.accessor (fun _ => none) x.provider w.clock).perform .unlock x.lease.config w.stage.store
    (∃ applied, reply.1 = .ok applied) ∧ ∀ name, accepted name →
      MatchesAt e.store w.registries reply.2 name ((ref.release e.holder x).records name) := by
  obtain ⟨-, -, found, records, right⟩ :=
    Reference.release_spec e.holder ref x (e.store.reclaims (e.strategy x.provider))
  rw [← m.clock] at right
  obtain ⟨answer, matched⟩ := matchesAt_perform
    (a := { holder := e.holder x.provider, config := x.lease.config, now := w.clock
            strategy := e.strategy x.provider, op := .unlock })
    rfl m.records name_accepted right
  refine ⟨⟨_, answer⟩, ?_⟩
  rw [records]
  exact matched

theorem unlock_matches (m : Matches e accepted w ref) {i : Nat} {x : Issued} (found : w.handles[i]? = some x) :
    (e.unlock (fun _ => none) w i x).1 = (ref.unlock e.holder i x).1 ∧
      Matches e accepted (e.unlock (fun _ => none) w i x).2 (ref.unlock e.holder i x).2 := by
  have name_accepted := m.names x (List.mem_of_getElem? found)
  unfold Reference.unlock
  by_cases held : x.lease.state = .held
  · obtain ⟨outcome, store⟩ :=
      Lease.unlock_held (e.accessor (fun _ => none) x.provider w.clock) w.stage held
    obtain ⟨⟨applied, answer⟩, matched⟩ := release_matches m name_accepted
    obtain ⟨clock, handles, -⟩ := Reference.release_spec e.holder ref x true
    rw [answer] at outcome
    simp only [Setting.unlock, held, outcome]
    refine ⟨trivial, m.clock.trans clock.symm, ?_, ?_, ?_⟩
    · exact congrArg (List.set · i _) (m.handles.trans handles.symm)
    · intro name name_accepted'
      rw [store]
      exact matched name name_accepted'
    · exact accepted_set m.names found rfl
  · have idle := Lease.unlock_idle (e.accessor (fun _ => none) x.provider w.clock) w.stage held
    have same : w.handles.set i x = w.handles := Issued.set_self found
    simp only [Setting.unlock, idle]
    cases state : x.lease.state with
    | held => exact absurd state held
    | released | lost =>
      exact ⟨rfl, m.clock, same.trans m.handles, m.records, same.symm ▸ m.names⟩

theorem extend_held_matches (m : Matches e accepted w ref) {i : Nat} {x : Issued} {extended : LockConfig}
    (found : w.handles[i]? = some x) (held : x.lease.state = .held)
    (allowed : x.lease.config.withDurations extended.atMost extended.atLeast = .ok extended) :
    (e.extend (fun _ => none) w i x extended.atMost extended.atLeast).1 =
        (ref.extend e.holder i x extended.atMost extended.atLeast).1 ∧
      Matches e accepted (e.extend (fun _ => none) w i x extended.atMost extended.atLeast).2
        (ref.extend e.holder i x extended.atMost extended.atLeast).2 := by
  have name_accepted := m.names x (List.mem_of_getElem? found)
  have named : extended.name = x.name := (LockConfig.withDurations_eq_ok_iff.mp allowed).1
  obtain ⟨outcome, store⟩ := Lease.extend_held (e.accessor (fun _ => none) x.provider w.clock) w.stage held allowed
  have spec := Reference.extend_spec ⟨e.holder x.provider, extended, w.clock⟩
    (e.store.reclaims (e.strategy x.provider)) (ref.records x.name)
  have access {right : Option LockRecord} (is_right : right.map LockRecord.lease =
      Operation.after .instants ⟨e.holder x.provider, extended, w.clock⟩
        (e.store.reclaims (e.strategy x.provider)) .extend ((ref.records x.name).map LockRecord.lease)) :=
    matchesAt_perform
      (a := { holder := e.holder x.provider, config := extended, now := w.clock
              strategy := e.strategy x.provider, op := .extend })
      named m.records name_accepted is_right
  simp only [Reference.extend, held, allowed, ← m.clock]
  cases admitted : (ref.records x.name).filter
      fun r => r.lockedBy = e.holder x.provider ∧ w.clock < r.lockUntil with
  | some r =>
    rw [admitted] at spec
    obtain ⟨answer, matched⟩ := access spec.2
    have reply : ((e.accessor (fun _ => none) x.provider w.clock).perform .extend extended w.stage.store).1 =
        .ok true := answer.trans (congrArg Except.ok spec.1)
    rw [reply] at outcome
    simp only [Setting.extend, outcome, held]
    refine ⟨trivial, m.clock, congrArg (List.set · i _) m.handles, ?_, accepted_set m.names found named⟩
    intro name name_accepted'
    rw [store]
    exact matched name name_accepted'
  | none =>
    rw [admitted] at spec
    obtain ⟨answer, matched⟩ := access spec.2
    have reply : ((e.accessor (fun _ => none) x.provider w.clock).perform .extend extended w.stage.store).1 =
        .ok false := answer.trans (congrArg Except.ok spec.1)
    rw [reply] at outcome
    simp only [Setting.extend, outcome]
    refine ⟨trivial, m.clock, congrArg (List.set · i _) m.handles, ?_, accepted_set m.names found rfl⟩
    intro name name_accepted'
    rw [store]
    have same := matched name name_accepted'
    rw [Function.update_eq_self] at same
    exact same

theorem extend_matches (m : Matches e accepted w ref) {i : Nat} {x : Issued} (atMost atLeast : Duration)
    (found : w.handles[i]? = some x) :
    (e.extend (fun _ => none) w i x atMost atLeast).1 = (ref.extend e.holder i x atMost atLeast).1 ∧
      Matches e accepted (e.extend (fun _ => none) w i x atMost atLeast).2
        (ref.extend e.holder i x atMost atLeast).2 := by
  have same : w.handles.set i x = w.handles := Issued.set_self found
  cases state : x.lease.state with
  | released =>
    have idle := Lease.extend_released (e.accessor (fun _ => none) x.provider w.clock) w.stage atMost atLeast state
    simp only [Setting.extend, idle, Reference.extend, state]
    exact ⟨rfl, m.clock, same.trans m.handles, m.records, same.symm ▸ m.names⟩
  | lost =>
    have idle := Lease.extend_lost (e.accessor (fun _ => none) x.provider w.clock) w.stage atMost atLeast state
    simp only [Setting.extend, idle, Reference.extend, state]
    exact ⟨trivial, m.clock, same.trans m.handles, m.records, same.symm ▸ m.names⟩
  | held =>
    cases allowed : x.lease.config.withDurations atMost atLeast with
    | error refusal =>
      have refused := Lease.extend_refused (e.accessor (fun _ => none) x.provider w.clock) w.stage state allowed
      simp only [Setting.extend, refused, Reference.extend, state, allowed]
      exact ⟨trivial, m.clock, same.trans m.handles, m.records, same.symm ▸ m.names⟩
    | ok extended =>
      obtain ⟨-, rfl, rfl⟩ := LockConfig.withDurations_eq_ok_iff.mp allowed
      exact extend_held_matches m found state allowed

theorem settle_matches (m : Matches e accepted w ref) {i : Nat} {x : Issued} (found : w.handles[i]? = some x) :
    (e.settle (fun _ => none) w i x).1 = (ref.settle e.holder i x).1 ∧
      Matches e accepted (e.settle (fun _ => none) w i x).2 (ref.settle e.holder i x).2 := by
  have name_accepted := m.names x (List.mem_of_getElem? found)
  unfold Reference.settle
  by_cases held : x.lease.state = .held
  · obtain ⟨told, store⟩ := Lease.drop_held (e.accessor (fun _ => none) x.provider w.clock) w.stage held
    obtain ⟨⟨applied, answer⟩, matched⟩ := release_matches m name_accepted
    obtain ⟨clock, handles, -⟩ := Reference.release_spec e.holder ref x true
    rw [answer] at told
    simp only [Setting.settle, held, told, List.drop_left]
    refine ⟨rfl, m.clock.trans clock.symm, ?_, ?_, ?_⟩
    · exact congrArg (List.set · i _) (m.handles.trans handles.symm)
    · intro name name_accepted'
      rw [store]
      exact matched name name_accepted'
    · exact accepted_set m.names found rfl
  · have idle := Lease.drop_idle (e.accessor (fun _ => none) x.provider w.clock) w.stage held
    have gone : (e.settle (fun _ => none) w i x).1 = .settled [] ∧
        Matches e accepted (e.settle (fun _ => none) w i x).2 (ref.setHandle i { x with standing := .gone }) := by
      simp only [Setting.settle, idle, List.drop_length]
      refine ⟨trivial, m.clock, congrArg (List.set · i _) m.handles, m.records, ?_⟩
      exact accepted_set m.names found rfl
    cases state : x.lease.state with
    | held => exact absurd state held
    | released | lost => exact gone

/-- A step without faults answers as the reference does, and the world shows what the reference shows. -/
theorem step_matches (m : Matches e accepted w ref) {act : Act} (act_accepted : act.Accepted accepted) :
    (e.step (fun _ => none) w act).1 = (ref.step e.holder act).1 ∧
      Matches e accepted (e.step (fun _ => none) w act).2 (ref.step e.holder act).2 := by
  cases act with
  | tryLock provider config => exact tryLock_matches m provider act_accepted
  | unlock i =>
    simp only [Setting.step, Reference.step, ← m.handles]
    cases found : Issued.at? w.handles i .kept with
    | none => exact ⟨rfl, m⟩
    | some x => exact unlock_matches m (Issued.at?_eq_some.mp found).1
  | extend i atMost atLeast =>
    simp only [Setting.step, Reference.step, ← m.handles]
    cases found : Issued.at? w.handles i .kept with
    | none => exact ⟨rfl, m⟩
    | some x => exact extend_matches m atMost atLeast (Issued.at?_eq_some.mp found).1
  | drop i =>
    simp only [Setting.step, Reference.step, ← m.handles]
    cases found : Issued.at? w.handles i .kept with
    | none => exact ⟨rfl, m⟩
    | some x =>
      have there := (Issued.at?_eq_some.mp found).1
      exact ⟨rfl, m.clock, congrArg (List.set · i _) m.handles, m.records, accepted_set m.names there rfl⟩
  | settle i =>
    simp only [Setting.step, Reference.step, ← m.handles]
    cases found : Issued.at? w.handles i .dropped with
    | none => exact ⟨rfl, m⟩
    | some x => exact settle_matches m (Issued.at?_eq_some.mp found).1
  | find name =>
    refine ⟨?_, m⟩
    simp only [Setting.step, Reference.step, m.find act_accepted]
  | clearCache provider =>
    refine ⟨rfl, m.clock, m.handles, ?_, m.names⟩
    intro name name_accepted
    have here := m.records name name_accepted
    refine ⟨here.sound, here.keeps, here.lease, ?_⟩
    intro other knows
    by_cases mine : other = provider
    · subst mine
      simp [Setting.step] at knows
    · simp only [Setting.step, Function.update_of_ne mine] at knows
      exact here.known other knows
  | setClock now => exact ⟨rfl, rfl, m.handles, m.records, m.names⟩

theorem run_matches (m : Matches e accepted w ref) {acts : List Act}
    (acts_accepted : ∀ act ∈ acts, act.Accepted accepted) :
    (e.run (acts.map fun act => { act }) w).1 = (ref.run e.holder acts).1 ∧
      Matches e accepted (e.run (acts.map fun act => { act }) w).2 (ref.run e.holder acts).2 := by
  induction acts generalizing w ref with
  | nil => exact ⟨rfl, m⟩
  | cons act rest ih =>
    obtain ⟨answer, next⟩ := step_matches m (acts_accepted act List.mem_cons_self)
    obtain ⟨answers, last⟩ := ih next fun act member => acts_accepted act (List.mem_cons_of_mem _ member)
    exact ⟨congrArg₂ List.cons answer answers, last⟩

end

/-! ## All stores -/

/-- A run on a store is answered as by the reference, and for every accepted name the record is found that
the reference keeps. -/
def Setting.Conforms (e : Setting) (accepted : String → Prop) (s : e.store.State) (now : Instant)
    (acts : List Act) : Prop :=
  let last := e.run (acts.map fun act => { act }) (e.start s now)
  let ref := Reference.run e.holder acts { clock := now }
  last.1 = ref.1 ∧ ∀ name, accepted name → e.store.find last.2.stage.store name = .ok (ref.2.records name)

theorem Setting.conforms {e : Setting} {accepted : String → Prop} {s : e.store.State} {now : Instant}
    {acts : List Act} (sound : ∀ name, accepted name → e.store.Sound s name)
    (keeps : ∀ name, accepted name → e.store.Keeps s name)
    (nothing : ∀ name, accepted name → e.store.lease s name = none)
    (acts_accepted : ∀ act ∈ acts, act.Accepted accepted) : e.Conforms accepted s now acts := by
  have first : Matches e accepted (e.start s now) { clock := now } := by
    refine ⟨rfl, rfl, ?_, ?_⟩
    · intro name name_accepted
      refine ⟨sound name name_accepted, keeps name name_accepted, nothing name name_accepted, ?_⟩
      intro provider knows
      cases knows
    · intro x member
      cases member
  obtain ⟨answers, last⟩ := run_matches first acts_accepted
  exact ⟨answers, fun _ name_accepted => last.find name_accepted⟩

/-- All stores of records do what the reference says, whatever the steps: in memory with any strategies, and
in files under all names that a file can have. -/
theorem stores_conform (holder : Nat → String) (now : Instant) (acts : List Act) :
    (∀ strategy : Nat → AcquireStrategy,
      Setting.Conforms ⟨.memory, strategy, holder⟩ (fun _ => True) (∅ : Records) now acts) ∧
    (∀ (s : FileStore) (tree : FileTree), tree.isDirectory s.locks = true →
      (∀ name, tree.hasPath (s.recordPath name) = false) →
      (∀ act ∈ acts, act.Accepted FileStore.Accepts) →
      Setting.Conforms ⟨.file s, fun _ => .atomicProcedure, holder⟩ FileStore.Accepts tree now acts) := by
  constructor
  · intro strategy
    refine Setting.conforms (e := ⟨.memory, strategy, holder⟩) (fun _ _ => trivial) (fun _ _ => trivial)
      (fun _ _ => rfl) ?_
    intro act _
    cases act <;> trivial
  · intro s tree directory empty acts_accepted
    have missing (name : String) : tree.content? (s.recordPath name) = none := by
      have nothing := empty name
      rw [FileTree.hasPath, Bool.or_eq_false_iff] at nothing
      exact Option.isNone_iff_eq_none.mp (Option.isSome_eq_false_iff.mp nothing.2)
    refine Setting.conforms (e := ⟨.file s, fun _ => .atomicProcedure, holder⟩)
      (fun name _ => FileStore.readable_of_no_file (missing name))
      (fun name accepted => FileStore.canOpen_recordPath directory (empty name) accepted) ?_ acts_accepted
    intro name _
    have readable : s.recordIn tree name = .ok none := by
      rw [FileStore.recordIn, missing]
      rfl
    exact FileStore.leaseIn_of_recordIn readable

/-- One holder acquires a lock, keeps another one out, renews and releases it, and is followed by that one. -/
def relay : List Act :=
  let config : LockConfig :=
    { LockConfig.nightly with name := "backup/daily", name_ne_empty := by decide, name_length_le := by decide }
  [.tryLock 0 config, .tryLock 1 config, .extend 0 (.ofSeconds 90) (.ofSeconds 5), .find "backup/daily",
    .clearCache 0, .unlock 0, .setClock (Instant.epoch.add (.ofSeconds 6)), .tryLock 1 config, .drop 1, .settle 1]

/-- The relay goes as the reference says, in memory and in files. -/
theorem stores_conform_relay :
    let holder : Nat → String := fun provider => if provider = 0 then "first" else "second"
    Setting.Conforms ⟨.memory, fun _ => .insertThenUpdate, holder⟩ (fun _ => True) (∅ : Records) .epoch relay ∧
      Setting.Conforms ⟨.memory, fun _ => .atomicUpsert, holder⟩ (fun _ => True) (∅ : Records) .epoch relay ∧
      Setting.Conforms ⟨.file ⟨[], ["locks"]⟩, fun _ => .atomicProcedure, holder⟩ FileStore.Accepts
        (⟨[["locks"]], ∅⟩ : FileTree) .epoch relay := by
  intro holder
  obtain ⟨memory, file⟩ := stores_conform holder .epoch relay
  refine ⟨memory fun _ => .insertThenUpdate, memory fun _ => .atomicUpsert, ?_⟩
  refine file ⟨[], ["locks"]⟩ ⟨[["locks"]], ∅⟩ (by decide) ?_ ?_
  · intro name
    simp [FileTree.hasPath, FileTree.isDirectory, FileStore.recordPath, Path.root, FileTree.content?]
  · have short : FileStore.Accepts "backup/daily" := by
      unfold FileStore.Accepts
      decide +kernel
    simp [relay, World.Act.Accepted, short]

end TaskLease

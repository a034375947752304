import TaskLease.Proofs.Lease.Store
import TaskLease.Proofs.Store.HashFields

/-!
# Stores of hashes

The scripts of a hash server make a store of leases, which reckons in milliseconds. A sum of a time and a
duration is rounded to a double: `Binary64.nearest` says to which one, and below 2⁵³ it is exact.

The fields of a hash are texts. `Redis.Shows` relates them to the lease that they stand for. Its bounds
keep all numbers inside the 54 bits in which a sum is rounded only once; the clock of the server keeps to
them because no instant lies more than 2⁵³ milliseconds after the epoch.
-/

namespace TaskLease

/-- Time to the millisecond since the epoch, in doubles. -/
def Reckoning.millis : Reckoning Nat where
  reading t := t.epochMillis.toNat
  plus t d := Binary64.nearest (t + Redis.millis d)

namespace Redis

open Binary64

/-- The fields of a hash stand for a lease. -/
structure Holds (fields : Fields) (l : StoredLease Nat) : Prop where
  name : fields.get? "name" = some l.name
  lockUntil : fields.get? "lock_until" = some (millisText l.lockUntil)
  lockedAt : fields.get? "locked_at" = some (millisText l.lockedAt)
  lockedBy : fields.get? "locked_by" = some l.lockedBy
  /-- The end of the lease is a number that a double can hold. -/
  lockUntil_exact : nearest l.lockUntil = l.lockUntil
  lockUntil_lt : l.lockUntil < 0x40000000000000
  lockedAt_lt : l.lockedAt < 0x1FFFFFFFFFFFFF

/-- The fields of a hash stand for a lease, or there are none because there is no lease. -/
def Shows (fields : Fields) : Option (StoredLease Nat) → Prop
  | none => fields = ∅
  | some l => Holds fields l

/-- The lease that the fields of a hash stand for. -/
def leaseOf (fields : Fields) : Option (StoredLease Nat) := do
  let name ← fields.get? "name"
  let lockUntil ← (fields.get? "lock_until").bind readInteger
  let lockedAt ← (fields.get? "locked_at").bind readInteger
  let lockedBy ← fields.get? "locked_by"
  return ⟨name, lockUntil.toNat, lockedAt.toNat, lockedBy⟩

variable {fields : Fields} {found : Option (StoredLease Nat)} {l : StoredLease Nat} {d : Demand}

theorem leaseOf_of_shows (shows : Shows fields found) : leaseOf fields = found := by
  cases found with
  | none =>
    rw [shows]
    rfl
  | some l =>
    have holds : Holds fields l := shows
    have lockedAt_small : l.lockedAt < 0x40000000000000 := Nat.lt_trans holds.lockedAt_lt (by decide)
    simp [leaseOf, holds.name, holds.lockUntil, holds.lockedAt, holds.lockedBy,
      readInteger_millisText holds.lockUntil_lt, readInteger_millisText lockedAt_small]

/-! ## Times and durations as doubles -/

theorem reading_lt (t : Instant) : Reckoning.millis.reading t < 0x1FFFFFFFFFFFFF := by
  have upper := t.le_maxSecs
  have nanos := t.nanos_lt
  simp only [Reckoning.millis, Instant.epochMillis]
  omega

theorem serverTime_whole {t : Instant} (timely : 0 ≤ t.epochMillis) :
    (serverTime t).IsWhole (Reckoning.millis.reading t) := by
  have small := reading_lt t
  simp only [Reckoning.millis] at small
  exact ofInt_whole timely (by omega)

theorem millis_le (d : Duration) : millis d ≤ 0x20000000000000 := Nat.min_le_right ..

theorem ofNat_millis_whole (d : Duration) : (Binary64.ofNat (millis d)).IsWhole (millis d) := by
  have bound := millis_le d
  have whole := ofNat_whole (n := millis d) (by omega)
  rcases Nat.lt_or_eq_of_le bound with less | same
  · rwa [nearest_of_lt less] at whole
  · rw [same] at whole ⊢
    exact whole

/-- The sum of a time and a duration that a script forms, and that it can be written. -/
theorem plus_whole {x : Binary64} {t : Nat} (time : x.IsWhole t) (small : t < 0x1FFFFFFFFFFFFF) (d : Duration) :
    (x.add (.ofNat (millis d))).IsWhole (Reckoning.millis.plus t d) ∧
      nearest (Reckoning.millis.plus t d) = Reckoning.millis.plus t d ∧
      Reckoning.millis.plus t d < 0x40000000000000 := by
  have bound := millis_le d
  refine ⟨add_whole time (ofNat_millis_whole d) (by omega), nearest_nearest _, ?_⟩
  exact nearest_lt (by omega)

/-- A sum that a double holds exactly. The script is given the duration as it is. -/
theorem plus_millis {t : Nat} {d : Duration} (small : t + d.millis < 0x20000000000000) :
    Reckoning.millis.plus t d = t + d.millis := by
  have fits : Redis.millis d = d.millis := Nat.min_eq_left (by simp only [maxMillis]; omega)
  simp only [Reckoning.millis, fits]
  exact Binary64.nearest_of_lt small

theorem fieldNumber_millisText {field : String} {n : Nat} (text : fields.get? field = some (millisText n))
    (exact' : nearest n = n) (small : n < 0x40000000000000) :
    ∃ x, fieldNumber fields field = .ok x ∧ x.IsWhole n := by
  obtain ⟨x, read, whole⟩ := toNumber_millisText small
  rw [exact'] at whole
  refine ⟨x, ?_, whole⟩
  rw [fieldNumber, text, Option.bind_some, read]

/-! ## The scripts -/

theorem holds_freshFields (fields : Fields) (timely : 0 ≤ d.now.epochMillis) :
    Holds (freshFields fields ⟨millis d.config.atMost, d.holder, d.config.name⟩ (serverTime d.now))
      (d.freshLease .millis) := by
  have now := serverTime_whole timely
  have small := reading_lt d.now
  obtain ⟨sum, exact', bound⟩ := plus_whole now small d.config.atMost
  rw [freshFields, formatInteger_whole now, formatInteger_whole sum]
  constructor <;> simp [Table.get?_insert, Demand.freshLease, exact', bound, small]

theorem holds_renewed (holds : Holds fields l) (timely : 0 ≤ d.now.epochMillis) :
    Holds ((fields.insert "lock_until" (formatInteger ((serverTime d.now).add (.ofNat (millis d.config.atMost))))).insert
        "locked_at" (formatInteger (serverTime d.now)))
      (d.renewedLease .millis l) := by
  have now := serverTime_whole timely
  have small := reading_lt d.now
  obtain ⟨sum, exact', bound⟩ := plus_whole now small d.config.atMost
  rw [formatInteger_whole now, formatInteger_whole sum]
  constructor <;>
    simp [Table.get?_insert, Demand.renewedLease, holds.name, holds.lockedBy, exact', bound, small]

theorem holds_released (holds : Holds fields l) (timely : 0 ≤ d.now.epochMillis) {x : Binary64}
    (lockedAt : x.IsWhole l.lockedAt) :
    Holds (fields.insert "lock_until" (formatInteger
        (if (serverTime d.now).lt (x.add (.ofNat (millis d.config.atLeast)))
          then x.add (.ofNat (millis d.config.atLeast)) else serverTime d.now)))
      (d.releasedLease .millis l) := by
  have now := serverTime_whole timely
  have small := reading_lt d.now
  obtain ⟨sum, exact', bound⟩ := plus_whole lockedAt holds.lockedAt_lt d.config.atLeast
  have least : Holds (fields.insert "lock_until" (millisText (Reckoning.millis.plus l.lockedAt d.config.atLeast)))
      { l with lockUntil := Reckoning.millis.plus l.lockedAt d.config.atLeast } := by
    constructor <;>
      simp [Table.get?_insert, holds.name, holds.lockedAt, holds.lockedBy, exact', bound, holds.lockedAt_lt]
  have ended : Holds (fields.insert "lock_until" (millisText (Reckoning.millis.reading d.now)))
      { l with lockUntil := Reckoning.millis.reading d.now } := by
    have exact' := nearest_of_lt (n := Reckoning.millis.reading d.now) (by omega)
    constructor <;>
      simp [Table.get?_insert, holds.name, holds.lockedAt, holds.lockedBy, exact', holds.lockedAt_lt]
    omega
  rw [lt_whole now sum, Demand.releasedLease]
  by_cases order : Reckoning.millis.reading d.now < Reckoning.millis.plus l.lockedAt d.config.atLeast
  · rw [decide_eq_true order, if_pos rfl, formatInteger_whole sum, max_eq_right (Nat.le_of_lt order)]
    exact least
  · rw [decide_eq_false order, if_neg Bool.false_ne_true, formatInteger_whole now, max_eq_left (Nat.not_lt.mp order)]
    exact ended

/-- The outcome of a script is that of an operation: its answer, and the lease that the fields show. -/
def Agrees (outcome : Except ScriptFault Nat × Fields) (op : Operation) (d : Demand)
    (found : Option (StoredLease Nat)) : Prop :=
  outcome.1 = .ok (if op.applies .millis d true found then 1 else 0) ∧
    Shows outcome.2 (op.after .millis d true found)

theorem agrees_of_refused {op : Operation} (refused : op.applies .millis d true found = false)
    (shows : Shows fields found) : Agrees (.ok 0, fields) op d found := by
  rw [Agrees, Operation.after, refused]
  exact ⟨rfl, shows⟩

theorem agrees_of_applied {op : Operation} (applied : op.applies .millis d true found = true)
    (shows : Shows fields (op.written .millis d found)) : Agrees (.ok 1, fields) op d found := by
  rw [Agrees, Operation.after, applied]
  exact ⟨rfl, shows⟩

/-- What a script finds in a hash that holds a lease. -/
theorem run_acquisition (op : Operation) (acquisition : op.isAcquisition = true) (arguments : Arguments)
    (timely : 0 ≤ d.now.epochMillis) (holds : Holds fields l) :
    run op arguments d.now fields =
      if Reckoning.millis.reading d.now < l.lockUntil then (.ok 0, fields)
      else (.ok 1, freshFields fields arguments (serverTime d.now)) := by
  have present : fields.contains "lock_until" = true := by
    rw [Table.contains, holds.lockUntil]
    rfl
  obtain ⟨u, lockUntil, whole⟩ := fieldNumber_millisText holds.lockUntil holds.lockUntil_exact holds.lockUntil_lt
  cases op with
  | insert | update =>
    simp only [run, present, if_true, lockUntil, lt_whole (serverTime_whole timely) whole, decide_eq_true_eq]
  | unlock | extend => cases acquisition

theorem agrees_acquisition (op : Operation) (acquisition : op.isAcquisition = true)
    (timely : 0 ≤ d.now.epochMillis) (holds : Holds fields l) :
    Agrees (run op ⟨millis (op.duration d.config), d.holder, d.config.name⟩ d.now fields) op d (some l) := by
  rw [run_acquisition op acquisition _ timely holds]
  have fresh := holds_freshFields fields timely
  by_cases live : Reckoning.millis.reading d.now < l.lockUntil
  · rw [if_pos live]
    have unexpired := Nat.not_le.mpr live
    cases op with
    | insert | update => exact agrees_of_refused (by simp [Operation.applies, unexpired]) holds
    | unlock | extend => cases acquisition
  · rw [if_neg live]
    have expired := Nat.not_lt.mp live
    cases op with
    | insert | update => exact agrees_of_applied (by simp [Operation.applies, expired]) fresh
    | unlock | extend => cases acquisition

theorem agrees_unlock (timely : 0 ≤ d.now.epochMillis) (holds : Holds fields l) :
    Agrees (run .unlock ⟨millis d.config.atLeast, d.holder, d.config.name⟩ d.now fields) .unlock d (some l) := by
  have small := holds.lockedAt_lt
  obtain ⟨a, lockedAt, whole⟩ :=
    fieldNumber_millisText holds.lockedAt (nearest_of_lt (by omega)) (by omega)
  simp only [run, holds.lockedBy, Option.some.injEq, lockedAt]
  by_cases own : l.lockedBy = d.holder
  · rw [if_pos own]
    exact agrees_of_applied (decide_eq_true own) (holds_released holds timely whole)
  · rw [if_neg own]
    exact agrees_of_refused (decide_eq_false own) holds

theorem agrees_extend (timely : 0 ≤ d.now.epochMillis) (holds : Holds fields l) :
    Agrees (run .extend ⟨millis d.config.atMost, d.holder, d.config.name⟩ d.now fields) .extend d (some l) := by
  obtain ⟨u, lockUntil, whole⟩ := fieldNumber_millisText holds.lockUntil holds.lockUntil_exact holds.lockUntil_lt
  simp only [run, holds.lockedBy, Option.some.injEq, lockUntil, le_whole whole (serverTime_whole timely),
    decide_eq_true_eq]
  by_cases own : l.lockedBy = d.holder
  · rw [if_pos own]
    by_cases live : Reckoning.millis.reading d.now < l.lockUntil
    · rw [if_neg (Nat.not_le.mpr live)]
      exact agrees_of_applied (by simp [Operation.applies, own, live]) (holds_renewed holds timely)
    · rw [if_pos (Nat.not_lt.mp live)]
      exact agrees_of_refused (by simp [Operation.applies, live]) holds
  · rw [if_neg own]
    exact agrees_of_refused (by simp [Operation.applies, own]) holds

/-- A script on a hash that shows a lease, or none, does to that lease what its operation does. -/
theorem agrees_run (op : Operation) (timely : 0 ≤ d.now.epochMillis) (shows : Shows fields found) :
    Agrees (run op ⟨millis (op.duration d.config), d.holder, d.config.name⟩ d.now fields) op d found := by
  cases found with
  | none =>
    cases shows
    cases op with
    | insert => exact ⟨rfl, holds_freshFields ∅ timely⟩
    | update | unlock | extend => exact ⟨rfl, rfl⟩
  | some l =>
    have holds : Holds fields l := shows
    cases op with
    | insert | update => exact agrees_acquisition _ rfl timely holds
    | unlock => exact agrees_unlock timely holds
    | extend => exact agrees_extend timely holds

/-! ## The server -/

theorem Client.key_injective (c : Client) {a b : String} (same : c.key a = c.key b) : a = b := by
  have characters := congrArg String.toList same
  simp only [Client.key, String.toList_append, List.append_cancel_left_eq, String.toList_inj] at characters
  exact characters

namespace Server

variable (c : Client) {server : Server} {now : Instant} {op : Operation} {config : LockConfig} {name : String}

/-- The fields of a lock's hash. -/
def fieldsOf (server : Server) (name : String) : Fields := (server.hashes.get? (c.key name)).getD ∅

/-- The hash of a lock shows a lease or none. -/
def Readable (server : Server) (name : String) : Prop :=
  Shows (fieldsOf c server name) (leaseOf (fieldsOf c server name))

variable {c}

theorem fieldsOf_perform (holder : String) :
    fieldsOf c (server.perform c holder now op config).2 config.name =
      (run op ⟨millis (op.duration config), holder, config.name⟩ now (fieldsOf c server config.name)).2 := by
  simp only [perform, reply, Client.command, fieldsOf]
  split
  all_goals
    split
    · rename_i same
      exact same.symm
    · simp

theorem fieldsOf_perform_of_ne (holder : String) (other : config.name ≠ name) :
    fieldsOf c (server.perform c holder now op config).2 name = fieldsOf c server name := by
  have keys : c.key config.name ≠ c.key name := fun same => other (c.key_injective same)
  simp only [perform, reply, Client.command, fieldsOf]
  split
  all_goals
    split
    · rfl
    · rw [Table.get?_insert_of_ne _ _ keys]

theorem perform_answer (holder : String) {n : Nat}
    (answered : (run op ⟨millis (op.duration config), holder, config.name⟩ now
      (fieldsOf c server config.name)).1 = .ok n) :
    (server.perform c holder now op config).1 = .ok (decide (n = 1)) := by
  simp only [fieldsOf] at answered
  have one : (n : Int) = 1 ↔ n = 1 := by omega
  simp only [perform, reply, Client.command, answered, Reply.toApplied, Reply.fault?, one]

/-- A hash that is missing shows no lease. -/
theorem readable_of_no_hash (none : server.hashes.get? (c.key name) = none) : Readable c server name := by
  rw [Readable, fieldsOf, none]
  rfl

end Server

end Redis

/-- Hashes on a server, reached by the clients of one deployment. -/
def LeaseStore.redis (c : Redis.Client) : LeaseStore Nat where
  State := Redis.Server
  clock := .millis
  reclaims _ := true
  Sound := Redis.Server.Readable c
  Keeps _ _ := True
  Timely now := 0 ≤ now.epochMillis
  perform a server := server.perform c a.holder a.now a.op a.config
  lease server name := Redis.leaseOf (Redis.Server.fieldsOf c server name)
  reclaims_of_insertReclaims _ := rfl
  sound_perform := by
    intro a server name readable timely
    rw [Redis.Server.Readable]
    by_cases same : a.config.name = name
    · subst same
      have next := (Redis.agrees_run a.op timely readable).2
      rw [Redis.Server.fieldsOf_perform, Redis.leaseOf_of_shows next]
      exact next
    · rw [Redis.Server.fieldsOf_perform_of_ne a.holder same]
      exact readable
  keeps_perform := Iff.rfl
  perform_kept := by
    intro a server readable timely _
    rw [Redis.Server.perform_answer a.holder (Redis.agrees_run a.op timely readable).1]
    split <;> simp [*]
  lease_perform_kept := by
    intro a server readable timely _
    rw [Redis.Server.fieldsOf_perform]
    exact Redis.leaseOf_of_shows (Redis.agrees_run a.op timely readable).2
  perform_not_kept not_kept := absurd trivial not_kept
  lease_perform_of_ne := by
    intro a server name other
    rw [Redis.Server.fieldsOf_perform_of_ne a.holder other]

end TaskLease

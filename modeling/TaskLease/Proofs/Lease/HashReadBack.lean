import TaskLease.Proofs.Lease.HashStore
import TaskLease.Proofs.Lease.LastWrite
import TaskLease.Proofs.Lease.RecordStores
import TaskLease.Proofs.Time.WholeMillis

/-!
# Reading hashes back

The scripts write times as numbers of milliseconds, and whoever looks up a record reads them as instants. A duration
is cut to 2⁵³ milliseconds before a script adds it to the server's time, which keeps the sum a number that can be
written, but not one that there is an instant for: those end at `latestMillis`, which is less. So a lookup fails from
the write of a longer lease on, until the next write takes its place.

`ReadsBack` says when a lookup succeeds and what it finds then, and `hashes_read_back` that this is so after every
run from an empty server on.
-/

namespace TaskLease

/-- An instant from the epoch to the end of the year 9999. -/
def Instant.IsModern (t : Instant) : Prop := 0 ≤ t.epochMillis ∧ t.epochMillis < 253402300800000

instance (t : Instant) : Decidable t.IsModern := inferInstanceAs (Decidable (_ ∧ _))

namespace Redis

/-- The last millisecond after the epoch that there is an instant for. -/
def latestMillis : Nat := 8210266876799999

/-- What a lookup fails with if the end of a lease is no instant. -/
def unreadable : StoreFault := .serialization "invalid 'lock_until' in lock record"

/-! ## Numbers and instants -/

variable {n : Nat} {fields : Fields} {field : String}

theorem ofEpochMillis?_of_le (within : n ≤ latestMillis) :
    ∃ t, Instant.ofEpochMillis? n = some t ∧ t.epochMillis = n ∧ t.IsMillis := by
  simp only [latestMillis] at within
  have range : (-8334601228800 ≤ (n : Int) / 1000 ∧ (n : Int) / 1000 ≤ 8210266876799) ∧
      ((n : Int) % 1000).toNat * 1000000 < 2000000000 ∧
      (1000000000 ≤ ((n : Int) % 1000).toNat * 1000000 → (n : Int) / 1000 % 60 = 59) := by omega
  let t : Instant := ⟨(n : Int) / 1000, ((n : Int) % 1000).toNat * 1000000, range.1.1, range.1.2, range.2.1, range.2.2⟩
  have read : Instant.ofEpochMillis? n = some t := by rw [Instant.ofEpochMillis?, Instant.mk?, dif_pos range]
  have millis : t.epochMillis = n := by
    simp only [t, Instant.epochMillis]
    omega
  exact ⟨t, read, millis, by rw [millis]; exact Int.natCast_nonneg n, by rw [millis]; exact read⟩

theorem ofEpochMillis?_eq_none (beyond : latestMillis < n) : Instant.ofEpochMillis? n = none := by
  simp only [latestMillis] at beyond
  rw [Instant.ofEpochMillis?, Instant.mk?, dif_neg]
  omega

/-- A number in a field is read as an instant, if there is one. -/
theorem instantOf_of_le (text : fields.get? field = some (millisText n)) (within : n ≤ latestMillis) :
    ∃ t, instantOf fields field = .ok t ∧ t.epochMillis = n ∧ t.IsMillis := by
  obtain ⟨t, read, millis, whole⟩ := ofEpochMillis?_of_le within
  have small : n < 0x40000000000000 := by
    simp only [latestMillis] at within
    omega
  refine ⟨t, ?_, millis, whole⟩
  rw [instantOf, text, Option.bind_some, readInteger_millisText small, Option.bind_some, read]

theorem instantOf_of_lt (text : fields.get? field = some (millisText n)) (small : n < 0x40000000000000)
    (beyond : latestMillis < n) :
    instantOf fields field = .error (.serialization s!"invalid '{field}' in lock record") := by
  rw [instantOf, text, Option.bind_some, readInteger_millisText small, Option.bind_some, ofEpochMillis?_eq_none beyond]

/-! ## Sums -/

/-- A sum that is rounded is no earlier than the time it began with. -/
theorem le_plus {t : Nat} (small : t < 0x1FFFFFFFFFFFFF) (d : Duration) : t ≤ Reckoning.millis.plus t d := by
  simp only [Reckoning.millis, Binary64.nearest]
  have half := Binary64.roundQuotient_two (t + millis d)
  split <;> omega

/-- Rounding does not carry a sum over the last millisecond, in either direction. -/
theorem plus_le_latestMillis_iff (t : Nat) (d : Duration) :
    Reckoning.millis.plus t d ≤ latestMillis ↔ t + millis d ≤ latestMillis := by
  simp only [Reckoning.millis, Binary64.nearest, latestMillis]
  have half := Binary64.roundQuotient_two (t + millis d)
  split <;> omega

/-- The sum of a time and a duration that the last write of a lease has formed: a release adds the minimum time to
when the lease began, and what begins a lease adds the maximum time. -/
def sumOf (begun written : Access) : Nat :=
  Reckoning.millis.reading begun.now +
    if written.op = .unlock then millis written.config.atLeast else millis begun.config.atMost

variable {c : Client} {begun written : Access}

theorem reading_le_latestMillis {t : Instant} (modern : t.IsModern) :
    Reckoning.millis.reading t ≤ latestMillis := by
  have upper := modern.2
  simp only [Reckoning.millis, latestMillis]
  omega

theorem endOf_le_latestMillis_iff (c : Client) (begun : Access) (modern : written.now.IsModern) :
    (LeaseStore.redis c).endOf begun written ≤ latestMillis ↔ sumOf begun written ≤ latestMillis := by
  have now := reading_le_latestMillis modern
  unfold LeaseStore.endOf sumOf
  by_cases releases : written.op = .unlock
  · rw [if_pos releases, if_pos releases, ← plus_le_latestMillis_iff]
    exact (max_le_iff (α := Nat)).trans (and_iff_right now)
  · rw [if_neg releases, if_neg releases]
    exact plus_le_latestMillis_iff _ _

/-- A lease does not end before it began. -/
theorem le_endOf (begun written : Access) :
    Reckoning.millis.reading begun.now ≤ (LeaseStore.redis c).endOf begun written := by
  have sum := le_plus (reading_lt begun.now)
  unfold LeaseStore.endOf
  by_cases releases : written.op = .unlock
  · rw [if_pos releases]
    exact (sum written.config.atLeast).trans (le_max_right (α := Nat) _ _)
  · rw [if_neg releases]
    exact sum begun.config.atMost

/-! ## Lookups -/

variable {server : Server} {name : String} {l : StoredLease Nat}

theorem find_of_missing (shows : Shows (Server.fieldsOf c server name) none) : server.find c name = .ok none := by
  have nothing : Server.fieldsOf c server name = ∅ := shows
  rw [Server.find, ← Server.fieldsOf, nothing]
  rfl

theorem find_of_holds (holds : Holds (Server.fieldsOf c server name) l) :
    server.find c name = (recordOf name (Server.fieldsOf c server name)).map some := by
  have present : (Server.fieldsOf c server name).entries.isEmpty = false := by
    have name := holds.name
    unfold Table.get? at name
    cases entries : (Server.fieldsOf c server _).entries with
    | nil =>
      rw [entries] at name
      cases name
    | cons _ _ => rfl
  rw [Server.find, ← Server.fieldsOf]
  simp only [Reply.toRecord, Reply.fault?, present]
  rfl

/-- A lease whose times are instants is read back. -/
theorem find_of_le (holds : Holds (Server.fieldsOf c server name) l) (begun : l.lockedAt ≤ latestMillis)
    (ends : l.lockUntil ≤ latestMillis) :
    ∃ r, server.find c name = .ok (some r) ∧ r.name = l.name ∧ r.lockedBy = l.lockedBy ∧
      r.lockedAt.epochMillis = l.lockedAt ∧ (l.lockedAt ≤ l.lockUntil → r.lockedAt ≤ r.lockUntil) := by
  obtain ⟨since, lockedAt, since_millis, since_whole⟩ := instantOf_of_le holds.lockedAt begun
  obtain ⟨last, lockUntil, last_millis, last_whole⟩ := instantOf_of_le holds.lockUntil ends
  refine ⟨⟨l.name, last, since, l.lockedBy⟩, ?_, rfl, rfl, since_millis, ?_⟩
  · rw [find_of_holds holds, recordOf, lockUntil, lockedAt, holds.lockedBy, holds.name]
    rfl
  · intro order
    rw [since_whole.le_iff last_whole, since_millis, last_millis]
    exact Int.ofNat_le.mpr order

/-- A lease whose end is no instant is not. -/
theorem find_of_lt (holds : Holds (Server.fieldsOf c server name) l) (beyond : latestMillis < l.lockUntil) :
    server.find c name = .error unreadable := by
  rw [find_of_holds holds, recordOf, instantOf_of_lt holds.lockUntil holds.lockUntil_lt beyond]
  rfl

/-! ## Runs -/

/-- What a lookup finds after a run from an empty server on. -/
def lookup (c : Client) (name : String) (accesses : List Access) : Except StoreFault (Option LockRecord) :=
  ((LeaseStore.redis c).run accesses .empty).find c name

/-- The last access of such a run that acquired the lock. -/
def lastAcquired (c : Client) (name : String) (accesses : List Access) : Option Access :=
  (LeaseStore.redis c).lastOf ((LeaseStore.redis c).acquires name) accesses Server.empty

/-- The last one that began its lease: it acquired the lock or renewed its lease. -/
def lastBegun (c : Client) (name : String) (accesses : List Access) : Option Access :=
  (LeaseStore.redis c).lastOf ((LeaseStore.redis c).begins name) accesses Server.empty

/-- The last one that was applied. -/
def lastWritten (c : Client) (name : String) (accesses : List Access) : Option Access :=
  (LeaseStore.redis c).lastOf ((LeaseStore.redis c).writes name) accesses Server.empty

/-- A lookup after a run finds what the run has written, as far as there are instants for it. -/
structure ReadsBack (c : Client) (name : String) (accesses : List Access) : Prop where
  /-- There is no record as long as nobody has acquired the lock. -/
  missing : lookup c name accesses = .ok none ↔ lastAcquired c name accesses = none
  /-- From then on there is one, unless the last sum was none that there is an instant for. -/
  present : ∀ acquired, lastAcquired c name accesses = some acquired →
    ∃ begun written, lastBegun c name accesses = some begun ∧ lastWritten c name accesses = some written ∧
      (sumOf begun written ≤ latestMillis → ∃ r, lookup c name accesses = .ok (some r) ∧ r.name = name ∧
        r.lockedBy = acquired.holder ∧ r.lockedAt.epochMillis = begun.now.epochMillis ∧ r.lockedAt ≤ r.lockUntil) ∧
      (latestMillis < sumOf begun written → lookup c name accesses = .error unreadable)
  /-- With durations of at most 252139 years every lookup succeeds. -/
  short : (∀ a ∈ accesses, a.config.name = name → a.config.atMost.millis ≤ 7956864576000000) →
    ∃ found, lookup c name accesses = .ok found

theorem millis_le_of_short {d : Duration} (short : d.millis ≤ 7956864576000000) : millis d ≤ 7956864576000000 :=
  (Nat.min_le_left ..).trans short

theorem sumOf_le_latestMillis (modern : begun.now.IsModern) (first : begun.config.atMost.millis ≤ 7956864576000000)
    (last : written.config.atMost.millis ≤ 7956864576000000) : sumOf begun written ≤ latestMillis := by
  have most := millis_le_of_short first
  have least : millis written.config.atLeast ≤ 7956864576000000 := by
    have order := written.config.atLeast_le_atMost
    rw [Duration.le_def] at order
    refine millis_le_of_short (Nat.le_trans ?_ last)
    simp only [Duration.millis]
    omega
  have upper := modern.2
  simp only [sumOf, Reckoning.millis, latestMillis]
  split <;> omega

theorem readsBack_of_missing {accesses : List Access}
    (missing : lookup c name accesses = .ok none) (acquired : lastAcquired c name accesses = none) :
    ReadsBack c name accesses where
  missing := iff_of_true missing acquired
  present _ this := by
    rw [acquired] at this
    cases this
  short _ := ⟨none, missing⟩

theorem possible_of_modern {accesses : List Access} (modern : ∀ a ∈ accesses, a.now.IsModern) :
    (LeaseStore.redis c).Possible name accesses Server.empty :=
  ⟨rfl, fun a member => (modern a member).1⟩

end Redis

/-- Whoever writes to an empty hash server, with server times from the epoch to the end of the year 9999: a lookup
finds the lease of the last acquisition, begun when it was acquired or last renewed, unless the last sum of a time and
a duration was beyond the last instant. Then it fails. -/
theorem hashes_read_back (c : Redis.Client) (name : String) (accesses : List Access)
    (modern : ∀ a ∈ accesses, a.now.IsModern) : Redis.ReadsBack c name accesses := by
  have possible : (LeaseStore.redis c).Possible name accesses Redis.Server.empty :=
    Redis.possible_of_modern modern
  have left := LeaseStore.lease_of_run possible rfl
  have shows : Redis.Shows (Redis.Server.fieldsOf c ((LeaseStore.redis c).run accesses Redis.Server.empty) name)
      ((LeaseStore.redis c).leftBy name accesses Redis.Server.empty) := by
    rw [← left]
    have whole : (LeaseStore.redis c).Possible name (accesses ++ []) Redis.Server.empty := by
      rwa [List.append_nil]
    exact whole.run.sound
  cases outcome : (LeaseStore.redis c).leftBy name accesses Redis.Server.empty with
  | none =>
    rw [outcome] at shows
    exact Redis.readsBack_of_missing (Redis.find_of_missing shows) (LeaseStore.leftBy_eq_none_iff.mp outcome)
  | some l =>
    rw [outcome] at shows
    obtain ⟨acquired, begun, written, first, second, third, rfl⟩ := LeaseStore.leftBy_eq_some.mp outcome
    obtain ⟨begins, _, begun_met⟩ := LeaseStore.mem_of_lastOf second
    obtain ⟨writes, _, written_met⟩ := LeaseStore.mem_of_lastOf third
    have ends := Redis.endOf_le_latestMillis_iff c begun (modern written writes)
    have since := Redis.reading_le_latestMillis (modern begun begins)
    have read (within : Redis.sumOf begun written ≤ Redis.latestMillis) :=
      Redis.find_of_le shows since (ends.mpr within)
    have unread (beyond : Redis.latestMillis < Redis.sumOf begun written) :=
      Redis.find_of_lt shows (Nat.lt_of_not_le fun within => absurd (ends.mp within) (Nat.not_le.mpr beyond))
    refine ⟨iff_of_false ?_ ?_, ?_, ?_⟩
    · intro missing
      rcases Nat.lt_or_ge Redis.latestMillis (Redis.sumOf begun written) with beyond | within
      · cases missing.symm.trans (unread beyond)
      · obtain ⟨r, found, -⟩ := read within
        cases missing.symm.trans found
    · intro missing
      cases missing.symm.trans first
    · intro a this
      cases first.symm.trans this
      refine ⟨begun, written, second, third, fun within => ?_, unread⟩
      obtain ⟨r, found, named, holder, lockedAt, order⟩ := read within
      refine ⟨r, found, named, holder, lockedAt.trans ?_, order (Redis.le_endOf begun written)⟩
      exact Int.toNat_of_nonneg (modern begun begins).1
    · intro short
      have begun_named := (LeaseStore.writes_iff.mp ((Bool.and_eq_true ..).mp begun_met).2).1
      have written_named := (LeaseStore.writes_iff.mp written_met).1
      obtain ⟨r, found, -⟩ := read (Redis.sumOf_le_latestMillis (modern begun begins)
        (short begun begins begun_named) (short written writes written_named))
      exact ⟨some r, found⟩

/-- A lease is renewed and released, and somebody else takes the lock over as soon as its minimum time is up. -/
def Redis.takeover : List Access :=
  let access (holder : String) (op : Operation) (second : Nat) : Access :=
    { holder, config := .nightly, now := Instant.epoch.add (.ofSeconds second), strategy := .atomicProcedure, op }
  [access "a" .insert 0, access "a" .extend 30, access "a" .unlock 32, access "b" .insert 33, access "b" .update 35]

theorem hashes_read_back_takeover :
    let second (n : Nat) : Instant := Instant.epoch.add (.ofSeconds n)
    (∀ a ∈ Redis.takeover, a.now.IsModern) ∧ Redis.ReadsBack ⟨"lock", "test"⟩ "backup" Redis.takeover ∧
      Redis.lookup ⟨"lock", "test"⟩ "backup" Redis.takeover = .ok (some ⟨"backup", second 95, second 35, "b"⟩) := by
  have modern : ∀ a ∈ Redis.takeover, a.now.IsModern := by decide +kernel
  exact ⟨modern, hashes_read_back _ _ _ modern, by decide +kernel⟩

/-- A lock that is acquired for as long as can be asked for has no record that could be read, on a hash server. In
memory its lease ends at the last instant. -/
theorem endless_lease_unreadable :
    let endless : LockConfig := ⟨"backup", .ofSeconds 0xFFFFFFFFFFFFFFFF, .zero, by decide, by decide, by decide⟩
    let access : Access := { holder := "a", config := endless, now := .epoch, strategy := .atomicProcedure, op := .insert }
    access.now.IsModern ∧ Redis.lastAcquired ⟨"lock", "test"⟩ "backup" [access] = some access ∧
      Redis.lookup ⟨"lock", "test"⟩ "backup" [access] = .error Redis.unreadable ∧
      RecordStore.memory.find (RecordStore.memory.run [access] (∅ : Records)) "backup" =
        .ok (some ⟨"backup", .max, .epoch, "a"⟩) := by
  decide +kernel

end TaskLease

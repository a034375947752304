import TaskLease.Proofs.Lease.HashStore
import TaskLease.Proofs.Lease.RecordStores
import TaskLease.Proofs.Time.WholeMillis
import TaskLease.Store.Backend

/-!
# Hashes that mirror records in memory

As long as all times are whole milliseconds, and no sum runs into the last instant, a hash server answers
like records in memory. `Mirrors` relates the two: each hash shows the record of its name, in milliseconds.
`perform_mirrors` is the step. It goes by way of the lease: what an operation does to one in milliseconds is
what it does to one with instants (`applies_inMillis`, `after_inMillis`), and the scripts do the former.

Only sums that are formed count, so what a call asks for may be anything if the call is refused.
-/

namespace TaskLease

/-! ## Leases in milliseconds -/

namespace StoredLease

/-- A lease reckoned in milliseconds. -/
def inMillis (l : StoredLease Instant) : StoredLease Nat :=
  ⟨l.name, Reckoning.millis.reading l.lockUntil, Reckoning.millis.reading l.lockedAt, l.lockedBy⟩

/-- A lease whose times are whole milliseconds. -/
structure IsMillis (l : StoredLease Instant) : Prop where
  lockUntil : l.lockUntil.IsMillis
  lockedAt : l.lockedAt.IsMillis

end StoredLease

namespace Operation

/-- The time that an operation adds its duration to, where it applies. -/
def base (op : Operation) (d : Demand) (found : Option (StoredLease Instant)) : Instant :=
  match op with
  | .unlock => (found.map StoredLease.lockedAt).getD d.now
  | .insert | .update | .extend => d.now

/-- An operation that reckons in whole milliseconds only, and forms no sum behind the last instant. -/
structure InMillis (op : Operation) (d : Demand) (found : Option (StoredLease Instant)) : Prop where
  now : d.now.IsMillis
  duration : op.applies .instants d true found = true → (op.duration d.config).IsMillis
  sum : op.applies .instants d true found = true →
    (op.base d found).ticks + (op.duration d.config).nanos ≤ Instant.max.ticks

instance (op : Operation) (d : Demand) (found : Option (StoredLease Instant)) : Decidable (op.InMillis d found) :=
  decidable_of_iff
    (d.now.IsMillis ∧ (op.applies .instants d true found = true → (op.duration d.config).IsMillis) ∧
      (op.applies .instants d true found = true →
        (op.base d found).ticks + (op.duration d.config).nanos ≤ Instant.max.ticks))
    ⟨fun ⟨now, duration, sum⟩ => ⟨now, duration, sum⟩, fun ⟨now, duration, sum⟩ => ⟨now, duration, sum⟩⟩

end Operation

section

variable {a b t : Instant} {e : Duration}

theorem reading_le (first : a.IsMillis) (second : b.IsMillis) :
    Reckoning.millis.reading a ≤ Reckoning.millis.reading b ↔ a ≤ b := by
  have positive := first.1
  have positive' := second.1
  rw [first.le_iff second]
  simp only [Reckoning.millis]
  omega

theorem reading_lt_reading (first : a.IsMillis) (second : b.IsMillis) :
    Reckoning.millis.reading a < Reckoning.millis.reading b ↔ a < b := by
  rw [← not_le, ← not_le, reading_le second first]

theorem reading_max (first : a.IsMillis) (second : b.IsMillis) :
    Reckoning.millis.reading (max a b) = max (Reckoning.millis.reading a) (Reckoning.millis.reading b) := by
  rcases le_total a b with le | le
  · rw [max_eq_right le, max_eq_right ((reading_le first second).mpr le)]
  · rw [max_eq_left le, max_eq_left ((reading_le second first).mpr le)]

theorem isMillis_max (first : a.IsMillis) (second : b.IsMillis) : (max a b).IsMillis := by
  rcases max_choice a b with same | same
  · rwa [same]
  · rwa [same]

theorem reading_add (whole : t.IsMillis) (duration : e.IsMillis) (fits : t.ticks + e.nanos ≤ Instant.max.ticks) :
    Reckoning.millis.plus (Reckoning.millis.reading t) e = Reckoning.millis.reading (t.add e) := by
  have sum := (whole.add duration fits).2
  have positive := whole.1
  have small : Reckoning.millis.reading t + e.millis < 0x20000000000000 := whole.sum_lt duration fits
  rw [Redis.plus_millis small]
  simp only [Reckoning.millis, sum]
  omega

variable {op : Operation} {d : Demand} {found : Option (StoredLease Instant)}

/-- An operation applies to a lease in milliseconds if it applies to the lease. -/
theorem applies_inMillis (op : Operation) (now : d.now.IsMillis) (whole : ∀ l ∈ found, l.IsMillis) :
    op.applies .millis d true (found.map StoredLease.inMillis) = op.applies .instants d true found := by
  cases found with
  | none => cases op <;> rfl
  | some l =>
    have lockUntil := (whole l rfl).lockUntil
    have expired : l.inMillis.lockUntil ≤ Reckoning.millis.reading d.now ↔ l.lockUntil ≤ d.now :=
      reading_le lockUntil now
    have live : Reckoning.millis.reading d.now < l.inMillis.lockUntil ↔ d.now < l.lockUntil :=
      reading_lt_reading now lockUntil
    cases op with
    | insert | update => simp only [Operation.applies, Option.map_some, expired]; rfl
    | unlock => rfl
    | extend => simp only [Operation.applies, Option.map_some, live]; rfl

theorem freshLease_inMillis (now : d.now.IsMillis) (length : d.config.atMost.IsMillis)
    (fits : d.now.ticks + d.config.atMost.nanos ≤ Instant.max.ticks) :
    d.freshLease .millis = (d.freshLease .instants).inMillis ∧ (d.freshLease .instants).IsMillis := by
  refine ⟨?_, (now.add length fits).1, now⟩
  rw [Demand.freshLease, reading_add now length fits]
  rfl

theorem renewedLease_inMillis (l : StoredLease Instant) (now : d.now.IsMillis) (length : d.config.atMost.IsMillis)
    (fits : d.now.ticks + d.config.atMost.nanos ≤ Instant.max.ticks) :
    d.renewedLease .millis l.inMillis = (d.renewedLease .instants l).inMillis ∧
      (d.renewedLease .instants l).IsMillis := by
  refine ⟨?_, (now.add length fits).1, now⟩
  rw [Demand.renewedLease, reading_add now length fits]
  rfl

theorem releasedLease_inMillis {l : StoredLease Instant} (now : d.now.IsMillis) (lockedAt : l.lockedAt.IsMillis)
    (length : d.config.atLeast.IsMillis) (fits : l.lockedAt.ticks + d.config.atLeast.nanos ≤ Instant.max.ticks) :
    d.releasedLease .millis l.inMillis = (d.releasedLease .instants l).inMillis ∧
      (d.releasedLease .instants l).IsMillis := by
  have least := (lockedAt.add length fits).1
  have sum : Reckoning.millis.plus l.inMillis.lockedAt d.config.atLeast =
      Reckoning.millis.reading (l.lockedAt.add d.config.atLeast) := reading_add lockedAt length fits
  refine ⟨?_, isMillis_max now least, lockedAt⟩
  rw [Demand.releasedLease, sum, ← reading_max now least]
  rfl

/-- What an operation writes where it applies is in whole milliseconds, and in milliseconds the same. -/
theorem written_inMillis (inMillis : op.InMillis d found) (whole : ∀ l ∈ found, l.IsMillis)
    (applied : op.applies .instants d true found = true) :
    op.written .millis d (found.map StoredLease.inMillis) = (op.written .instants d found).map StoredLease.inMillis ∧
      ∀ l ∈ op.written .instants d found, l.IsMillis := by
  have now := inMillis.now
  have length := inMillis.duration applied
  have fits := inMillis.sum applied
  cases op with
  | insert | update =>
    obtain ⟨same, fresh⟩ := freshLease_inMillis now length fits
    exact ⟨congrArg some same, fun _ member => Option.some.inj member ▸ fresh⟩
  | unlock =>
    cases found with
    | none => cases applied
    | some l =>
      obtain ⟨same, released⟩ := releasedLease_inMillis now (whole l rfl).lockedAt length fits
      exact ⟨congrArg some same, fun _ member => Option.some.inj member ▸ released⟩
  | extend =>
    cases found with
    | none => cases applied
    | some l =>
      obtain ⟨same, renewed⟩ := renewedLease_inMillis l now length fits
      exact ⟨congrArg some same, fun _ member => Option.some.inj member ▸ renewed⟩

/-- What an operation leaves is in whole milliseconds, and in milliseconds the same. -/
theorem after_inMillis (inMillis : op.InMillis d found) (whole : ∀ l ∈ found, l.IsMillis) :
    op.after .millis d true (found.map StoredLease.inMillis) =
        (op.after .instants d true found).map StoredLease.inMillis ∧
      ∀ l ∈ op.after .instants d true found, l.IsMillis := by
  rw [Operation.after, Operation.after, applies_inMillis op inMillis.now whole]
  cases applied : op.applies .instants d true found with
  | true => exact written_inMillis inMillis whole applied
  | false => exact ⟨rfl, whole⟩

end

/-! ## One operation -/

namespace Redis

/-- Each hash shows the record of its name, and the times of all records are whole milliseconds. -/
structure Mirrors (c : Client) (server : Server) (records : Records) : Prop where
  shows : ∀ name,
    Shows (Server.fieldsOf c server name) ((LeaseStore.memory.lease records name).map StoredLease.inMillis)
  whole : ∀ name, ∀ l ∈ LeaseStore.memory.lease records name, l.IsMillis

variable {c : Client} {server : Server} {records : Records} {op : Operation} {d : Demand} {name : String}

theorem mirrors_empty (c : Client) : Mirrors c .empty ∅ where
  shows _ := rfl
  whole _ l member := by cases member

/-- An operation is answered by a server as in memory, and the server still mirrors the records. -/
theorem perform_mirrors (mirrors : Mirrors c server records)
    (inMillis : op.InMillis d (LeaseStore.memory.lease records d.config.name)) :
    (server.perform c d.holder d.now op d.config).1 = .ok (records.perform .atomicProcedure op d).1 ∧
      Mirrors c (server.perform c d.holder d.now op d.config).2 (records.perform .atomicProcedure op d).2 := by
  let a : Access := { d with strategy := .atomicProcedure, op }
  let next := (records.perform .atomicProcedure op d).2
  have whole := mirrors.whole d.config.name
  have answer : Except.ok (records.perform .atomicProcedure op d).1 =
      Except.ok (op.applies .instants d true (LeaseStore.memory.lease records d.config.name)) :=
    LeaseStore.memory.perform_kept (a := a) (s := records) trivial trivial trivial
  have lease : LeaseStore.memory.lease next d.config.name =
      op.after .instants d true (LeaseStore.memory.lease records d.config.name) :=
    LeaseStore.memory.lease_perform_kept (a := a) (s := records) trivial trivial trivial
  have other {name : String} (ne : d.config.name ≠ name) :
      LeaseStore.memory.lease next name = LeaseStore.memory.lease records name :=
    LeaseStore.memory.lease_perform_of_ne (a := a) (s := records) ne
  obtain ⟨answered, shows⟩ := agrees_run op inMillis.now.1 (mirrors.shows d.config.name)
  obtain ⟨same, left⟩ := after_inMillis inMillis whole
  refine ⟨?_, ?_, ?_⟩
  · rw [Server.perform_answer d.holder answered, applies_inMillis op inMillis.now whole, answer]
    cases op.applies .instants d true (LeaseStore.memory.lease records d.config.name) <;> rfl
  · intro name
    by_cases mine : d.config.name = name
    · subst mine
      rw [Server.fieldsOf_perform, lease, ← same]
      exact shows
    · rw [Server.fieldsOf_perform_of_ne d.holder mine, other mine]
      exact mirrors.shows name
  · intro name
    by_cases mine : d.config.name = name
    · subst mine
      rw [lease]
      exact left
    · rw [other mine]
      exact mirrors.whole name

theorem instantOf_millisText {fields : Fields} {field : String} {t : Instant} (whole : t.IsMillis)
    (text : fields.get? field = some (millisText (Reckoning.millis.reading t))) : instantOf fields field = .ok t := by
  have small := reading_lt t
  have back : ((Reckoning.millis.reading t : Nat) : Int) = t.epochMillis := Int.toNat_of_nonneg whole.1
  rw [instantOf, text, Option.bind_some, readInteger_millisText (by omega), Option.bind_some, back, whole.2]

/-- The record in the fields that stand for a lease of whole milliseconds. -/
theorem recordOf_holds {fields : Fields} {r : LockRecord} (whole : r.lease.IsMillis)
    (holds : Holds fields r.lease.inMillis) (name : String) : recordOf name fields = .ok r := by
  have lockUntil := instantOf_millisText whole.lockUntil holds.lockUntil
  have lockedAt := instantOf_millisText whole.lockedAt holds.lockedAt
  rw [recordOf, lockUntil, lockedAt, holds.lockedBy, holds.name]
  rfl

/-- A lookup is answered by a server as in memory. -/
theorem find_mirrors (mirrors : Mirrors c server records) (name : String) :
    server.find c name = .ok (Table.get? (α := LockRecord) records name) := by
  have shows := mirrors.shows name
  have whole := mirrors.whole name
  change Shows _ (((Table.get? records name).map LockRecord.lease).map StoredLease.inMillis) at shows
  change ∀ l ∈ (Table.get? records name).map LockRecord.lease, l.IsMillis at whole
  rw [Server.find, ← Server.fieldsOf]
  cases found : Table.get? records name with
  | none =>
    rw [found] at shows
    have nothing : Server.fieldsOf c server name = ∅ := shows
    rw [nothing]
    rfl
  | some r =>
    rw [found] at shows whole
    have holds : Holds (Server.fieldsOf c server name) r.lease.inMillis := shows
    have present : (Server.fieldsOf c server name).entries.isEmpty = false := by
      have name := holds.name
      unfold Table.get? at name
      cases entries : (Server.fieldsOf c server _).entries with
      | nil =>
        rw [entries] at name
        cases name
      | cons _ _ => rfl
    simp only [Reply.toRecord, Reply.fault?, present]
    rw [recordOf_holds (whole r.lease rfl) holds]
    rfl

end Redis

/-! ## Any sequence of calls -/

namespace Backend

/-- A call of a store. -/
inductive Call where
  | perform (op : Operation) (d : Demand)
  | find (name : String) (now : Instant)
deriving DecidableEq, Repr

/-- What a store answers to a call. -/
inductive Answer where
  | performed (answer : Except StoreFault Bool)
  | found (answer : Except StoreFault (Option LockRecord))
deriving DecidableEq

/-- One call: the answer, and the store afterwards. -/
def call (b : Backend) : Call → Answer × Backend
  | .perform op d =>
    let reply := b.perform d.holder d.now op d.config
    (.performed reply.1, reply.2)
  | .find name now =>
    let reply := b.find now name
    (.found reply.1, reply.2)

/-- The answers to some calls. -/
def answers : List Call → Backend → List Answer
  | [], _ => []
  | c :: rest, b => (b.call c).1 :: answers rest (b.call c).2

/-- Calls that reckon in whole milliseconds only and form no sum behind the last instant, made one after the
other on records in memory. -/
def InMillis : List Call → Records → Prop
  | [], _ => True
  | .find _ _ :: rest, records => InMillis rest records
  | .perform op d :: rest, records =>
    op.InMillis d (LeaseStore.memory.lease records d.config.name) ∧
      InMillis rest (records.perform .atomicProcedure op d).2

instance decidableInMillis : (calls : List Call) → (records : Records) → Decidable (InMillis calls records)
  | [], _ => .isTrue trivial
  | .find _ _ :: rest, records => decidableInMillis rest records
  | .perform op d :: rest, records =>
    have := decidableInMillis rest (records.perform .atomicProcedure op d).2
    inferInstanceAs (Decidable (_ ∧ _))

variable {c : Redis.Client} {server : Redis.Server} {records : Records} {wire : Redis.Wire}

/-- A client whose connection has no other replies queued gets those of the server. -/
theorem perform_redis (c : Redis.Client) (server : Redis.Server) (idle : wire.replies = []) (op : Operation)
    (d : Demand) :
    ∃ wire' : Redis.Wire, wire'.replies = [] ∧
      (Backend.redis c server wire).call (.perform op d) =
        (.performed (server.perform c d.holder d.now op d.config).1,
          .redis c (server.perform c d.holder d.now op d.config).2 wire') := by
  refine ⟨{ wire with sent := wire.sent ++ [c.command d.holder op d.config] }, idle, ?_⟩
  simp only [call, perform, Wire.exchange, idle]
  rfl

theorem find_redis (c : Redis.Client) (server : Redis.Server) (idle : wire.replies = []) (name : String)
    (now : Instant) :
    ∃ wire' : Redis.Wire, wire'.replies = [] ∧
      (Backend.redis c server wire).call (.find name now) =
        (.found (server.find c name), .redis c server wire') := by
  refine ⟨{ wire with sent := wire.sent ++ [.readAll (c.key name)] }, idle, ?_⟩
  simp only [call, find, Wire.exchange, idle]
  rfl

/-- A server that mirrors some records answers like them. -/
theorem answers_mirrors {calls : List Call} (mirrors : Redis.Mirrors c server records) (idle : wire.replies = [])
    (inMillis : InMillis calls records) :
    answers calls (.redis c server wire) = answers calls (.memory .atomicProcedure records) := by
  induction calls generalizing server records wire with
  | nil => rfl
  | cons first rest ih =>
    cases first with
    | perform op d =>
      obtain ⟨now, later⟩ := inMillis
      obtain ⟨wire', idle', sent⟩ := perform_redis c server idle op d
      obtain ⟨answer, mirrors'⟩ := Redis.perform_mirrors mirrors now
      rw [answers, answers, sent, answer, ih mirrors' idle' later]
      rfl
    | find name now =>
      obtain ⟨wire', idle', sent⟩ := find_redis c server idle name now
      rw [answers, answers, sent, Redis.find_mirrors mirrors name, ih mirrors idle' inMillis]
      rfl

end Backend

/-- Whoever calls a hash server, and in whatever order: from an empty server on, all operations and lookups are
answered as those of records in memory are, if the calls reckon in whole milliseconds and no sum runs into the
last instant. -/
theorem scripts_mirror_memory (c : Redis.Client) (calls : List Backend.Call) (inMillis : Backend.InMillis calls ∅) :
    Backend.answers calls (.redis c .empty {}) = Backend.answers calls (.memory .atomicProcedure ∅) :=
  Backend.answers_mirrors (Redis.mirrors_empty c) rfl inMillis

/-- A lease that is renewed, expires, and is taken over by somebody else, who releases it. -/
def Backend.handover : List Backend.Call :=
  let second (n : Nat) : Instant := Instant.epoch.add (.ofSeconds n)
  [.perform .update ⟨"a", .nightly, second 0⟩, .perform .insert ⟨"a", .nightly, second 0⟩,
    .perform .extend ⟨"a", .nightly, second 30⟩, .perform .insert ⟨"b", .nightly, second 60⟩,
    .find "backup" (second 60), .perform .update ⟨"b", .nightly, second 90⟩,
    .perform .unlock ⟨"a", .nightly, second 91⟩, .perform .unlock ⟨"b", .nightly, second 91⟩,
    .find "backup" (second 91), .find "restore" (second 91)]

/-- The answers to a handover, from hashes and from memory. -/
theorem scripts_mirror_memory_handover :
    let second (n : Nat) : Instant := Instant.epoch.add (.ofSeconds n)
    Backend.answers Backend.handover (.redis ⟨"lock", "test"⟩ .empty {}) =
        Backend.answers Backend.handover (.memory .atomicProcedure ∅) ∧
      Backend.answers Backend.handover (.memory .atomicProcedure ∅) =
        [.performed (.ok false), .performed (.ok true), .performed (.ok true), .performed (.ok false),
          .found (.ok (some ⟨"backup", second 90, second 30, "a"⟩)), .performed (.ok true),
          .performed (.ok false), .performed (.ok true),
          .found (.ok (some ⟨"backup", second 95, second 90, "b"⟩)), .found (.ok none)] := by
  intro second
  exact ⟨scripts_mirror_memory ⟨"lock", "test"⟩ Backend.handover (by decide +kernel), by decide +kernel⟩

end TaskLease

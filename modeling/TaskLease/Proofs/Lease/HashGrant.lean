import TaskLease.Proofs.Lease.Deployments
import TaskLease.Proofs.Time.WholeMillis

/-!
# What hash servers grant

Three units meet in a script: durations are asked for in nanoseconds, the server's time is read in microseconds, and the
fields of a hash are milliseconds. Both are cut down to milliseconds before they are added, so a lease counts from the
script's own now and lasts for the whole milliseconds of what was asked. `Grant` and `Release` say what that comes to,
and `hashes_grant_millis` that it is so in every state that a server can get into, whoever its clients are.

A lease that was asked for in less than a millisecond is over when it begins.
-/

namespace TaskLease

namespace Redis

/-- A request at a time that the clock of a server can show. -/
def Ask.Timely : Ask → Prop
  | .write a => 0 ≤ a.now.epochMillis
  | .lookUp _ => True

instance : DecidablePred Ask.Timely := fun ask =>
  match ask with
  | .write a => inferInstanceAs (Decidable (0 ≤ a.now.epochMillis))
  | .lookUp _ => isTrue trivial

/-- A thousand years, even if all of them were leap years. -/
def millennium : Duration := .ofSeconds (1000 * 366 * 86400)

/-! ## States that a server can get into -/

/-- A hash shows a lease that began at an instant, or none. -/
structure Dated (fields : Fields) (found : Option (StoredLease Nat)) : Prop where
  shows : Shows fields found
  lockedAt : ∀ l, found = some l → ∃ t : Instant, l.lockedAt = Reckoning.millis.reading t

theorem lockedAt_after {τ : Type} [LinearOrder τ] {r : Reckoning τ} {op : Operation} {d : Demand} {reclaims : Bool}
    {found : Option (StoredLease τ)} {l : StoredLease τ} (left : op.after r d reclaims found = some l) :
    l.lockedAt = r.reading d.now ∨ ∃ before, found = some before ∧ l.lockedAt = before.lockedAt := by
  unfold Operation.after at left
  split at left
  · cases op with
    | insert | update =>
      cases left
      exact .inl rfl
    | unlock =>
      obtain ⟨before, there, rfl⟩ := Option.map_eq_some_iff.mp left
      exact .inr ⟨before, there, rfl⟩
    | extend =>
      obtain ⟨before, there, rfl⟩ := Option.map_eq_some_iff.mp left
      exact .inl rfl
  · exact .inr ⟨l, left, rfl⟩

variable {c : Client} {server : Server} {a : Access} {fields : Fields} {found : Option (StoredLease Nat)}
  {l : StoredLease Nat} {name : String}

theorem Dated.run {d : Demand} (dated : Dated fields found) (op : Operation) (timely : 0 ≤ d.now.epochMillis) :
    Dated (run op ⟨millis (op.duration d.config), d.holder, d.config.name⟩ d.now fields).2
      (op.after .millis d true found) where
  shows := (agrees_run op timely dated.shows).2
  lockedAt l left := by
    rcases lockedAt_after left with now | ⟨before, there, same⟩
    · exact ⟨d.now, now⟩
    · obtain ⟨t, since⟩ := dated.lockedAt before there
      exact ⟨t, same.trans since⟩

/-- A request leaves every hash with a lease that began at an instant, or none. -/
theorem Dated.serve {r : Request} (timely : r.ask.Timely)
    (dated : ∀ (c : Client) (name : String), ∃ found, Dated (Server.fieldsOf c server name) found) :
    ∀ (c : Client) (name : String), ∃ found, Dated (Server.fieldsOf c (server.serve r).2 name) found := by
  obtain ⟨client, ask⟩ := r
  intro c name
  cases ask with
  | lookUp config => exact dated c name
  | write a =>
    by_cases same : client.key a.config.name = c.key name
    · obtain ⟨found, before⟩ := dated client a.config.name
      have own : Server.fieldsOf c (server.serve ⟨client, .write a⟩).2 name =
          Server.fieldsOf client (server.serve ⟨client, .write a⟩).2 a.config.name := by
        rw [Server.fieldsOf, Server.fieldsOf, same]
      rw [own]
      simp only [Server.serve, Server.fieldsOf_perform]
      exact ⟨_, before.run (d := a.toDemand) a.op timely⟩
    · simp only [Server.serve, fieldsOf_perform_of_key_ne same]
      exact dated c name

theorem dated_after {requests : List Request} (timely : ∀ r ∈ requests, r.ask.Timely)
    (dated : ∀ (c : Client) (name : String), ∃ found, Dated (Server.fieldsOf c server name) found) :
    ∀ (c : Client) (name : String), ∃ found, Dated (Server.fieldsOf c (server.after requests) name) found := by
  induction requests generalizing server with
  | nil => exact dated
  | cons r rest ih =>
    have later := fun r member => timely r (List.mem_cons_of_mem _ member)
    exact ih later (Dated.serve (timely r List.mem_cons_self) dated)

/-! ## What a lease lasts -/

/-- A lease that an access has begun or renewed. Times of the server are milliseconds, durations nanoseconds. -/
structure Grant (c : Client) (a : Access) (server : Server) (ends : Nat) : Prop where
  stored : (Server.fieldsOf c (server.perform c a.holder a.now a.op a.config).2 a.config.name).get? "lock_until" =
    some (millisText ends)
  /-- The lease never lasts longer than what was asked, and falls short of it by less than a millisecond. -/
  within : ends * 1000000 ≤ Reckoning.millis.reading a.now * 1000000 + a.config.atMost.nanos ∧
    Reckoning.millis.reading a.now * 1000000 + a.config.atMost.nanos < (ends + 1) * 1000000
  /-- It lasts as long as was asked exactly if that is a whole number of milliseconds. -/
  full : Reckoning.millis.reading a.now * 1000000 + a.config.atMost.nanos ≤ ends * 1000000 ↔ a.config.atMost.IsMillis
  /-- It is live when it begins exactly if that is a millisecond or more. -/
  live : Reckoning.millis.reading a.now < ends ↔ 1000000 ≤ a.config.atMost.nanos
  /-- Then nobody else acquires the lock at the same time of the server. Otherwise everybody does. -/
  rivals : ∀ b : Access, b.op.isAcquisition = true → b.config.name = a.config.name →
    b.now.epochMillis = a.now.epochMillis →
    ((server.perform c a.holder a.now a.op a.config).2.perform c b.holder b.now b.op b.config).1 =
      .ok (decide (a.config.atMost.nanos < 1000000))

/-- A lease that its owner has released, and that began at `since`. -/
structure Release (c : Client) (a : Access) (server : Server) (since ends : Nat) : Prop where
  begun : (Server.fieldsOf c server a.config.name).get? "locked_at" = some (millisText since)
  stored : (Server.fieldsOf c (server.perform c a.holder a.now a.op a.config).2 a.config.name).get? "lock_until" =
    some (millisText ends)
  /-- It does not end before it was released. -/
  now_le : Reckoning.millis.reading a.now ≤ ends
  /-- It falls short of the minimum time by less than a millisecond. -/
  within : since * 1000000 + a.config.atLeast.nanos < (ends + 1) * 1000000
  /-- It lasts for the minimum time exactly if that is a whole number of milliseconds, or is over anyway. -/
  full : since * 1000000 + a.config.atLeast.nanos ≤ ends * 1000000 ↔
    a.config.atLeast.IsMillis ∨ since * 1000000 + a.config.atLeast.nanos ≤ Reckoning.millis.reading a.now * 1000000

/-- No sum of an instant and a duration of up to a thousand years is rounded. -/
theorem plus_of_short (t : Instant) {d : Duration} (short : d ≤ millennium) :
    Reckoning.millis.plus (Reckoning.millis.reading t) d = Reckoning.millis.reading t + d.millis := by
  have upper := t.le_maxSecs
  have nanos := t.nanos_lt
  have bound : d.nanos ≤ 31622400000 * 1000000000 := short
  refine plus_millis ?_
  simp only [Reckoning.millis, Instant.epochMillis, Duration.millis]
  omega

/-- The lease after an access that begins or renews one. -/
theorem exists_begun (dated : Dated (Server.fieldsOf c server a.config.name) found) (timely : 0 ≤ a.now.epochMillis)
    (begins : a.op ≠ .unlock) (applied : (server.perform c a.holder a.now a.op a.config).1 = .ok true) :
    ∃ l, Dated (Server.fieldsOf c (server.perform c a.holder a.now a.op a.config).2 a.config.name) (some l) ∧
      l.lockUntil = Reckoning.millis.plus (Reckoning.millis.reading a.now) a.config.atMost := by
  have next := dated.run (d := a.toDemand) a.op timely
  obtain ⟨answer, -⟩ := agrees_run (d := a.toDemand) a.op timely dated.shows
  rw [Server.perform_answer a.holder answer] at applied
  cases applies : a.op.applies .millis a.toDemand true found with
  | false =>
    rw [applies] at applied
    cases applied
  | true =>
    rw [Operation.after, applies, if_pos rfl, ← Server.fieldsOf_perform] at next
    cases op : a.op with
    | insert | update =>
      rw [op] at next
      exact ⟨_, next, rfl⟩
    | unlock => exact absurd op begins
    | extend =>
      rw [op] at next applies
      cases found with
      | none => cases applies
      | some before => exact ⟨_, next, rfl⟩

theorem grant_of_begun (dated : Dated (Server.fieldsOf c server a.config.name) found) (timely : 0 ≤ a.now.epochMillis)
    (short : a.config.atMost ≤ millennium) (begins : a.op ≠ .unlock)
    (applied : (server.perform c a.holder a.now a.op a.config).1 = .ok true) : ∃ ends, Grant c a server ends := by
  obtain ⟨l, next, ends⟩ := exists_begun dated timely begins applied
  rw [plus_of_short a.now short] at ends
  have holds : Holds _ l := next.shows
  refine ⟨l.lockUntil, holds.lockUntil, ?_, ?_, ?_, ?_⟩
  · rw [ends, Duration.millis]
    omega
  · rw [ends, Duration.millis, Duration.IsMillis]
    omega
  · rw [ends, Duration.millis]
    omega
  · intro b acquisition named same_time
    have later : 0 ≤ b.now.epochMillis := timely.trans_eq same_time.symm
    have reading : Reckoning.millis.reading b.now = Reckoning.millis.reading a.now := congrArg Int.toNat same_time
    rw [← named] at next
    obtain ⟨answer, -⟩ := agrees_run (d := b.toDemand) b.op later next.shows
    have ended : l.lockUntil ≤ Reckoning.millis.reading b.now ↔ a.config.atMost.nanos < 1000000 := by
      rw [reading, ends, Duration.millis]
      omega
    rw [Server.perform_answer b.holder answer]
    cases op : b.op with
    | insert | update =>
      simp only [Operation.applies, ended, Bool.true_and]
      by_cases brief : a.config.atMost.nanos < 1000000 <;> simp [brief]
    | unlock | extend =>
      rw [op] at acquisition
      cases acquisition

theorem release_of_own (dated : Dated (Server.fieldsOf c server a.config.name) found) (timely : 0 ≤ a.now.epochMillis)
    (short : a.config.atMost ≤ millennium) (releases : a.op = .unlock)
    (own : (Server.fieldsOf c server a.config.name).get? "locked_by" = some a.holder) :
    (server.perform c a.holder a.now a.op a.config).1 = .ok true ∧ ∃ since ends, Release c a server since ends := by
  obtain ⟨answer, shows⟩ := agrees_run (d := a.toDemand) a.op timely dated.shows
  rw [Server.perform_answer a.holder answer]
  rw [← Server.fieldsOf_perform] at shows
  cases found with
  | none =>
    have nothing : Server.fieldsOf c server a.config.name = ∅ := dated.shows
    rw [nothing] at own
    cases own
  | some l =>
    have holds : Holds _ l := dated.shows
    have owner : l.lockedBy = a.holder := Option.some.inj (holds.lockedBy.symm.trans own)
    have applies : a.op.applies .millis a.toDemand true (some l) = true := by
      rw [releases]
      exact decide_eq_true owner
    obtain ⟨t, since⟩ := dated.lockedAt l rfl
    have least : a.config.atLeast ≤ millennium := Nat.le_trans a.config.atLeast_le_atMost short
    have written : a.op.written .millis a.toDemand (some l) = some (a.releasedLease .millis l) := by
      rw [releases]
      rfl
    rw [Operation.after, applies, if_pos rfl, written] at shows
    have left : Holds _ (a.releasedLease .millis l) := shows
    have ends : (a.releasedLease .millis l).lockUntil =
        max (Reckoning.millis.reading a.now) (l.lockedAt + a.config.atLeast.millis) := by
      rw [Demand.releasedLease, since, plus_of_short t least]
    refine ⟨by simp [applies], l.lockedAt, _, holds.lockedAt, left.lockUntil, ?_, ?_, ?_⟩
    · rw [ends]
      exact Nat.le_max_left ..
    · rw [ends, Duration.millis]
      omega
    · rw [ends, Duration.millis, Duration.IsMillis]
      omega

end Redis

/-- In every state that the clients of a hash server can bring it into, with server times from the epoch on, and for
durations of up to a thousand years: a lease that is begun or renewed lasts for the whole milliseconds of what was
asked, counted from the script's own now, and an owner's release leaves it for the whole milliseconds of its minimum
time. -/
theorem hashes_grant_millis (requests : List Redis.Request) (c : Redis.Client) (a : Access)
    (timely : ∀ r ∈ ⟨c, .write a⟩ :: requests, r.ask.Timely) (short : a.config.atMost ≤ Redis.millennium) :
    let server := Redis.Server.after requests .empty
    (a.op ≠ .unlock → (server.perform c a.holder a.now a.op a.config).1 = .ok true →
      ∃ ends, Redis.Grant c a server ends) ∧
    (a.op = .unlock → (Redis.Server.fieldsOf c server a.config.name).get? "locked_by" = some a.holder →
      (server.perform c a.holder a.now a.op a.config).1 = .ok true ∧
        ∃ since ends, Redis.Release c a server since ends) := by
  intro server
  have now : 0 ≤ a.now.epochMillis := timely _ List.mem_cons_self
  have before : ∀ r ∈ requests, r.ask.Timely := fun r member => timely r (List.mem_cons_of_mem _ member)
  have missing (c : Redis.Client) (name : String) : ∃ found, Redis.Dated (Redis.Server.fieldsOf c .empty name) found :=
    ⟨none, rfl, fun l nothing => by cases nothing⟩
  obtain ⟨found, dated⟩ := Redis.dated_after before missing c a.config.name
  exact ⟨Redis.grant_of_begun dated now short, Redis.release_of_own dated now short⟩

/-- A lease is renewed half a millisecond into a millisecond, for a millisecond and a half. -/
theorem hashes_grant_millis_renewed :
    let c : Redis.Client := ⟨"lock", "test"⟩
    let asked : LockConfig := ⟨"backup", ⟨1500000⟩, ⟨1200000⟩, by decide, by decide, by decide⟩
    let access (op : Operation) (nanos : Nat) : Access :=
      { holder := "a", config := asked, now := Instant.epoch.add ⟨nanos⟩, strategy := .atomicProcedure, op }
    let requests : List Redis.Request := [⟨c, .write (access .insert 0)⟩]
    (∀ r ∈ ⟨c, .write (access .extend 500000)⟩ :: requests, r.ask.Timely) ∧ asked.atMost ≤ Redis.millennium ∧
      ∃ ends, Redis.Grant c (access .extend 500000) (Redis.Server.after requests .empty) ends := by
  intro c asked access requests
  have timely : ∀ r ∈ ⟨c, .write (access .extend 500000)⟩ :: requests, r.ask.Timely := by decide +kernel
  have short : asked.atMost ≤ Redis.millennium := by decide
  have begun := (hashes_grant_millis requests c (access .extend 500000) timely short).1
  exact ⟨timely, short, begun (by decide) (by decide +kernel)⟩

/-- A lock that is asked for in less than a millisecond goes to everybody who asks at the same time, and a minimum time
of a millisecond and a half is over after one millisecond. -/
theorem brief_lease_granted_twice :
    let c : Redis.Client := ⟨"lock", "test"⟩
    let access (op : Operation) (holder : String) (nanos : Nat) : Access :=
      { holder, config := ⟨"backup", ⟨nanos⟩, ⟨nanos⟩, by decide, by decide, Nat.le_refl nanos⟩, now := .epoch,
        strategy := .atomicProcedure, op }
    let served (requests : List Access) : Redis.Server :=
      Redis.Server.after (requests.map fun a => ⟨c, .write a⟩) .empty
    let lockUntil (server : Redis.Server) : Option String := (Redis.Server.fieldsOf c server "backup").get? "lock_until"
    Redis.Server.answersTo c [⟨c, .write (access .insert "a" 500000)⟩, ⟨c, .write (access .insert "b" 500000)⟩] .empty =
        [.written (.ok true), .written (.ok true)] ∧
      lockUntil (served [access .insert "a" 500000]) = some "0" ∧
      lockUntil (served [access .insert "a" 1500000]) = some "1" ∧
      lockUntil (served [access .insert "a" 1500000, access .unlock "a" 1500000]) = some "1" := by
  decide +kernel

end TaskLease

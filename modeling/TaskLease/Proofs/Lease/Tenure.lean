import TaskLease.Proofs.Lease.HashStore
import TaskLease.Proofs.Lease.RecordStores

/-!
# One holder at a time

A run is any number of accesses to one store, by any holders in any order. The successful acquisitions of a
name cut it into tenures: each begins when its holder acquires the lock, and ends when the next one begins,
or with the run. What the store keeps at its end is the last lease of the tenure.

- `Exclusive.expired`: the last lease of a tenure has expired when a later tenure begins, so the periods
  for which leases were given are disjoint.
- `Exclusive.holder` and `Exclusive.changes`: during a tenure the lease stays that of its holder, and
  nothing but that holder's releases and renewals changes it.

An unlock does not ask whether the lease is still live, and may move the end of an expired one. It can do
so only before the next acquisition, which looks at the end as it is then.
-/

namespace TaskLease

/-- The time of a lock from one acquisition to the next. -/
structure Tenure (τ : Type) where
  /-- The identity of the holder that acquired the lock. -/
  holder : String
  /-- When it was acquired, by the clock of the store. -/
  start : τ
  /-- What the store keeps of the lock when the next acquisition happens, or at the end of the run. -/
  last : Option (StoredLease τ)

/-- Whether a time lies in the period for which a tenure's lease was given in the end. -/
def Tenure.Covers {τ : Type} [LinearOrder τ] (t : Tenure τ) (time : τ) : Prop :=
  t.start ≤ time ∧ ∃ l, t.last = some l ∧ time < l.lockUntil

namespace LeaseStore

variable {τ : Type} [LinearOrder τ] (store : LeaseStore τ) (name : String)

/-- The lease kept under a name when the next acquisition happens, or at the end. -/
def lastLease : List Access → store.State → Option (StoredLease τ)
  | [], s => store.lease s name
  | a :: rest, s =>
    if store.acquires name a s then store.lease s name else lastLease rest (store.perform a s).2

/-- The tenures of a name in a run, the first one first. -/
def tenures : List Access → store.State → List (Tenure τ)
  | [], _ => []
  | a :: rest, s =>
    let next := (store.perform a s).2
    if store.acquires name a s then
      ⟨a.holder, store.clock.reading a.now, store.lastLease name rest next⟩ :: tenures rest next
    else tenures rest next

/-- The identity that was the last to acquire a name. -/
def owner (accesses : List Access) (s : store.State) : Option String :=
  (store.tenures name accesses s).getLast?.map Tenure.holder

/-- What holds of the leases of a name in a run. -/
structure Exclusive (accesses : List Access) (s : store.State) : Prop where
  /-- Every tenure ends with a lease, which is its holder's. -/
  owned : ∀ t ∈ store.tenures name accesses s, ∃ l, t.last = some l ∧ l.lockedBy = t.holder
  /-- That lease has expired when any later tenure begins. -/
  expired : (store.tenures name accesses s).Pairwise fun t later =>
    ∀ l, t.last = some l → l.lockUntil ≤ later.start
  /-- No time lies in the periods of two tenures. -/
  disjoint : (store.tenures name accesses s).Pairwise fun t later =>
    ∀ time, ¬ (t.Covers time ∧ later.Covers time)
  /-- After any part of the run the lease is that of the last acquisition's holder. -/
  holder : ∀ before after, accesses = before ++ after → ∀ identity, store.owner name before s = some identity →
    ∃ l, store.lease (store.run before s) name = some l ∧ l.lockedBy = identity
  /-- An access that acquires nothing changes nothing, or is a release or a renewal by that holder. A
  release moves the end of the lease, a renewal also its beginning. -/
  changes : ∀ before a after, accesses = before ++ a :: after →
    store.acquires name a (store.run before s) = false → ∀ identity, store.owner name before s = some identity →
    store.lease (store.run (before ++ [a]) s) name = store.lease (store.run before s) name ∨
      a.config.name = name ∧ a.holder = identity ∧ ∃ l lockUntil,
        store.lease (store.run before s) name = some l ∧
        ((a.op = .unlock ∧
            store.lease (store.run (before ++ [a]) s) name = some { l with lockUntil }) ∨
          (a.op = .extend ∧
            store.lease (store.run (before ++ [a]) s) name =
              some { l with lockUntil, lockedAt := store.clock.reading a.now }))

variable {store name} {a : Access} {accesses : List Access} {s : store.State} {l : StoredLease τ}

/-! ## Owners -/

theorem owner_cons_of_acquires (acquired : store.acquires name a s = true) :
    store.owner name (a :: accesses) s = (store.owner name accesses (store.perform a s).2).or (some a.holder) := by
  simp only [owner, tenures, acquired, if_true]
  cases store.tenures name accesses (store.perform a s).2 with
  | nil => rfl
  | cons t rest => simp [List.getLast?_cons]

theorem owner_cons_of_not_acquires (not_acquired : store.acquires name a s = false) :
    store.owner name (a :: accesses) s = store.owner name accesses (store.perform a s).2 := by
  simp only [owner, tenures, not_acquired, Bool.false_eq_true, if_false]

/-- Nobody becomes the owner of a lease but by an acquisition. -/
theorem lockedBy_of_not_acquires (sound : store.Sound s name) (timely : store.Timely a.now)
    (not_acquired : store.acquires name a s = false) (found : store.lease s name = some l) :
    ∃ next, store.lease (store.perform a s).2 name = some next ∧ next.lockedBy = l.lockedBy := by
  rcases lease_of_not_acquires sound timely not_acquired with
    same | ⟨own, found', -, -, ⟨-, next⟩ | ⟨-, next⟩⟩
  · exact ⟨l, same.trans found, rfl⟩
  · cases found.symm.trans found'
    exact ⟨_, next, rfl⟩
  · cases found.symm.trans found'
    exact ⟨_, next, rfl⟩

/-- A lease that is there is that of the last acquisition's holder, or else still that of its first one. -/
theorem lockedBy_run (possible : store.Possible name accesses s) (found : store.lease s name = some l) :
    ∃ last, store.lease (store.run accesses s) name = some last ∧
      last.lockedBy = (store.owner name accesses s).getD l.lockedBy := by
  induction accesses generalizing s l with
  | nil => exact ⟨l, found, rfl⟩
  | cons a rest ih =>
    cases acquired : store.acquires name a s with
    | true =>
      have fresh := (lease_of_acquires possible.sound possible.now acquired).2
      obtain ⟨last, kept, lockedBy⟩ := ih possible.next fresh
      refine ⟨last, kept, ?_⟩
      rw [owner_cons_of_acquires acquired, lockedBy]
      cases store.owner name rest (store.perform a s).2 <;> rfl
    | false =>
      obtain ⟨next, found', same⟩ := lockedBy_of_not_acquires possible.sound possible.now acquired found
      obtain ⟨last, kept, lockedBy⟩ := ih possible.next found'
      refine ⟨last, kept, ?_⟩
      rw [owner_cons_of_not_acquires acquired, lockedBy, same]

theorem lockedBy_owner (possible : store.Possible name accesses s) {identity : String}
    (owns : store.owner name accesses s = some identity) :
    ∃ l, store.lease (store.run accesses s) name = some l ∧ l.lockedBy = identity := by
  induction accesses generalizing s with
  | nil => cases owns
  | cons a rest ih =>
    cases acquired : store.acquires name a s with
    | true =>
      have fresh := (lease_of_acquires possible.sound possible.now acquired).2
      obtain ⟨last, kept, lockedBy⟩ := lockedBy_run possible.next fresh
      refine ⟨last, kept, ?_⟩
      rw [owner_cons_of_acquires acquired] at owns
      rw [lockedBy]
      cases current : store.owner name rest (store.perform a s).2 with
      | none | some other =>
        rw [current] at owns
        exact Option.some.inj owns
    | false =>
      rw [owner_cons_of_not_acquires acquired] at owns
      exact ih possible.next owns

/-! ## Tenures -/

theorem mem_tenures_cons {t : Tenure τ} (member : t ∈ store.tenures name (a :: accesses) s) :
    (store.acquires name a s = true ∧
        t = ⟨a.holder, store.clock.reading a.now, store.lastLease name accesses (store.perform a s).2⟩) ∨
      t ∈ store.tenures name accesses (store.perform a s).2 := by
  rw [tenures] at member
  cases acquired : store.acquires name a s with
  | true =>
    simp only [acquired, if_true, List.mem_cons] at member
    exact member.imp_left fun first => ⟨rfl, first⟩
  | false =>
    simp only [acquired, Bool.false_eq_true, if_false] at member
    exact .inr member

theorem lockedBy_lastLease (possible : store.Possible name accesses s) (found : store.lease s name = some l) :
    ∃ last, store.lastLease name accesses s = some last ∧ last.lockedBy = l.lockedBy := by
  induction accesses generalizing s l with
  | nil => exact ⟨l, found, rfl⟩
  | cons a rest ih =>
    cases acquired : store.acquires name a s with
    | true =>
      rw [lastLease, acquired]
      exact ⟨l, found, rfl⟩
    | false =>
      obtain ⟨next, found', same⟩ := lockedBy_of_not_acquires possible.sound possible.now acquired found
      obtain ⟨last, kept, lockedBy⟩ := ih possible.next found'
      rw [lastLease, acquired]
      exact ⟨last, kept, lockedBy.trans same⟩

/-- A tenure begins with one of the accesses. -/
theorem exists_access_of_tenure {t : Tenure τ} (member : t ∈ store.tenures name accesses s) :
    ∃ a ∈ accesses, t.start = store.clock.reading a.now := by
  induction accesses generalizing s with
  | nil => cases member
  | cons a rest ih =>
    rcases mem_tenures_cons member with ⟨-, rfl⟩ | later
    · exact ⟨a, List.mem_cons_self, rfl⟩
    · obtain ⟨b, there, start⟩ := ih later
      exact ⟨b, List.mem_cons_of_mem a there, start⟩

/-- The lease that the next acquisition finds has expired when that one, or any later one, happens. -/
theorem lastLease_expired (possible : store.Possible name accesses s)
    (ordered : accesses.Pairwise fun a b => store.clock.reading a.now ≤ store.clock.reading b.now)
    {t : Tenure τ} (member : t ∈ store.tenures name accesses s) (last : store.lastLease name accesses s = some l) :
    l.lockUntil ≤ t.start := by
  induction accesses generalizing s with
  | nil => cases member
  | cons a rest ih =>
    rw [lastLease] at last
    cases acquired : store.acquires name a s with
    | true =>
      simp only [acquired, if_true] at last
      have expired := (lease_of_acquires possible.sound possible.now acquired).1 l last
      rcases mem_tenures_cons member with ⟨-, rfl⟩ | later
      · exact expired
      · obtain ⟨b, there, start⟩ := exists_access_of_tenure later
        rw [start]
        exact expired.trans (List.rel_of_pairwise_cons ordered there)
    | false =>
      simp only [acquired, Bool.false_eq_true, if_false] at last
      rcases mem_tenures_cons member with ⟨acquired', -⟩ | later
      · rw [acquired] at acquired'
        cases acquired'
      · exact ih possible.next ordered.of_cons later last

theorem tenures_owned (possible : store.Possible name accesses s) {t : Tenure τ}
    (member : t ∈ store.tenures name accesses s) : ∃ l, t.last = some l ∧ l.lockedBy = t.holder := by
  induction accesses generalizing s with
  | nil => cases member
  | cons a rest ih =>
    rcases mem_tenures_cons member with ⟨acquired, rfl⟩ | later
    · exact lockedBy_lastLease possible.next (lease_of_acquires possible.sound possible.now acquired).2
    · exact ih possible.next later

theorem tenures_expired (possible : store.Possible name accesses s)
    (ordered : accesses.Pairwise fun a b => store.clock.reading a.now ≤ store.clock.reading b.now) :
    (store.tenures name accesses s).Pairwise fun t later => ∀ l, t.last = some l → l.lockUntil ≤ later.start := by
  induction accesses generalizing s with
  | nil => exact .nil
  | cons a rest ih =>
    have behind := ih possible.next ordered.of_cons
    rw [tenures]
    cases acquired : store.acquires name a s with
    | true =>
      refine .cons ?_ behind
      intro t member l last
      exact lastLease_expired possible.next ordered.of_cons member last
    | false => exact behind

/-! ## The run -/

/-- In any run whose clock does not go back, leases exclude each other. -/
theorem exclusive (store : LeaseStore τ) {s : store.State} (possible : store.Possible name accesses s)
    (ordered : accesses.Pairwise fun a b => store.clock.reading a.now ≤ store.clock.reading b.now) :
    store.Exclusive name accesses s where
  owned t member := tenures_owned possible member
  expired := tenures_expired possible ordered
  disjoint := by
    refine (tenures_expired possible ordered).imp ?_
    rintro t later expired time ⟨⟨-, l, last, before⟩, start, -⟩
    have end_le := expired l last
    exact absurd (before.trans_le end_le) (not_lt.mpr start)
  holder := by
    rintro before after rfl identity owns
    exact lockedBy_owner possible.before owns
  changes := by
    rintro before a after rfl not_acquired identity owns
    obtain ⟨own, found, lockedBy⟩ := lockedBy_owner possible.before owns
    have here := possible.run
    have split : store.run (before ++ [a]) s = (store.perform a (store.run before s)).2 := run_append ..
    rw [split]
    rcases lease_of_not_acquires here.sound here.now not_acquired with
      same | ⟨l, found', named, own_access, change⟩
    · exact .inl same
    · cases found.symm.trans found'
      refine .inr ⟨named, own_access.trans lockedBy, own, ?_⟩
      rcases change with ⟨unlock, next⟩ | ⟨extend, next⟩
      · exact ⟨_, found, .inl ⟨unlock, next⟩⟩
      · exact ⟨_, found, .inr ⟨extend, next⟩⟩

end LeaseStore

/-- Leases exclude each other on every store: in memory from any records on, with any mix of strategies;
in files from a directory without record files; on a hash server whose clock is not before the epoch from a
server without hashes of locks. -/
theorem leases_exclude (name : String) (accesses : List Access) :
    (∀ records, (accesses.Pairwise fun a b => a.now ≤ b.now) →
      LeaseStore.memory.Exclusive name accesses records) ∧
    (∀ (s : FileStore) (tree : FileTree), (∀ lock, tree.content? (s.recordPath lock) = none) →
      (accesses.Pairwise fun a b => a.now ≤ b.now) → (LeaseStore.file s).Exclusive name accesses tree) ∧
    (∀ (c : Redis.Client) (server : Redis.Server), (∀ lock, server.hashes.get? (c.key lock) = none) →
      (∀ a ∈ accesses, 0 ≤ a.now.epochMillis) →
      (accesses.Pairwise fun a b => a.now.epochMillis ≤ b.now.epochMillis) →
      (LeaseStore.redis c).Exclusive name accesses server) := by
  refine ⟨?_, ?_, ?_⟩
  · intro records ordered
    exact LeaseStore.exclusive .memory ⟨trivial, fun _ _ => trivial⟩ ordered
  · intro s tree no_files ordered
    have readable := FileStore.readable_of_no_file (no_files name)
    exact LeaseStore.exclusive (.file s) ⟨readable, fun _ _ => trivial⟩ ordered
  · intro c server no_hashes timely ordered
    have readings : accesses.Pairwise fun a b =>
        Reckoning.millis.reading a.now ≤ Reckoning.millis.reading b.now :=
      ordered.imp fun order => Int.toNat_le_toNat order
    have readable := Redis.Server.readable_of_no_hash (no_hashes name)
    exact LeaseStore.exclusive (.redis c) ⟨readable, timely⟩ readings

/-- Two holders in turn: the second one is turned away, and gets the lock when the first one is done. -/
def handover : List Access :=
  let access (holder : String) (strategy : AcquireStrategy) (op : Operation) (seconds : Nat) : Access :=
    { holder, config := .nightly, now := Instant.epoch.add (.ofSeconds seconds), strategy, op }
  [access "first" .insertThenUpdate .insert 0, access "second" .atomicUpsert .insert 10,
    access "first" .insertThenUpdate .unlock 20, access "second" .insertThenUpdate .update 30]

/-- The handover has two tenures on all stores, and their leases exclude each other. -/
theorem leases_exclude_handover :
    (LeaseStore.memory.tenures "backup" handover (∅ : Records)).map Tenure.holder = ["first", "second"] ∧
      LeaseStore.memory.Exclusive "backup" handover (∅ : Records) ∧
      (LeaseStore.file ⟨[], ["locks"]⟩).Exclusive "backup" handover ⟨[["locks"]], ∅⟩ ∧
      ((LeaseStore.redis ⟨"lock", "test"⟩).tenures "backup" handover .empty).map Tenure.holder =
        ["first", "second"] ∧
      (LeaseStore.redis ⟨"lock", "test"⟩).Exclusive "backup" handover .empty := by
  obtain ⟨memory, file, redis⟩ := leases_exclude "backup" handover
  refine ⟨by decide +kernel, memory (∅ : Records) (by decide), ?_, by decide +kernel, ?_⟩
  · exact file ⟨[], ["locks"]⟩ ⟨[["locks"]], ∅⟩ (fun _ => rfl) (by decide)
  · exact redis ⟨"lock", "test"⟩ .empty (fun _ => rfl) (by decide) (by decide)

end TaskLease

import TaskLease.Proofs.Provider.Race

/-!
# Exactly one winner

The invariants of a race for one name, and what they say once all calls have come to an answer. Every call
does so after five phases of its own at most, whatever the others do meanwhile.

Calls for other names may take part in a race. They share the store and the registries, but touch neither
the lease of the name nor what registries know of it.
-/

namespace TaskLease

namespace Race

variable {τ : Type} [LinearOrder τ] {n : Nat} {r : Race τ n}

/-- Nobody has won the name yet, and the store keeps what was found there at first. -/
structure Open (r : Race τ n) (name : String) (found : Option (StoredLease τ))
    (s : RaceState n r.store.State) : Prop where
  sound : r.store.Sound s.store name
  keeps : r.store.Keeps s.store name
  lease : r.store.lease s.store name = found
  /-- Registries know the name only if there is a lease. -/
  known : ∀ provider, (s.registries provider).contains name = true → found.isSome = true
  pending : ∀ i, (r.call i).config.name = name → Pending (r.strategyOf i) found (s.attempts i)

/-- The store keeps a live lease of the name, and nobody but the winner, if there is one, has won. -/
structure Closed (r : Race τ n) (name : String) (l : StoredLease τ) (winner : Option (Fin n))
    (s : RaceState n r.store.State) : Prop where
  sound : r.store.Sound s.store name
  keeps : r.store.Keeps s.store name
  lease : r.store.lease s.store name = some l
  losing : ∀ i, (r.call i).config.name = name → some i ≠ winner → Losing (s.attempts i)
  winning : ∀ i, winner = some i → Winning (s.attempts i)

variable {name : String} {found : Option (StoredLease τ)} {l : StoredLease τ} {winner : Option (Fin n)}
  {s : RaceState n r.store.State} {registries : Nat → Registry} {store : r.store.State}

/-! ## One phase of a race -/

theorem attempts_step_of_ne {i j : Fin n} (other : j ≠ i) : (r.step s i).attempts j = s.attempts j :=
  Function.update_of_ne other ..

theorem attempts_step_self (i : Fin n) :
    (r.step s i).attempts i =
      ((s.attempts i).step (r.accessor i) (r.call i).config (s.registries (r.call i).provider) s.store).1 :=
  Function.update_self ..

theorem sound_race (timely : r.store.Timely r.now) (sound : r.store.Sound s.store name) (i : Fin n) :
    r.store.Sound (r.step s i).store name :=
  sound_step sound timely

theorem keeps_race (keeps : r.store.Keeps s.store name) (i : Fin n) : r.store.Keeps (r.step s i).store name :=
  keeps_step.mpr keeps

/-- What registries know of a name after a phase, if the registry of that phase's provider knows it only
where something holds. -/
theorem known_race {p : Prop} {i : Fin n}
    (known : ∀ provider, (s.registries provider).contains name = true → p)
    (mine : ((s.attempts i).step (r.accessor i) (r.call i).config (s.registries (r.call i).provider)
      s.store).2.1.contains name = true → p) :
    ∀ provider, ((r.step s i).registries provider).contains name = true → p := by
  intro provider knows
  by_cases same : provider = (r.call i).provider
  · subst same
    simp only [step, Function.update_self] at knows
    exact mine knows
  · simp only [step, Function.update_of_ne same] at knows
    exact known provider knows

/-- A phase leaves an open race open, or wins it. -/
theorem open_step (timely : r.store.Timely r.now)
    (expired : ∀ l, found = some l → l.lockUntil ≤ r.store.clock.reading r.now) (i : Fin n)
    (started : r.Open name found s) :
    r.Open name found (r.step s i) ∨
      ((r.call i).config.name = name ∧
        r.Closed name ((r.demand i).freshLease r.store.clock) (some i) (r.step s i)) := by
  obtain ⟨sound, keeps, lease, known, pending⟩ := started
  have sound' := sound_race timely sound i
  have keeps' := keeps_race keeps i
  by_cases same : (r.call i).config.name = name
  · subst same
    subst lease
    have phase := pending_step (r.holder (r.call i).provider) sound timely keeps expired
      (known (r.call i).provider) (pending i rfl)
    rcases phase with ⟨pending', known', lease'⟩ | ⟨won, fresh⟩
    · left
      refine ⟨sound', keeps', lease', known_race known known', ?_⟩
      intro j named
      by_cases mine : j = i
      · subst mine
        rw [attempts_step_self]
        exact pending'
      · rw [attempts_step_of_ne mine]
        exact pending j named
    · right
      refine ⟨rfl, sound', keeps', fresh, ?_, ?_⟩
      · intro j named other
        have mine : j ≠ i := fun same => other (congrArg some same)
        rw [attempts_step_of_ne mine]
        exact losing_of_pending (pending j named)
      · rintro j ⟨⟩
        rw [attempts_step_self]
        exact won
  · left
    obtain ⟨lease', registry⟩ := step_of_ne (r.strategyOf i) (r.holder (r.call i).provider) r.now (fun _ => none)
      (s.attempts i) (s.registries (r.call i).provider) s.store same
    refine ⟨sound', keeps', lease'.trans lease, known_race known ?_, ?_⟩
    · intro knows
      exact known _ (registry.symm.trans knows)
    · intro j named
      have mine : j ≠ i := by
        rintro rfl
        exact same named
      rw [attempts_step_of_ne mine]
      exact pending j named

/-- A closed race stays closed, and the lease stays as it is. -/
theorem closed_step (timely : r.store.Timely r.now) (live : r.store.clock.reading r.now < l.lockUntil)
    (i : Fin n) (decided : r.Closed name l winner s) : r.Closed name l winner (r.step s i) := by
  obtain ⟨sound, keeps, lease, losing, winning⟩ := decided
  have others {j : Fin n} (mine : j ≠ i) :
      ((r.call j).config.name = name → some j ≠ winner → Losing ((r.step s i).attempts j)) ∧
        (winner = some j → Winning ((r.step s i).attempts j)) := by
    rw [attempts_step_of_ne mine]
    exact ⟨losing j, winning j⟩
  by_cases wins : winner = some i
  · subst wins
    obtain ⟨won, same⟩ := winning_step (r.accessor i) (r.call i).config (s.registries (r.call i).provider) s.store
      (winning i rfl)
    have kept : r.store.lease (r.step s i).store name = some l :=
      (congrArg (r.store.lease · name) same).trans lease
    refine ⟨sound_race timely sound i, keeps_race keeps i, kept, ?_, ?_⟩
    · intro j named other
      have mine : j ≠ i := fun same => other (congrArg some same)
      exact (others mine).1 named other
    · rintro j ⟨⟩
      rw [attempts_step_self]
      exact won
  · have untouched : ∀ j, winner = some j → Winning ((r.step s i).attempts j) := by
      intro j this
      have mine : j ≠ i := by
        rintro rfl
        exact wins this
      exact (others mine).2 this
    by_cases same : (r.call i).config.name = name
    · subst same
      obtain ⟨lost, kept⟩ := losing_step (r.strategyOf i) (r.holder (r.call i).provider)
        (s.registries (r.call i).provider) sound timely keeps lease live (losing i rfl (Ne.symm wins))
      refine ⟨sound_race timely sound i, keeps_race keeps i, kept, ?_, untouched⟩
      intro j named other
      by_cases mine : j = i
      · subst mine
        rw [attempts_step_self]
        exact lost
      · exact (others mine).1 named other
    · obtain ⟨lease', -⟩ := step_of_ne (r.strategyOf i) (r.holder (r.call i).provider) r.now (fun _ => none)
        (s.attempts i) (s.registries (r.call i).provider) s.store same
      refine ⟨sound_race timely sound i, keeps_race keeps i, lease'.trans lease, ?_, untouched⟩
      intro j named other
      have mine : j ≠ i := by
        rintro rfl
        exact same named
      exact (others mine).1 named other

/-! ## The whole race -/

theorem closed_run (timely : r.store.Timely r.now) (live : r.store.clock.reading r.now < l.lockUntil)
    (decided : r.Closed name l winner s) (schedule : List (Fin n)) :
    r.Closed name l winner (r.run schedule s) := by
  induction schedule generalizing s with
  | nil => exact decided
  | cons i rest ih => exact ih (closed_step timely live i decided)

/-- A race that begins open stays open, or has one winner from some phase on. -/
theorem open_run (timely : r.store.Timely r.now)
    (expired : ∀ l, found = some l → l.lockUntil ≤ r.store.clock.reading r.now)
    (lasting : ∀ i, (r.call i).config.name = name →
      r.store.clock.reading r.now < ((r.demand i).freshLease r.store.clock).lockUntil)
    (started : r.Open name found s) (schedule : List (Fin n)) :
    r.Open name found (r.run schedule s) ∨
      ∃ i, (r.call i).config.name = name ∧
        r.Closed name ((r.demand i).freshLease r.store.clock) (some i) (r.run schedule s) := by
  induction schedule generalizing s with
  | nil => exact .inl started
  | cons i rest ih =>
    rcases open_step timely expired i started with still | ⟨named, won⟩
    · exact ih still
    · exact .inr ⟨i, named, closed_run timely (lasting i named) won rest⟩

theorem answer_of_losing {a : Attempt} {answer : Except StoreFault Bool} (losing : Losing a)
    (ended : a = .finished answer) : a = .finished (.ok false) := by
  subst ended
  exact congrArg Attempt.finished losing

theorem answer_of_winning {a : Attempt} {answer : Except StoreFault Bool} (winning : Winning a)
    (ended : a = .finished answer) : a = .finished (.ok true) := by
  subst ended
  rcases winning with early | won
  · cases early
  · exact won

/-- Where no lease is live, one of the calls wins. -/
theorem hasOneWinner (timely : r.store.Timely r.now) (sound : r.store.Sound store name)
    (keeps : r.store.Keeps store name)
    (expired : ∀ l, r.store.lease store name = some l → l.lockUntil ≤ r.store.clock.reading r.now)
    (known : ∀ provider, (registries provider).contains name = true → (r.store.lease store name).isSome = true)
    (called : ∃ i, (r.call i).config.name = name)
    (lasting : ∀ i, (r.call i).config.name = name →
      r.store.clock.reading r.now < ((r.demand i).freshLease r.store.clock).lockUntil) :
    r.HasOneWinner name (fun i => (r.demand i).freshLease r.store.clock) (r.start registries store) := by
  intro schedule settled
  have started : r.Open name (r.store.lease store name) (r.start registries store) :=
    ⟨sound, keeps, rfl, known, fun i _ => pending_first ..⟩
  rcases open_run timely expired lasting started schedule with still | ⟨i, named, decided⟩
  · -- An open race has no call that has come to its end.
    obtain ⟨i, named⟩ := called
    obtain ⟨answer, ended⟩ := settled i named
    have pending := still.pending i named
    rw [ended] at pending
    cases pending
  · refine ⟨i, named, ?_, decided.lease, ?_⟩
    · obtain ⟨answer, ended⟩ := settled i named
      exact answer_of_winning (decided.winning i rfl) ended
    · intro j named' other
      obtain ⟨answer, ended⟩ := settled j named'
      exact answer_of_losing (decided.losing j named' (fun same => other (Option.some.inj same))) ended

/-- Where a lease is live, none of the calls wins. -/
theorem hasNoWinner (timely : r.store.Timely r.now) (sound : r.store.Sound store name)
    (keeps : r.store.Keeps store name) (lease : r.store.lease store name = some l)
    (live : r.store.clock.reading r.now < l.lockUntil) :
    r.HasNoWinner name (r.start registries store) := by
  intro schedule
  have started : r.Closed name l none (r.start registries store) := by
    refine ⟨sound, keeps, lease, ?_, ?_⟩
    · intro i _ _
      exact losing_of_pending (pending_first (r.strategyOf i) (some l))
    · intro i this
      cases this
  have decided := closed_run timely live started schedule
  refine ⟨decided.lease.trans lease.symm, ?_⟩
  intro settled i named
  obtain ⟨answer, ended⟩ := settled i named
  exact answer_of_losing (decided.losing i named (by simp)) ended

/-! ## Coming to an end -/

theorem rank_run (schedule : List (Fin n)) (s : RaceState n r.store.State) (i : Fin n) :
    ((r.run schedule s).attempts i).rank ≤ (s.attempts i).rank - schedule.count i := by
  induction schedule generalizing s with
  | nil => simp [run]
  | cons j rest ih =>
    have later := ih (r.step s j)
    by_cases mine : i = j
    · subst mine
      have phase := Attempt.rank_step (r.accessor i) (r.call i).config (s.attempts i)
        (s.registries (r.call i).provider) s.store
      rw [attempts_step_self] at later
      rw [List.count_cons_self]
      exact later.trans (by omega)
    · rw [attempts_step_of_ne mine] at later
      rw [List.count_cons_of_ne (Ne.symm mine)]
      exact later

theorem finished_of_rank {a : Attempt} (ended : a.rank = 0) : ∃ answer, a = .finished answer := by
  cases a with
  | finished answer => exact ⟨answer, rfl⟩
  | looking | inserting _ | remembering _ | updating _ | forgetting _ => cases ended

/-- Five phases of every call for a name settle it. -/
theorem settled_of_count {schedule : List (Fin n)}
    (enough : ∀ i, (r.call i).config.name = name → 5 ≤ schedule.count i) :
    r.Settled name (r.run schedule s) := by
  intro i named
  have bound := rank_run schedule s i
  have steps := enough i named
  have start : (s.attempts i).rank ≤ 5 := by
    cases s.attempts i <;> simp [Attempt.rank]
  exact finished_of_rank (by omega)

/-! ## All stores -/

/-- What a race for a name comes to. The lease is the one that each of the calls would be given. -/
structure Decides (r : Race τ n) (name : String) (lease : Fin n → StoredLease τ)
    (s : RaceState n r.store.State) : Prop where
  /-- All calls come to an answer once each of them has had five phases. -/
  settles : ∀ schedule : List (Fin n), (∀ i, (r.call i).config.name = name → 5 ≤ schedule.count i) →
    r.Settled name (r.run schedule s)
  /-- If there is no lease, or an expired one, one call wins. -/
  free : (∀ l, r.store.lease s.store name = some l → l.lockUntil ≤ r.store.clock.reading r.now) →
    r.HasOneWinner name lease s
  /-- If there is a live lease, no call wins. -/
  held : ∀ l, r.store.lease s.store name = some l → r.store.clock.reading r.now < l.lockUntil →
    r.HasNoWinner name s

theorem decides {lease : Fin n → StoredLease τ} (timely : r.store.Timely r.now)
    (sound : r.store.Sound store name) (keeps : r.store.Keeps store name)
    (known : ∀ provider, (registries provider).contains name = true → (r.store.lease store name).isSome = true)
    (called : ∃ i, (r.call i).config.name = name)
    (given : ∀ i, (r.call i).config.name = name → (r.demand i).freshLease r.store.clock = lease i ∧
      r.store.clock.reading r.now < (lease i).lockUntil) :
    r.Decides name lease (r.start registries store) where
  settles _ enough := settled_of_count enough
  free expired := by
    intro schedule settled
    have lasting : ∀ i, (r.call i).config.name = name →
        r.store.clock.reading r.now < ((r.demand i).freshLease r.store.clock).lockUntil := by
      intro i named
      rw [(given i named).1]
      exact (given i named).2
    obtain ⟨winner, named, won, kept, others⟩ :=
      hasOneWinner timely sound keeps expired known called lasting schedule settled
    exact ⟨winner, named, won, kept.trans (congrArg some (given winner named).1), others⟩
  held _ found live := hasNoWinner timely sound keeps found live

end Race

/-- Of all calls that try to acquire a name at one instant exactly one wins, if the lease of the name is not
live, and none if it is. So it is in memory, with any mix of strategies, and in files, if the instant is
before the last one and the calls ask for some time; and on a hash server, if they ask for a millisecond at
least and the sum is less than 2⁵³. -/
theorem one_call_wins {n : Nat} (strategy : Nat → AcquireStrategy) (holder : Nat → String) (now : Instant)
    (call : Fin n → Contender) (registries : Nat → Registry) (name : String)
    (called : ∃ i, (call i).config.name = name) :
    (∀ records : Records, now < Instant.max →
      (∀ i, (call i).config.name = name → 0 < (call i).config.atMost.nanos) →
      (∀ provider, (registries provider).contains name = true → (records.get? name).isSome = true) →
      let r : Race Instant n := ⟨.memory, strategy, holder, now, call⟩
      r.Decides name (fun i => ⟨name, now.add (call i).config.atMost, now, holder (call i).provider⟩)
        (r.start registries records)) ∧
    (∀ (s : FileStore) (tree : FileTree), now < Instant.max →
      (∀ i, (call i).config.name = name → 0 < (call i).config.atMost.nanos) →
      tree.canOpen (s.recordPath name) = true → s.Readable tree name →
      (∀ provider, (registries provider).contains name = true → (s.leaseIn tree name).isSome = true) →
      let r : Race Instant n := ⟨.file s, strategy, holder, now, call⟩
      r.Decides name (fun i => ⟨name, now.add (call i).config.atMost, now, holder (call i).provider⟩)
        (r.start registries tree)) ∧
    (∀ (c : Redis.Client) (server : Redis.Server), 0 ≤ now.epochMillis →
      (∀ i, (call i).config.name = name → 1 ≤ (call i).config.atMost.millis ∧
        now.epochMillis.toNat + (call i).config.atMost.millis < 0x20000000000000) →
      Redis.Server.Readable c server name →
      (∀ provider, (registries provider).contains name = true →
        ((LeaseStore.redis c).lease server name).isSome = true) →
      let r : Race Nat n := ⟨.redis c, strategy, holder, now, call⟩
      r.Decides name
        (fun i => ⟨name, now.epochMillis.toNat + (call i).config.atMost.millis, now.epochMillis.toNat,
          holder (call i).provider⟩)
        (r.start registries server)) := by
  refine ⟨?_, ?_, ?_⟩
  · intro records before some_time known r
    have present : ∀ provider, (registries provider).contains name = true →
        (LeaseStore.memory.lease records name).isSome = true := by
      intro provider knows
      exact Option.isSome_map.trans (known provider knows)
    refine Race.decides (r := r) trivial trivial trivial present called ?_
    rintro i rfl
    exact ⟨rfl, Instant.lt_add_of_pos before (some_time i rfl)⟩
  · intro s tree before some_time opens readable known r
    refine Race.decides (r := r) trivial readable opens known called ?_
    rintro i rfl
    exact ⟨rfl, Instant.lt_add_of_pos before (some_time i rfl)⟩
  · intro c server timely some_time readable known r
    refine Race.decides (r := r) timely readable trivial known called ?_
    rintro i rfl
    obtain ⟨one, small⟩ := some_time i rfl
    have sum := Redis.plus_millis small
    constructor
    · exact congrArg (fun u : Nat => (⟨_, u, _, _⟩ : StoredLease Nat)) sum
    · exact Nat.lt_add_of_pos_right one

/-- Two calls for one lock, each through a provider of its own. -/
def rivals (i : Fin 2) : Contender where
  provider := i
  config := .nightly

/-- One of two rivals wins an empty store, whatever the order of their phases. -/
theorem one_call_wins_rivals :
    let strategy : Nat → AcquireStrategy := fun p => if p = 0 then .insertThenUpdate else .atomicUpsert
    let holder : Nat → String := fun p => if p = 0 then "first" else "second"
    let inMemory : Race Instant 2 := ⟨.memory, strategy, holder, .epoch, rivals⟩
    let inFiles : Race Instant 2 := ⟨.file ⟨[], ["locks"]⟩, strategy, holder, .epoch, rivals⟩
    let onServer : Race Nat 2 := ⟨.redis ⟨"lock", "test"⟩, strategy, holder, .epoch, rivals⟩
    let minute := Instant.epoch.add (.ofSeconds 60)
    inMemory.Decides "backup" (fun i => ⟨"backup", minute, .epoch, holder i⟩)
        (inMemory.start (fun _ => .empty) (∅ : Records)) ∧
      inFiles.Decides "backup" (fun i => ⟨"backup", minute, .epoch, holder i⟩)
        (inFiles.start (fun _ => .empty) (⟨[["locks"]], ∅⟩ : FileTree)) ∧
      onServer.Decides "backup" (fun i => ⟨"backup", 60000, 0, holder i⟩)
        (onServer.start (fun _ => .empty) (.empty : Redis.Server)) := by
  intro strategy holder inMemory inFiles onServer minute
  obtain ⟨memory, file, redis⟩ :=
    one_call_wins strategy holder .epoch rivals (fun _ => .empty) "backup" ⟨0, rfl⟩
  have some_time : ∀ i, (rivals i).config.name = "backup" → 0 < (rivals i).config.atMost.nanos := by decide
  refine ⟨?_, ?_, ?_⟩
  · exact memory ∅ (by decide) some_time (fun _ knows => by cases knows)
  · exact file ⟨[], ["locks"]⟩ ⟨[["locks"]], ∅⟩ (by decide) some_time (by decide +kernel)
      (FileStore.readable_of_no_file rfl) (fun _ knows => by cases knows)
  · have times : ∀ i, Instant.epoch.epochMillis.toNat + (rivals i).config.atMost.millis = 60000 := by decide
    have race := redis ⟨"lock", "test"⟩ .empty (by decide) (by decide) (Redis.Server.readable_of_no_hash rfl)
      (fun _ knows => by cases knows)
    simp only [times] at race
    exact race

end TaskLease

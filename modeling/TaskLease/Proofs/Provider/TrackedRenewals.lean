import TaskLease.Proofs.Provider.TrackedLocks

/-!
# Tracking around renewals

Renewals go on inside a keep-alive layer, and a tracker around that layer is not told how they are answered. A lock
that is lost to a renewal therefore stays listed, with the configuration that it was acquired with, although nobody
owns it any more. It goes when its handle is released, which no longer touches the store, or dropped.

`Unaware` is the invariant: it says what the handles have come to, as `Tracked` says what is tracked of them.
-/

namespace TaskLease

namespace Desk

variable {σ : Type} {history : List Entry} {entry : Entry} {i : Nat} {accessor : Accessor σ} {d : Desk σ}

/-- A handle of a lock that is kept alive. Once a renewal was answered `false` its lease is lost, though nobody was
told. -/
def Kept (history : List Entry) (i : Nat) (h : Handle) : Prop :=
  ∃ r l, h = .tracked i (.keptAlive r (.lease l)) ∧
    (history.any (Entry.losesUnawares i) = true → l.state = .lost)

/-- What a tracker around a keep-alive layer is not aware of. -/
structure Unaware (history : List Entry) (d : Desk σ) : Prop where
  tracked : Tracked history d
  layers : ∃ t minimum registry, d.provider = .tracking t (.keepingAlive minimum (.plain registry))
  handle : ∀ i h, d.handles[i]? = some (some h) → Kept history i h
  /-- Every handle is still there, or was dropped. -/
  there : ∀ i < (issued history).length, (∃ h, d.handles[i]? = some (some h)) ∨ history.any (Entry.drops i) = true
  /-- A lock that is kept alive is not extended by hand. -/
  unextended : ∀ e ∈ history, ∀ i, e.loses i = false ∧ e.renewal? i = none

theorem losesUnawares_elsewhere (elsewhere : entry.handle? ≠ some i) : entry.losesUnawares i = false := by
  cases entry with
  | rang j calls =>
    have other : j ≠ i := fun same => elsewhere (congrArg some same)
    simp [Entry.losesUnawares, other]
  | attempted | unlocked | extended | dropped | nothing => rfl

theorem any_losesUnawares_append (quiet : entry.losesUnawares i = false) :
    (history ++ [entry]).any (Entry.losesUnawares i) = history.any (Entry.losesUnawares i) := by
  rw [List.any_append, List.any_cons, quiet]
  simp

theorem Kept.append {h : Handle} (kept : Kept history i h) (quiet : entry.losesUnawares i = false) :
    Kept (history ++ [entry]) i h := by
  obtain ⟨r, l, rfl, lost⟩ := kept
  refine ⟨r, l, rfl, ?_⟩
  rw [any_losesUnawares_append quiet]
  exact lost

namespace Unaware

variable (accessor) {d' : Desk σ} {t : Tracker} {minimum : Duration} {registry : Registry}

/-- Nothing becomes of the handles. -/
theorem aside (u : Unaware history d) (about : entry.handle? = none) (acquires : entry.acquired? = none)
    (tracked : Tracked (history ++ [entry]) d') (layers : d'.provider = .tracking t (.keepingAlive minimum (.plain registry)))
    (handles : d'.handles = d.handles) : Unaware (history ++ [entry]) d' := by
  have elsewhere : ∀ i, entry.handle? ≠ some i := fun i => by simp [about]
  refine ⟨tracked, ⟨t, minimum, registry, layers⟩, ?_, ?_, ?_⟩
  · intro i h found
    rw [handles] at found
    exact (u.handle i h found).append (losesUnawares_elsewhere (elsewhere i))
  · intro i old
    rw [issued_append_of_none acquires] at old
    rw [handles, List.any_append]
    exact (u.there i old).imp id fun dropped => by rw [dropped]; rfl
  · intro e member i
    rcases List.mem_append.mp member with earlier | last
    · exact u.unextended e earlier i
    · cases List.mem_singleton.mp last
      have settles := entry_elsewhere (elsewhere i)
      exact ⟨(Bool.or_eq_false_iff.mp settles.1).2, settles.2⟩

/-- An attempt gives out the handle of a lock that is kept alive. -/
theorem acquired (u : Unaware history d) {config : LockConfig} {r : Renewal} {l : Lease} {number : Nat}
    (tracked : Tracked (history ++ [.attempted config (.ok true)]) d')
    (layers : d'.provider = .tracking t (.keepingAlive minimum (.plain registry)))
    (handles : d'.handles = d.handles ++ [some (.tracked number (.keptAlive r (.lease l)))]) :
    Unaware (history ++ [.attempted config (.ok true)]) d' := by
  obtain ⟨t₀, p₀, -, m⟩ := u.tracked
  obtain ⟨t₁, p₁, -, m₁⟩ := id tracked
  refine ⟨tracked, ⟨t, minimum, registry, layers⟩, ?_, ?_, ?_⟩
  · intro i h found
    have quiet : (Entry.attempted config (.ok true)).losesUnawares i = false := rfl
    obtain ⟨inner, numbered, -, -⟩ := m₁.handle i h found
    rw [handles] at found
    rcases Nat.lt_or_ge i d.handles.length with old | beyond
    · rw [List.getElem?_append_left old] at found
      exact (u.handle i h found).append quiet
    · rw [List.getElem?_append_right beyond, List.getElem?_singleton] at found
      split at found
      · cases found
        obtain ⟨same, -⟩ := Handle.tracked.inj numbered
        refine ⟨r, l, by rw [same], fun lost => ?_⟩
        rw [any_losesUnawares_append quiet, List.any_eq_true] at lost
        obtain ⟨e, member, loses⟩ := lost
        have mine : e.handle? = some i := by
          by_contra elsewhere
          rw [losesUnawares_elsewhere elsewhere] at loses
          cases loses
        exact absurd (m.fresh e member i mine) (by rw [← m.count]; omega)
      · cases found
  · intro i old
    rw [issued_append, List.length_append] at old
    rw [handles, List.any_append]
    rcases Nat.lt_or_ge i d.handles.length with before | beyond
    · rw [List.getElem?_append_left before]
      exact (u.there i (m.count ▸ before)).imp id fun dropped => by rw [dropped]; rfl
    · refine .inl ⟨.tracked number (.keptAlive r (.lease l)), ?_⟩
      have last : i = d.handles.length := by
        have : i < (issued history).length + 1 := old
        rw [m.count] at beyond ⊢
        omega
      rw [last, List.getElem?_concat_length]
  · intro e member i
    rcases List.mem_append.mp member with earlier | last
    · exact u.unextended e earlier i
    · cases List.mem_singleton.mp last
      exact ⟨rfl, rfl⟩

/-- An act on a handle that extends nothing. -/
theorem used (u : Unaware history d) (about : entry.handle? = some i) (tracked : Tracked (history ++ [entry]) d')
    (layers : d'.provider = .tracking t (.keepingAlive minimum (.plain registry))) {left : Option Handle}
    (handles : d'.handles = d.handles.set i left) (kept : ∀ h, left = some h → Kept (history ++ [entry]) i h)
    (dropped : left = none → entry.drops i = true) (unextended : entry.loses i = false ∧ entry.renewal? i = none) :
    Unaware (history ++ [entry]) d' := by
  have elsewhere {j : Nat} (other : i ≠ j) : entry.handle? ≠ some j := by
    rw [about]
    exact fun same => other (Option.some.inj same)
  obtain ⟨t₀, p₀, -, m⟩ := u.tracked
  refine ⟨tracked, ⟨t, minimum, registry, layers⟩, ?_, ?_, ?_⟩
  · intro j h found
    rw [handles] at found
    by_cases same : i = j
    · subst same
      rw [List.getElem?_set] at found
      simp only [if_pos] at found
      split at found
      · exact kept h (Option.some.inj found)
      · cases found
    · rw [List.getElem?_set_ne same] at found
      exact (u.handle j h found).append (losesUnawares_elsewhere (elsewhere same))
  · intro j old
    rw [issued_append_of_none (acquired?_of_handle? about)] at old
    rw [handles, List.any_append]
    by_cases same : i = j
    · subst same
      rw [List.getElem?_set_self (m.count.symm ▸ old)]
      cases left with
      | some h => exact .inl ⟨h, rfl⟩
      | none => exact .inr (by simp [dropped rfl])
    · rw [List.getElem?_set_ne same]
      exact (u.there j old).imp id fun dropped => by rw [dropped]; rfl
  · intro e member j
    rcases List.mem_append.mp member with earlier | last
    · exact u.unextended e earlier j
    · cases List.mem_singleton.mp last
      by_cases same : i = j
      · exact same ▸ unextended
      · have settles := entry_elsewhere (elsewhere same)
        exact ⟨(Bool.or_eq_false_iff.mp settles.1).2, settles.2⟩

/-! ## Acts -/

theorem tryLock (u : Unaware history d) (config : LockConfig) :
    Unaware (history ++ [(d.step accessor (.tryLock config)).1]) (d.step accessor (.tryLock config)).2 := by
  obtain ⟨t, minimum, registry, layers⟩ := u.layers
  have tracked := tryLock_tracked accessor u.tracked config
  obtain ⟨registry', provider, kept⟩ := Provider.tryLock_keepingAlive accessor minimum registry d.timer config d.stage
  revert tracked provider kept
  simp only [step, layers, Provider.tryLock_tracking]
  rcases (Provider.keepingAlive minimum (.plain registry)).tryLock accessor d.timer config d.stage with
    ⟨⟨_ | _ | h, p'⟩, stage⟩
  · rintro tracked rfl -
    exact u.aside rfl rfl tracked rfl (List.append_nil _)
  · rintro tracked rfl -
    exact u.aside rfl rfl tracked rfl (List.append_nil _)
  · rintro tracked rfl kept
    obtain ⟨r, l, rfl⟩ := kept h rfl
    exact u.acquired tracked rfl rfl

theorem unlock (u : Unaware history d) (i : Nat) :
    Unaware (history ++ [(d.step accessor (.unlock i)).1]) (d.step accessor (.unlock i)).2 := by
  obtain ⟨t, minimum, registry, layers⟩ := u.layers
  have tracked := unlock_tracked accessor u.tracked i
  revert tracked
  cases found : d.at? i with
  | none =>
    simp only [step, found]
    exact fun tracked => u.aside rfl rfl tracked layers rfl
  | some h =>
    obtain ⟨r, l, rfl, lost⟩ := u.handle i h (at?_eq_some.mp found)
    simp only [step, found, Accessor.observe, layers, Handle.unlock_tracked, Handle.unlock_keptAlive,
      Handle.unlock_lease, Provider.inner, Provider.around]
    intro tracked
    refine u.used rfl tracked rfl rfl ?_ (by rintro ⟨⟩) (by simp [Entry.loses, Entry.renewal?])
    rintro h ⟨⟩
    refine ⟨r.stop, _, rfl, fun ended => ?_⟩
    rw [any_losesUnawares_append rfl] at ended
    have idle : l.state ≠ .held := by simp [lost ended]
    rw [Lease.unlock_idle _ _ idle]
    exact lost ended

theorem extend (u : Unaware history d) (i : Nat) (atMost atLeast : Duration) :
    Unaware (history ++ [(d.step accessor (.extend i atMost atLeast)).1])
      (d.step accessor (.extend i atMost atLeast)).2 := by
  obtain ⟨t, minimum, registry, layers⟩ := u.layers
  have tracked := extend_tracked accessor u.tracked i atMost atLeast
  revert tracked
  cases found : d.at? i with
  | none =>
    simp only [step, found]
    exact fun tracked => u.aside rfl rfl tracked layers rfl
  | some h =>
    obtain ⟨r, l, rfl, lost⟩ := u.handle i h (at?_eq_some.mp found)
    simp only [step, found, Accessor.observe, layers, Handle.extend_tracked, Handle.extend_keptAlive,
      Provider.inner, Provider.around]
    intro tracked
    refine u.used rfl tracked rfl rfl ?_ (by rintro ⟨⟩) ⟨rfl, rfl⟩
    rintro h ⟨⟩
    exact Kept.append ⟨r, l, rfl, lost⟩ rfl

theorem drop (u : Unaware history d) (i : Nat) :
    Unaware (history ++ [(d.step accessor (.drop i)).1]) (d.step accessor (.drop i)).2 := by
  obtain ⟨t, minimum, registry, layers⟩ := u.layers
  have tracked := drop_tracked accessor u.tracked i
  revert tracked
  cases found : d.at? i with
  | none =>
    simp only [step, found]
    exact fun tracked => u.aside rfl rfl tracked layers rfl
  | some h =>
    obtain ⟨r, l, rfl, -⟩ := u.handle i h (at?_eq_some.mp found)
    simp only [step, found, layers]
    intro tracked
    exact u.used rfl tracked rfl rfl (by rintro h ⟨⟩) (fun _ => by simp [Entry.drops]) ⟨rfl, rfl⟩

theorem ring (u : Unaware history d) (i : Nat) :
    Unaware (history ++ [(d.step accessor (.ring i)).1]) (d.step accessor (.ring i)).2 := by
  obtain ⟨t, minimum, registry, layers⟩ := u.layers
  have tracked := ring_tracked accessor u.tracked i
  revert tracked
  cases found : d.at? i with
  | none =>
    simp only [step, found]
    exact fun tracked => u.aside rfl rfl tracked layers rfl
  | some h =>
    obtain ⟨r, l, rfl, lost⟩ := u.handle i h (at?_eq_some.mp found)
    cases rings : (Handle.tracked i (.keptAlive r (.lease l))).due? with
    | none =>
      simp only [step, found, rings]
      exact fun tracked => u.aside rfl rfl tracked layers rfl
    | some due =>
      let recorded : Stage (σ × List Accessor.Call) := { store := (d.stage.store, []), events := d.stage.events }
      obtain ⟨provider, outcome⟩ := Handle.ring_keptAlive accessor.recording r l due d.timer
        (.keepingAlive minimum (.plain registry)) recorded
      simp only [step, found, rings, Accessor.observe, layers, Handle.ring_tracked, Provider.inner, Provider.around]
      intro tracked
      refine u.used rfl tracked (congrArg (Provider.tracking t) provider) rfl ?_ (by rintro ⟨⟩) ⟨rfl, rfl⟩
      rintro h ⟨⟩
      rcases outcome with ⟨r', left, store⟩ | ⟨r', atMost, atLeast, left, store⟩
      · refine ⟨r', l, congrArg (Handle.tracked i) left, fun ended => lost ?_⟩
        rw [any_losesUnawares_append] at ended
        · exact ended
        · simp [Entry.losesUnawares, recorded, store]
      · obtain ⟨loses, keeps⟩ := (Lease.course_of_extend accessor d.stage (l := l) atMost atLeast).lost_of_extended
        refine ⟨r', _, congrArg (Handle.tracked i) left, fun ended => ?_⟩
        rw [List.any_append, Bool.or_eq_true] at ended
        rcases ended with before | now
        · exact keeps (lost before)
        · refine loses ?_
          simp only [List.any_cons, List.any_nil, Bool.or_false, Entry.losesUnawares, Bool.and_eq_true,
            List.any_eq_true, decide_eq_true_iff] at now
          obtain ⟨-, c, member, -, refused⟩ := now
          exact ⟨c, (congrArg (fun s => c ∈ s.2) store).mp member, refused⟩

/-- Whatever happens, the tracker stays unaware. -/
theorem step (u : Unaware history d) (act : Act σ) :
    Unaware (history ++ [(d.step accessor act).1]) (d.step accessor act).2 := by
  cases act with
  | tryLock config => exact u.tryLock accessor config
  | unlock i => exact u.unlock accessor i
  | extend i atMost atLeast => exact u.extend accessor i atMost atLeast
  | drop i => exact u.drop accessor i
  | ring i => exact u.ring accessor i
  | pass | others =>
    obtain ⟨t, minimum, registry, layers⟩ := u.layers
    exact u.aside rfl rfl (step_tracked accessor u.tracked _) layers rfl

theorem run (u : Unaware history d) (acts : List (Act σ)) :
    Unaware (history ++ (Desk.run accessor acts d).1) (Desk.run accessor acts d).2 := by
  induction acts generalizing history d with
  | nil => simpa [Desk.run] using u
  | cons act rest ih =>
    have later := ih (u.step accessor act)
    rw [List.append_assoc] at later
    exact later

end Unaware

/-- A handle is still there, and its lock was lost to a renewal. -/
structure LostUnawares (history : List Entry) (i : Nat) : Prop where
  lost : ∃ e ∈ history, e.losesUnawares i = true
  standing : i ∈ standing history

/-- A tracker that does not learn of locks that are lost to renewals. -/
structure MissesLosses (accessor : Accessor σ) (history : List Entry) (d : Desk σ) : Prop where
  /-- A ring changes nothing that is tracked, however the renewal is answered. -/
  unheard : ∀ i, (d.step accessor (.ring i)).2.tracker = d.tracker
  /-- No handle is found lost by an extension, as none is extended by hand. Those that stand were neither dropped nor
  released. -/
  standing_iff : ∀ i, i ∈ standing history ↔
    i < (issued history).length ∧ ∀ e ∈ history, e.drops i = false ∧ e.releases i = false
  /-- A lock that was lost to a renewal is still listed, as it was acquired. -/
  stays : ∀ i, LostUnawares history i → ∃ config, (issued history)[i]? = some config ∧
    d.tracker.active.get? i = some config ∧ config ∈ d.tracker.activeLocks ∧
      (d.tracker.activeLock? config.name).isSome = true
  /-- A release of its handle succeeds without a call, and takes it out. -/
  released : ∀ i, LostUnawares history i → (d.step accessor (.unlock i)).1 = .unlocked i [] (.ok ()) ∧
    (d.step accessor (.unlock i)).2.tracker.active.get? i = none
  /-- So does a drop. -/
  dropped : ∀ i, LostUnawares history i → (d.step accessor (.drop i)).1 = .dropped i ∧
    (d.step accessor (.drop i)).2.tracker.active.get? i = none

namespace Unaware

variable (accessor)

/-- Nothing is renewed by hand, so every lock that stands is listed as it was acquired. -/
theorem current_eq (u : Unaware history d) (i : Nat) : current history i = (issued history)[i]? := by
  have none_renewed : renewals i history = [] := List.filterMap_eq_nil_iff.mpr fun e member =>
    (u.unextended e member i).2
  rw [current, none_renewed]
  exact Option.map_id'

theorem standing_iff (u : Unaware history d) : i ∈ standing history ↔
    i < (issued history).length ∧ ∀ e ∈ history, e.drops i = false ∧ e.releases i = false := by
  rw [mem_standing]
  refine and_congr_right' (forall₂_congr fun e member => ?_)
  rw [Entry.ends, (u.unextended e member i).1, Bool.or_false, Bool.or_eq_false_iff]

/-- The handle of a lock that was lost to a renewal. -/
theorem handle_of_lost (u : Unaware history d) (unawares : LostUnawares history i) :
    ∃ r l, d.at? i = some (.tracked i (.keptAlive r (.lease l))) ∧ l.state = .lost := by
  obtain ⟨old, stands⟩ := u.standing_iff.mp unawares.standing
  obtain ⟨h, there⟩ | dropped := u.there i old
  · obtain ⟨r, l, rfl, lost⟩ := u.handle i h there
    exact ⟨r, l, at?_eq_some.mpr there, lost (List.any_eq_true.mpr unawares.lost)⟩
  · obtain ⟨e, member, drops⟩ := List.any_eq_true.mp dropped
    rw [(stands e member).1] at drops
    cases drops

theorem tracker_ring (u : Unaware history d) (i : Nat) : (d.step accessor (.ring i)).2.tracker = d.tracker := by
  obtain ⟨t, minimum, registry, layers⟩ := u.layers
  cases found : d.at? i with
  | none => simp only [Desk.step, found]
  | some h =>
    obtain ⟨r, l, rfl, -⟩ := u.handle i h (at?_eq_some.mp found)
    cases rings : (Handle.tracked i (.keptAlive r (.lease l))).due? with
    | none => simp only [Desk.step, found, rings]
    | some due =>
      simp only [Desk.step, found, rings, Accessor.observe, layers, Handle.ring_tracked, Provider.inner,
        Provider.around]
      rw [tracker_of_tracking layers]
      rfl

theorem missesLosses (u : Unaware history d) : MissesLosses accessor history d := by
  have lists := (u.tracked.exact accessor).lists
  obtain ⟨t, minimum, registry, layers⟩ := u.layers
  refine ⟨fun i => u.tracker_ring accessor i, fun i => u.standing_iff, ?_, ?_, ?_⟩
  · intro i unawares
    obtain ⟨config, shown, tracked⟩ := lists.tracked i unawares.standing
    refine ⟨config, (u.current_eq i).symm.trans shown, tracked, ?_, ?_⟩
    · exact lists.listed.mem_iff.mpr (List.mem_filterMap.mpr ⟨i, unawares.standing, shown⟩)
    · exact (lists.found config.name).mpr ⟨i, unawares.standing, config, shown, rfl⟩
  · intro i unawares
    obtain ⟨r, l, found, lost⟩ := u.handle_of_lost unawares
    have idle : l.state ≠ .held := by simp [lost]
    simp only [Desk.step, found, Accessor.observe, layers, Handle.unlock_tracked, Handle.unlock_keptAlive,
      Handle.unlock_lease, Lease.unlock_idle _ _ idle, Provider.inner, Provider.around, Provider.mapTracker]
    exact ⟨trivial, Tracker.get?_remove_self t i⟩
  · intro i unawares
    obtain ⟨r, l, found, -⟩ := u.handle_of_lost unawares
    simp only [Desk.step, found, layers]
    exact ⟨trivial, Tracker.get?_remove_self t i⟩

end Unaware

/-- At the beginning there is nothing to be aware of. -/
theorem unaware_opened (minimum : Duration) (registry : Registry) (store : σ) :
    Unaware [] (opened (.tracking {} (.keepingAlive minimum (.plain registry))) store) where
  tracked := ⟨{}, _, rfl, .opened⟩
  layers := ⟨{}, minimum, registry, rfl⟩
  handle _ _ found := by cases found
  there _ old := absurd old (Nat.not_lt_zero _)
  unextended _ member := by cases member

end Desk

/-- Around a layer that keeps locks alive, whatever the accessor answers and whatever happens: a tracker never learns
how a renewal is answered. A lock that was lost to one stays listed until its handle is released or dropped. -/
theorem renewals_go_untracked {σ : Type} (accessor : Accessor σ) (minimum : Duration) (registry : Registry)
    (store : σ) (acts : List (Desk.Act σ)) :
    let last := Desk.run accessor acts (.opened (.tracking {} (.keepingAlive minimum (.plain registry))) store)
    Desk.MissesLosses accessor last.1 last.2 :=
  ((Desk.unaware_opened minimum registry store).run accessor acts).missesLosses accessor

/-- A rival whose clock is a minute ahead takes a lock over. The renewal half a minute later is answered `false`, and
the lock of the rival is still listed as that of this process. -/
theorem lost_lock_stays_tracked :
    let accessor := RecordStore.memory.accessor .insertThenUpdate "node" .epoch
    let rival : Demand := { holder := "rival", config := .nightly, now := Instant.epoch.add (.ofSeconds 60) }
    let takeover : Records → Records := fun records => (Records.perform .insertThenUpdate .update rival records).2
    let acts : List (Desk.Act Records) := [.tryLock .nightly, .others takeover, .pass (.ofSeconds 30), .ring 0]
    let last := Desk.run accessor acts
      (.opened (.tracking {} (.keepingAlive (.ofSeconds 30) (.plain .empty))) (∅ : Records))
    Desk.LostUnawares last.1 0 ∧
      (last.2.stage.store.get? "backup").map LockRecord.lockedBy = some "rival" ∧
      last.2.tracker.activeLocks = [.nightly] ∧ last.2.tracker.activeLock? "backup" = some .nightly := by
  refine ⟨⟨?_, ?_⟩, ?_⟩ <;> decide +kernel

end TaskLease

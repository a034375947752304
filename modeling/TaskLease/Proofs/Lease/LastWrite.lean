import Mathlib.Data.List.Induction
import TaskLease.Proofs.Lease.Store

/-!
# The lease that a run leaves

What a store keeps of a lock after a run is told by three accesses: the last one that acquired it, the last one that
began its lease, which is an acquisition or a renewal, and the last one that was applied at all. `leftBy` puts the
lease together from these, and `lease_of_run` says that it is the one that the store keeps, if it kept none at first.
-/

namespace TaskLease

namespace LeaseStore

variable {τ : Type} [LinearOrder τ] (store : LeaseStore τ) (name : String)

/-- The last access of a run that is of a kind, in the state that it meets. -/
def lastOf (kind : Access → store.State → Bool) : List Access → store.State → Option Access
  | [], _ => none
  | a :: rest, s => (lastOf kind rest (store.perform a s).2).or (if kind a s then some a else none)

/-- Whether an access to the lock of a name is applied. -/
def writes (a : Access) (s : store.State) : Bool :=
  decide (a.config.name = name) && decide ((store.perform a s).1.toOption = some true)

/-- Whether an access begins a lease of a name: it acquires the lock, or renews its lease. -/
def begins (a : Access) (s : store.State) : Bool := a.op ≠ .unlock && store.writes name a s

/-- The end of a lease that was begun by one access and written last by another, which is a release or the same
one. -/
def endOf (begun written : Access) : τ :=
  let since := store.clock.reading begun.now
  if written.op = .unlock then max (store.clock.reading written.now) (store.clock.plus since written.config.atLeast)
  else store.clock.plus since begun.config.atMost

/-- The lease that a run leaves under a name. -/
def leftBy (accesses : List Access) (s : store.State) : Option (StoredLease τ) := do
  let acquired ← store.lastOf (store.acquires name) accesses s
  let begun ← store.lastOf (store.begins name) accesses s
  let written ← store.lastOf (store.writes name) accesses s
  return { name, lockUntil := store.endOf begun written, lockedAt := store.clock.reading begun.now,
           lockedBy := acquired.holder }

variable {store name} {a : Access} {accesses : List Access} {s : store.State}

theorem lastOf_append (kind : Access → store.State → Bool) (accesses : List Access) (s : store.State) :
    store.lastOf kind (accesses ++ [a]) s =
      if kind a (store.run accesses s) then some a else store.lastOf kind accesses s := by
  induction accesses generalizing s with
  | nil => exact Option.none_or
  | cons first rest ih =>
    rw [List.cons_append, lastOf, ih, lastOf]
    change Option.or (if kind a (store.run rest (store.perform first s).2) then some a else _) _ =
      if kind a (store.run rest (store.perform first s).2) then some a else _
    split
    · exact Option.some_or
    · rfl

/-- An access is of a kind if it is the last one of that kind in some run. -/
theorem mem_of_lastOf {kind : Access → store.State → Bool} (last : store.lastOf kind accesses s = some a) :
    a ∈ accesses ∧ ∃ met, kind a met = true := by
  induction accesses generalizing s with
  | nil => cases last
  | cons first rest ih =>
    rw [lastOf] at last
    cases later : store.lastOf kind rest (store.perform first s).2 with
    | some b =>
      rw [later] at last
      cases last
      obtain ⟨member, met⟩ := ih later
      exact ⟨List.mem_cons_of_mem first member, met⟩
    | none =>
      rw [later, Option.none_or] at last
      split at last
      · cases last
        exact ⟨List.mem_cons_self, s, by assumption⟩
      · cases last

theorem writes_iff : store.writes name a s = true ↔ a.config.name = name ∧ (store.perform a s).1 = .ok true := by
  rw [writes, Bool.and_eq_true, decide_eq_true_iff, decide_eq_true_iff]
  refine and_congr_right fun _ => ?_
  rcases (store.perform a s).1 with fault | _ | _ <;> simp [Except.toOption]

theorem acquires_eq : store.acquires name a s = (a.op.isAcquisition && store.writes name a s) := by
  rw [acquires, writes, Bool.and_assoc]

theorem leftBy_eq_some {l : StoredLease τ} : store.leftBy name accesses s = some l ↔
    ∃ acquired begun written, store.lastOf (store.acquires name) accesses s = some acquired ∧
      store.lastOf (store.begins name) accesses s = some begun ∧
      store.lastOf (store.writes name) accesses s = some written ∧
      l = { name, lockUntil := store.endOf begun written, lockedAt := store.clock.reading begun.now,
            lockedBy := acquired.holder } := by
  simp only [leftBy, bind, Option.bind_eq_some_iff, pure, Option.some.injEq]
  constructor
  · rintro ⟨acquired, first, begun, second, written, third, rfl⟩
    exact ⟨acquired, begun, written, first, second, third, rfl⟩
  · rintro ⟨acquired, begun, written, first, second, third, rfl⟩
    exact ⟨acquired, first, begun, second, written, third, rfl⟩

/-- If a run has an access of one kind, it has one of every kind that is wider. -/
theorem isSome_lastOf {kind wider : Access → store.State → Bool} (wide : ∀ a s, kind a s = true → wider a s = true)
    (some_last : (store.lastOf kind accesses s).isSome = true) : (store.lastOf wider accesses s).isSome = true := by
  induction accesses generalizing s with
  | nil => cases some_last
  | cons a rest ih =>
    rw [lastOf, Option.isSome_or, Bool.or_eq_true] at some_last ⊢
    refine some_last.imp ih fun here => ?_
    split at here
    · rw [if_pos (wide a s (by assumption))]
      rfl
    · cases here

/-- A run leaves a lease if it has acquired the lock. -/
theorem leftBy_eq_none_iff :
    store.leftBy name accesses s = none ↔ store.lastOf (store.acquires name) accesses s = none := by
  constructor
  · intro nothing
    by_contra acquired
    obtain ⟨first, acquired⟩ := Option.ne_none_iff_exists'.mp acquired
    have begins (a : Access) (s : store.State) (acquires : store.acquires name a s = true) :
        store.begins name a s = true := by
      rw [acquires_eq, Bool.and_eq_true] at acquires
      rw [begins, acquires.2, Bool.and_true, decide_eq_true_iff]
      intro unlocks
      rw [unlocks] at acquires
      cases acquires.1
    have writes (a : Access) (s : store.State) (begins : store.begins name a s = true) :
        store.writes name a s = true := ((Bool.and_eq_true ..).mp begins).2
    have begun : (store.lastOf (store.begins name) accesses s).isSome = true :=
      isSome_lastOf begins (by rw [acquired]; rfl)
    have written := isSome_lastOf writes begun
    obtain ⟨second, begun⟩ := Option.isSome_iff_exists.mp begun
    obtain ⟨third, written⟩ := Option.isSome_iff_exists.mp written
    rw [leftBy_eq_some.mpr ⟨first, second, third, acquired, begun, written, rfl⟩] at nothing
    cases nothing
  · intro missing
    rw [leftBy, missing]
    rfl

/-- A release that is applied finds a lease of its holder, and ends it. -/
theorem lease_of_unlocked (is_unlock : a.op = .unlock) (sound : store.Sound s a.config.name)
    (timely : store.Timely a.now) (unlocked : (store.perform a s).1 = .ok true) :
    ∃ l, store.lease s a.config.name = some l ∧
      store.lease (store.perform a s).2 a.config.name = some (a.releasedLease store.clock l) := by
  have keeps : store.Keeps s a.config.name := by
    by_contra not_kept
    obtain ⟨fault, failed⟩ := store.perform_not_kept not_kept
    rw [failed] at unlocked
    cases unlocked
  have answer := store.perform_kept sound timely keeps
  rw [unlocked, is_unlock] at answer
  have applied := (Except.ok.inj answer).symm
  cases found : store.lease s a.config.name with
  | none =>
    rw [found] at applied
    cases applied
  | some l =>
    rw [found] at applied
    exact ⟨l, rfl, (unlock_of_own is_unlock sound timely keeps found (of_decide_eq_true applied)).2⟩

/-- One more access. -/
theorem leftBy_append (possible : store.Possible name (accesses ++ [a]) s)
    (left : store.lease (store.run accesses s) name = store.leftBy name accesses s) :
    store.lease (store.run (accesses ++ [a]) s) name = store.leftBy name (accesses ++ [a]) s := by
  have now : store.Possible name [a] (store.run accesses s) := possible.run
  have sound := now.sound
  have timely := now.now
  rw [run_append, leftBy, lastOf_append, lastOf_append, lastOf_append]
  change store.lease (store.perform a (store.run accesses s)).2 name = _
  cases written : store.writes name a (store.run accesses s) with
  | false =>
    have acquires : store.acquires name a (store.run accesses s) = false := by
      rw [acquires_eq, written, Bool.and_false]
    have begins : store.begins name a (store.run accesses s) = false := by
      rw [begins, written, Bool.and_false]
    rw [acquires, begins, if_neg Bool.false_ne_true, if_neg Bool.false_ne_true, if_neg Bool.false_ne_true]
    refine Eq.trans ?_ left
    by_cases same : a.config.name = name
    · subst same
      refine lease_of_refused sound timely fun applied => ?_
      rw [writes_iff.mpr ⟨rfl, applied⟩] at written
      cases written
    · exact store.lease_perform_of_ne same
  | true =>
    obtain ⟨rfl, applied⟩ := writes_iff.mp written
    rw [acquires_eq, begins, written]
    cases op : a.op with
    | insert | update =>
      have acquired : store.acquires a.config.name a (store.run accesses s) = true := by
        rw [acquires_eq, written, op]
        rfl
      rw [(lease_of_acquires sound timely acquired).2]
      simp [Operation.isAcquisition, endOf, op, Demand.freshLease]
    | extend =>
      obtain ⟨-, l, found, -, -, renewed⟩ := lease_of_extended op sound timely applied
      obtain ⟨acquired, begun, written, first, -, -, rfl⟩ := leftBy_eq_some.mp (left.symm.trans found)
      rw [renewed, first]
      simp [Operation.isAcquisition, endOf, op, Demand.renewedLease]
    | unlock =>
      obtain ⟨l, found, released⟩ := lease_of_unlocked op sound timely applied
      obtain ⟨acquired, begun, written, first, second, -, rfl⟩ := leftBy_eq_some.mp (left.symm.trans found)
      rw [released, first]
      simp [Operation.isAcquisition, endOf, op, Demand.releasedLease, second]

/-- The lease that a store keeps after a run is the one that the run leaves. -/
theorem lease_of_run (possible : store.Possible name accesses s) (missing : store.lease s name = none) :
    store.lease (store.run accesses s) name = store.leftBy name accesses s := by
  induction accesses using List.reverseRecOn with
  | nil => exact missing
  | append_singleton rest a ih => exact leftBy_append possible (ih possible.before)

end LeaseStore

end TaskLease

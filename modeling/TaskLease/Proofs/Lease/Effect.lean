import TaskLease.Proofs.Time.InstantOrder
import TaskLease.Store.Verdict

/-!
# What an operation does to a lease

Stores reckon time differently: some keep instants to the nanosecond, others whole milliseconds that a
double can hold. Apart from that an operation does the same to all of them. It is `applies` that says
whether the lease found admits the operation, and `after` that says which lease is there then.

Only an acquisition puts a lease in the place of another one, and it does so only if that one has expired.
Everything else leaves the lease alone or is the holder's own release or renewal.
-/

namespace TaskLease

/-- A lease as a store keeps it, with times of the kind that the store reckons in. -/
structure StoredLease (τ : Type) where
  name : String
  lockUntil : τ
  lockedAt : τ
  lockedBy : String
deriving DecidableEq, Repr

/-- How a store reckons time. -/
structure Reckoning (τ : Type) where
  /-- What an instant is by the clock of the store. -/
  reading : Instant → τ
  /-- The time a duration later. -/
  plus : τ → Duration → τ

/-- Time to the nanosecond, up to the last instant. -/
def Reckoning.instants : Reckoning Instant := ⟨id, Instant.add⟩

/-- One operation of a holder on a store, which its accessor performs with a strategy. -/
structure Access extends Demand where
  strategy : AcquireStrategy
  op : Operation
deriving DecidableEq, Repr

/-- The lock of a nightly backup, for a minute at most and five seconds at least. -/
def LockConfig.nightly : LockConfig := ⟨"backup", .ofSeconds 60, .ofSeconds 5, by decide, by decide, by decide⟩

/-- Whether an operation acquires the lock where it applies. -/
def Operation.isAcquisition : Operation → Bool
  | .insert | .update => true
  | .unlock | .extend => false

section

variable {τ : Type} (r : Reckoning τ) (d : Demand)

/-- The lease that begins now. -/
def Demand.freshLease : StoredLease τ where
  name := d.config.name
  lockUntil := r.plus (r.reading d.now) d.config.atMost
  lockedAt := r.reading d.now
  lockedBy := d.holder

/-- A lease renewed now. -/
def Demand.renewedLease (l : StoredLease τ) : StoredLease τ :=
  { l with lockUntil := r.plus (r.reading d.now) d.config.atMost, lockedAt := r.reading d.now }

variable [LinearOrder τ]

/-- A lease that its holder is done with. -/
def Demand.releasedLease (l : StoredLease τ) : StoredLease τ :=
  { l with lockUntil := max (r.reading d.now) (r.plus l.lockedAt d.config.atLeast) }

namespace Operation

/-- Whether the lease found, if there is one, admits an operation. -/
def applies (reclaims : Bool) (op : Operation) : Option (StoredLease τ) → Bool
  | none => op = .insert
  | some l =>
    match op with
    | .insert => reclaims && decide (l.lockUntil ≤ r.reading d.now)
    | .update => decide (l.lockUntil ≤ r.reading d.now)
    | .unlock => decide (l.lockedBy = d.holder)
    | .extend => decide (l.lockedBy = d.holder) && decide (r.reading d.now < l.lockUntil)

/-- The lease that an operation writes where it applies. -/
def written (op : Operation) (found : Option (StoredLease τ)) : Option (StoredLease τ) :=
  match op with
  | .insert | .update => some (d.freshLease r)
  | .unlock => found.map (d.releasedLease r)
  | .extend => found.map (d.renewedLease r)

/-- The lease after an operation. -/
def after (reclaims : Bool) (op : Operation) (found : Option (StoredLease τ)) : Option (StoredLease τ) :=
  if op.applies r d reclaims found then op.written r d found else found

variable {r d} {reclaims : Bool} {op : Operation} {found : Option (StoredLease τ)} {l : StoredLease τ}

/-- An acquisition finds no lease that is still live. -/
theorem expired_of_applies (acquisition : op.isAcquisition = true)
    (applied : op.applies r d reclaims (some l) = true) : l.lockUntil ≤ r.reading d.now := by
  cases op with
  | insert =>
    rw [applies, Bool.and_eq_true, decide_eq_true_iff] at applied
    exact applied.2
  | update => exact of_decide_eq_true applied
  | unlock | extend => cases acquisition

/-- An acquisition leaves a lease of its own. -/
theorem after_acquisition (acquisition : op.isAcquisition = true)
    (applied : op.applies r d reclaims found = true) : op.after r d reclaims found = some (d.freshLease r) := by
  rw [after, if_pos applied]
  cases op with
  | insert | update => rfl
  | unlock | extend => cases acquisition

/-- No operation removes a lease. -/
theorem isSome_after (present : found.isSome = true) : (op.after r d reclaims found).isSome = true := by
  unfold after written
  split
  · cases op <;> simp [present]
  · exact present

/-- An operation that acquires nothing leaves the lease as it is, or is its holder's own. -/
theorem after_of_not_acquired (refused : op.isAcquisition = true → op.applies r d reclaims found = false) :
    op.after r d reclaims found = found ∨
      ∃ l, found = some l ∧ l.lockedBy = d.holder ∧
        ((op = .unlock ∧ op.after r d reclaims found = some (d.releasedLease r l)) ∨
          (op = .extend ∧ op.after r d reclaims found = some (d.renewedLease r l))) := by
  cases applied : op.applies r d reclaims found with
  | false =>
    left
    rw [after, applied]
    rfl
  | true =>
    right
    rw [after, if_pos applied]
    cases op with
    | insert | update => rw [refused rfl] at applied; cases applied
    | unlock =>
      cases found with
      | none => cases applied
      | some l => exact ⟨l, rfl, of_decide_eq_true applied, .inl ⟨rfl, rfl⟩⟩
    | extend =>
      cases found with
      | none => cases applied
      | some l =>
        rw [applies, Bool.and_eq_true, decide_eq_true_iff] at applied
        exact ⟨l, rfl, applied.1, .inr ⟨rfl, rfl⟩⟩

end Operation

end

/-- What a record says of a lease, which is all it says. -/
def LockRecord.lease (r : LockRecord) : StoredLease Instant := ⟨r.name, r.lockUntil, r.lockedAt, r.lockedBy⟩

theorem LockRecord.lease_injective {a b : LockRecord} (same : a.lease = b.lease) : a = b := by
  cases a
  cases b
  cases same
  rfl

namespace Operation

variable (reclaims : Bool) (op : Operation) (d : Demand)

theorem verdict_none :
    (op.verdict reclaims d none).answer = op.applies .instants d reclaims none ∧
      ((op.verdict reclaims d none).after none).map LockRecord.lease = op.after .instants d reclaims none := by
  cases op <;> exact ⟨rfl, rfl⟩

theorem releasedRecord_lease (r : LockRecord) :
    (d.releasedRecord r).lease = d.releasedLease .instants r.lease := by
  simp only [Demand.releasedRecord, LockRecord.lease, Demand.releasedLease, Instant.later_eq_max]
  rfl

theorem verdict_some (r : LockRecord) :
    (op.verdict reclaims d (some r)).answer = op.applies .instants d reclaims (some r.lease) ∧
      ((op.verdict reclaims d (some r)).after (some r)).map LockRecord.lease =
        op.after .instants d reclaims (some r.lease) := by
  have live : (d.now < r.lockUntil) ↔ r.isHeldAt d.now = true := LockRecord.isHeldAt_iff.symm
  have expired : r.lockUntil ≤ d.now ↔ ¬ r.isHeldAt d.now = true := not_lt.symm.trans (not_congr live)
  have lockUntil : r.lease.lockUntil = r.lockUntil := rfl
  have lockedBy : r.lease.lockedBy = r.lockedBy := rfl
  have reading : Reckoning.instants.reading d.now = d.now := rfl
  cases op with
  | insert =>
    simp only [verdict, after, applies, lockUntil, reading, expired]
    cases reclaims <;> cases r.isHeldAt d.now <;> exact ⟨rfl, rfl⟩
  | update =>
    simp only [verdict, after, applies, lockUntil, reading, expired]
    cases r.isHeldAt d.now <;> exact ⟨rfl, rfl⟩
  | unlock =>
    simp only [verdict, after, applies, lockedBy]
    by_cases own : r.lockedBy = d.holder
    · rw [if_pos own, decide_eq_true own]
      exact ⟨rfl, congrArg some (releasedRecord_lease d r)⟩
    · rw [if_neg own, decide_eq_false own]
      exact ⟨rfl, rfl⟩
  | extend =>
    simp only [verdict, after, applies, lockUntil, lockedBy, reading, live]
    by_cases own : r.lockedBy = d.holder
    · rw [decide_eq_true own]
      cases held : r.isHeldAt d.now with
      | true => rw [if_pos ⟨own, rfl⟩]; exact ⟨rfl, rfl⟩
      | false => rw [if_neg (fun both => by cases both.2)]; exact ⟨rfl, rfl⟩
    · rw [if_neg (fun both => own both.1), decide_eq_false own]
      exact ⟨rfl, rfl⟩

/-- A verdict on a record is what the operation does to its lease. -/
theorem verdict_lease (found : Option LockRecord) :
    (op.verdict reclaims d found).answer = op.applies .instants d reclaims (found.map LockRecord.lease) ∧
      ((op.verdict reclaims d found).after found).map LockRecord.lease =
        op.after .instants d reclaims (found.map LockRecord.lease) := by
  cases found with
  | none => exact verdict_none reclaims op d
  | some r => exact verdict_some reclaims op d r

end Operation

end TaskLease

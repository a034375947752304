import TaskLease.Proofs.Provider.Traffic

/-!
# Handles of a lock that was acquired again

A store tells holders apart by their identities alone. When a lock has been acquired again, the handles of
all other identities are stale, and so are those of the new holder that no longer count as held. `Harmless`
says that stale handles do nothing to the record, and that nobody acquires the lock while the lease runs as its
holder has set it. `stale_handles_harmless` shows it for the last acquisition of any run.

A held handle of the same identity is not stale, whether its own lease has expired or not: the store takes
it for the holder's. `same_identity_disturbs` is a run where one of an earlier lease ends the later one.
-/

namespace TaskLease

open World

/-- A step that does not set the clock back. -/
def Traffic.Act.Onward (clock : Instant) : Traffic.Act → Prop
  | .act (.setClock now) => clock ≤ now
  | _ => True

namespace Setting

variable (e : Setting) (name identity : String)

/-- A handle of a lock that an identity holds, which is not that holder's or does not count as held. -/
def Stale (x : Issued) : Prop := x.name = name ∧ (e.holder x.provider = identity → ¬ x.Active)

/-- The clock never goes back, and the holder of a lock does not set its record anew: a step through a held
handle of that holder leaves the record as it is. -/
def Undisturbed : List Traffic.Move → Traffic e.store.State → Prop
  | [], _ => True
  | m :: rest, t =>
    let next := e.flowStep m.faults t m.act
    m.act.Onward t.clock ∧
      (e.FlowUses t name identity m.act → e.store.find next.stage.store name = e.store.find t.stage.store name) ∧
      Undisturbed rest next

/-- The record of a lock that an identity holds, and how little stale handles do to it. -/
structure Harmless (t : Traffic e.store.State) (r : LockRecord) : Prop where
  record : e.store.find t.stage.store name = .ok (some r)
  lockedBy : r.lockedBy = identity
  /-- A release, an extension, a drop or a background release of a stale handle leaves the record alone. -/
  untouched : ∀ faults i x act, t.handles[i]? = some x → e.Stale name identity x → act.handle? = some i →
    e.store.find (e.step faults t.toWorld act).2.stage.store name = .ok (some r)
  /-- No extension of a stale handle succeeds. -/
  unextended : ∀ faults i x atMost atLeast, t.handles[i]? = some x → e.Stale name identity x →
    (e.step faults t.toWorld (.extend i atMost atLeast)).1 ≠ .extended (.ok true)
  /-- An extension that nothing else is wrong with tells that the lock is lost. -/
  refused : ∀ i x atMost atLeast, t.handles[i]? = some x → e.Stale name identity x → x.standing = .kept →
    x.lease.state ≠ .released → atLeast ≤ atMost →
    (e.step (fun _ => none) t.toWorld (.extend i atMost atLeast)).1 = .extended (.ok false)
  /-- As long as the lease runs as its holder has set it, the record stays and nobody acquires the lock. -/
  lasting : ∀ moves, e.Undisturbed name identity moves t → (e.flow moves t).clock < r.lockUntil →
    e.store.find (e.flow moves t).stage.store name = .ok (some r) ∧ e.acquirers name moves t = []

end Setting

variable {e : Setting} {name identity : String} {t : Traffic e.store.State} {r : LockRecord}
  {faults : Operation → Option StoreFault} {moves : List Traffic.Move}

/-! ## The holder of a record -/

/-- An acquisition leaves a record of its own. -/
theorem has_of_acquired {store : RecordStore} {d : Demand} {before after : store.State}
    (acquired : store.Acquired d before after) (sound : store.Sound after d.config.name)
    (keeps : store.Keeps after d.config.name ↔ store.Keeps before d.config.name) :
    store.Has after d.config.name (d.freshLease .instants).record := by
  refine ⟨sound, keeps.mpr acquired.keeps, ?_⟩
  rw [acquired.fresh, store.clock_eq]
  rfl

/-- A step from a record leads to a record. An acquisition finds the lease expired; other steps leave the
holder, and the record too unless they go through a handle that its holder counts as held. -/
theorem flowStep_has (faults : Operation → Option StoreFault) (act : Traffic.Act)
    (has : e.store.Has t.stage.store name r) :
    ∃ r', e.store.Has (e.flowStep faults t act).stage.store name r' ∧
      ((∃ provider, e.acquirer? faults name t act = some provider ∧ r.lockUntil ≤ t.clock ∧
          r'.lockedBy = e.holder provider) ∨
        (e.acquirer? faults name t act = none ∧ r'.lockedBy = r.lockedBy ∧
          (¬ e.FlowUses t name r.lockedBy act → r' = r))) := by
  obtain ⟨sound, keeps, effect⟩ := flowStep_lease faults act has.sound
  have keeps' := keeps.mpr has.keeps
  rcases effect with ⟨provider, config, won, rfl, acquired⟩ | ⟨nobody, unchanged | ⟨l, l', found, after, own, uses⟩⟩
  · have expired := acquired.expired _ has.lease
    rw [e.store.clock_eq] at expired
    exact ⟨_, has_of_acquired acquired sound keeps, .inl ⟨provider, won, expired, rfl⟩⟩
  · exact ⟨r, ⟨sound, keeps', unchanged.trans has.lease⟩, .inr ⟨nobody, rfl, fun _ => rfl⟩⟩
  · cases found.symm.trans has.lease
    exact ⟨l'.record, ⟨sound, keeps', after⟩, .inr ⟨nobody, own, fun unused => absurd uses unused⟩⟩

/-- A run without acquisitions leaves the holder of a record. -/
theorem flow_has (has : e.store.Has t.stage.store name r) (nobody : e.acquirers name moves t = []) :
    ∃ r', e.store.Has (e.flow moves t).stage.store name r' ∧ r'.lockedBy = r.lockedBy := by
  induction moves generalizing t r with
  | nil => exact ⟨r, has, rfl⟩
  | cons m rest ih =>
    obtain ⟨first, later⟩ := List.append_eq_nil_iff.mp nobody
    obtain ⟨r', next, ⟨provider, won, -⟩ | ⟨-, same, -⟩⟩ := flowStep_has m.faults m.act has
    · rw [won] at first
      cases first
    · obtain ⟨last, kept, own⟩ := ih next later
      exact ⟨last, kept, own.trans same⟩

/-- After a run the record of a name is that of whoever acquired the lock last. -/
theorem flow_acquired {provider : Nat} (sound : e.store.Sound t.stage.store name)
    (last : (e.acquirers name moves t).getLast? = some provider) :
    ∃ r, e.store.Has (e.flow moves t).stage.store name r ∧ r.lockedBy = e.holder provider := by
  induction moves generalizing t with
  | nil => cases last
  | cons m rest ih =>
    obtain ⟨sound', keeps, effect⟩ := flowStep_lease m.faults m.act sound
    rw [Setting.acquirers, List.getLast?_append] at last
    cases later : (e.acquirers name rest (e.flowStep m.faults t m.act)).getLast? with
    | some winner =>
      rw [later, Option.some_or] at last
      cases last
      exact ih sound' later
    | none =>
      rw [later, Option.none_or] at last
      rcases effect with ⟨winner, config, won, rfl, acquired⟩ | ⟨nobody, -⟩
      · rw [won] at last
        cases last
        exact flow_has (has_of_acquired acquired sound' keeps) (List.getLast?_eq_none_iff.mp later)
      · rw [nobody] at last
        cases last

/-! ## Stale handles -/

/-- An extension by anybody but the holder of a record is refused where it does not fail. -/
theorem extend_of_other {store : RecordStore} {s : store.State} {strategy : AcquireStrategy} {holder : String}
    {now : Instant} {config : LockConfig} (has : store.Has s config.name r) (other : holder ≠ r.lockedBy)
    (faults : Operation → Option StoreFault) :
    ((store.accessor strategy holder now faults).perform .extend config s).1 =
      match faults .extend with
      | some fault => .error fault
      | none => .ok false := by
  simp only [LeaseStore.accessor]
  cases faults .extend with
  | some fault => rfl
  | none =>
    have answer := store.perform_kept (a := { holder, config, now, strategy, op := .extend }) has.sound
      (store.timely now) has.keeps
    have refused : decide (r.lease.lockedBy = holder) = false := decide_eq_false other.symm
    rw [has.lease, Operation.applies, refused] at answer
    exact answer

variable {i : Nat} {x : Issued} {atMost atLeast : Duration}

theorem step_of_stale (has : e.store.Has t.stage.store name r) {act : World.Act} (there : t.handles[i]? = some x)
    (stale : e.Stale name r.lockedBy x) (through : act.handle? = some i) :
    e.store.find (e.step faults t.toWorld act).2.stage.store name = .ok (some r) := by
  have no_attempt : ∀ provider config, act ≠ .tryLock provider config := by
    rintro provider config rfl
    cases through
  obtain ⟨sound, keeps, unchanged | ⟨l, l', found, -, -, j, y, through', there', active, -, own⟩⟩ :=
    step_lease faults no_attempt has.sound
  · exact RecordStore.Has.find ⟨sound, keeps.mpr has.keeps, unchanged.trans has.lease⟩
  · cases found.symm.trans has.lease
    cases through.symm.trans through'
    cases there.symm.trans there'
    exact absurd active (stale.2 own)

/-- An extension through a handle that is kept: it is refused, or it fails for a reason of its own. -/
theorem extend_of_stale (faults : Operation → Option StoreFault) (atMost atLeast : Duration)
    (has : e.store.Has t.stage.store name r) (there : t.handles[i]? = some x) (stale : e.Stale name r.lockedBy x)
    (kept : x.standing = .kept) :
    (∃ refusal, (e.step faults t.toWorld (.extend i atMost atLeast)).1 = .extended (.error refusal) ∧
        (x.lease.state = .released ∨ ¬ atLeast ≤ atMost ∨ (faults .extend).isSome = true)) ∨
      (e.step faults t.toWorld (.extend i atMost atLeast)).1 = .extended (.ok false) := by
  obtain ⟨named, foreign⟩ := stale
  simp only [Setting.step, Issued.at?_eq_some.mpr ⟨there, kept⟩, Setting.extend]
  cases state : x.lease.state with
  | released =>
    rw [Lease.extend_released _ _ atMost atLeast state]
    exact .inl ⟨_, rfl, .inl rfl⟩
  | lost =>
    rw [Lease.extend_lost _ _ atMost atLeast state]
    exact .inr rfl
  | held =>
    cases allowed : x.lease.config.withDurations atMost atLeast with
    | error refusal =>
      rw [Lease.extend_refused _ _ state allowed]
      refine .inl ⟨refusal, rfl, .inr (.inl fun shorter => ?_)⟩
      have valid : x.lease.config.withDurations atMost atLeast = .ok ⟨x.lease.config.name, atMost, atLeast,
          x.lease.config.name_ne_empty, x.lease.config.name_length_le, shorter⟩ :=
        LockConfig.withDurations_eq_ok_iff.mpr ⟨rfl, rfl, rfl⟩
      cases allowed.symm.trans valid
    | ok extended =>
      have renamed : extended.name = name := (LockConfig.withDurations_eq_ok_iff.mp allowed).1.trans named
      have other : e.holder x.provider ≠ r.lockedBy := fun own => foreign own ⟨state, by simp [kept]⟩
      subst renamed
      rw [(Lease.extend_held _ _ state allowed).1, Setting.accessor, extend_of_other has other]
      cases failure : faults .extend with
      | some fault => exact .inl ⟨_, rfl, .inr (.inr rfl)⟩
      | none => exact .inr rfl

/-! ## While the lease runs -/

theorem clock_le_flowStep {act : Traffic.Act} (onward : act.Onward t.clock) :
    t.clock ≤ (e.flowStep faults t act).clock := by
  cases act with
  | advance i =>
    simp only [Setting.flowStep]
    split
    · rename_i u there
      rcases advance_cases e faults u with ⟨answer, -, same⟩ | ⟨-, -, next⟩
      · rw [same]
      · rw [next]
        exact le_rfl
    · exact le_rfl
  | act act =>
    cases act with
    | setClock now => exact onward
    | tryLock _ _ | find _ | clearCache _ => exact le_rfl
    | unlock i | extend i _ _ | drop i | settle i =>
      simp only [Setting.flowStep, Setting.step]
      split <;> exact le_rfl

theorem clock_le_flow (undisturbed : e.Undisturbed name identity moves t) : t.clock ≤ (e.flow moves t).clock := by
  induction moves generalizing t with
  | nil => exact le_rfl
  | cons m rest ih =>
    obtain ⟨onward, -, later⟩ := undisturbed
    exact (clock_le_flowStep onward).trans (ih later)

/-- While the lease of a record runs as its holder has set it, the record stays and nobody acquires the lock. -/
theorem flow_undisturbed (has : e.store.Has t.stage.store name r)
    (undisturbed : e.Undisturbed name r.lockedBy moves t) (live : (e.flow moves t).clock < r.lockUntil) :
    e.store.Has (e.flow moves t).stage.store name r ∧ e.acquirers name moves t = [] := by
  induction moves generalizing t with
  | nil => exact ⟨has, rfl⟩
  | cons m rest ih =>
    have running := (clock_le_flow undisturbed).trans_lt live
    obtain ⟨-, unset, later⟩ := undisturbed
    obtain ⟨r', next, ⟨provider, -, expired, -⟩ | ⟨nobody, -, same⟩⟩ := flowStep_has m.faults m.act has
    · exact absurd running (not_lt.mpr expired)
    · have unchanged : r' = r := by
        by_cases uses : e.FlowUses t name r.lockedBy m.act
        · cases next.find.symm.trans ((unset uses).trans has.find)
          rfl
        · exact same uses
      subst unchanged
      obtain ⟨last, none⟩ := ih next later live
      refine ⟨last, ?_⟩
      rw [Setting.acquirers, nobody, none]
      rfl

theorem harmless (has : e.store.Has t.stage.store name r) : e.Harmless name r.lockedBy t r where
  record := has.find
  lockedBy := rfl
  untouched _ _ _ _ there stale through := step_of_stale has there stale through
  unextended faults i x atMost atLeast there stale extended := by
    by_cases kept : x.standing = .kept
    · rcases extend_of_stale faults atMost atLeast has there stale kept with ⟨refusal, failed, -⟩ | refused
      · cases failed.symm.trans extended
      · cases refused.symm.trans extended
    · have missing : Issued.at? t.handles i .kept = none := by simp [Issued.at?, there, kept]
      rw [Setting.step, missing] at extended
      cases extended
  refused i x atMost atLeast there stale kept unreleased shorter := by
    rcases extend_of_stale (fun _ => none) atMost atLeast has there stale kept with
      ⟨refusal, -, released | longer | failed⟩ | refused
    · exact absurd released unreleased
    · exact absurd shorter longer
    · cases failed
    · exact refused
  lasting moves undisturbed live := by
    obtain ⟨last, nobody⟩ := flow_undisturbed has undisturbed live
    exact ⟨last.find, nobody⟩

/-- Whoever acquires a lock last, in whatever run: the handles of all other identities leave its record alone,
and are told that the lock is lost. -/
theorem stale_handles_harmless (holder : Nat → String) (name : String) (moves : List Traffic.Move) (provider : Nat) :
    (∀ (strategy : Nat → AcquireStrategy) (t : Traffic Records),
      let e : Setting := ⟨.memory, strategy, holder⟩
      (e.acquirers name moves t).getLast? = some provider →
        ∃ r, e.Harmless name (holder provider) (e.flow moves t) r) ∧
    (∀ (s : FileStore) (t : Traffic FileTree),
      let e : Setting := ⟨.file s, fun _ => .atomicProcedure, holder⟩
      s.Readable t.stage.store name → (e.acquirers name moves t).getLast? = some provider →
        ∃ r, e.Harmless name (holder provider) (e.flow moves t) r) := by
  constructor
  · intro strategy t e last
    obtain ⟨r, has, own⟩ := flow_acquired (e := e) trivial last
    have own : r.lockedBy = holder provider := own
    exact ⟨r, own ▸ harmless has⟩
  · intro s t e readable last
    obtain ⟨r, has, own⟩ := flow_acquired (e := e) readable last
    have own : r.lockedBy = holder provider := own
    exact ⟨r, own ▸ harmless has⟩

/-- A holder acquires a lock, and another one, which has begun to try before, when the lease has expired. -/
def takeover : List Traffic.Move :=
  { act := .act (.tryLock 0 .nightly) } :: List.replicate 3 { act := .advance 0 } ++
    [{ act := .act (.tryLock 1 .nightly) }, { act := .act (.setClock (Instant.epoch.add (.ofSeconds 60))) }] ++
    List.replicate 4 { act := .advance 1 }

/-- After a takeover in memory, and after one in files, the first holder's handle is harmless. -/
theorem stale_handles_harmless_takeover :
    let holder : Nat → String := fun provider => String.ofList (List.replicate provider.succ 'h')
    let memory : Setting := ⟨.memory, fun _ => .insertThenUpdate, holder⟩
    let file : Setting := ⟨.file ⟨[], ["locks"]⟩, fun _ => .atomicProcedure, holder⟩
    let records : Traffic Records := { stage := { store := ∅ }, clock := .epoch }
    let files : Traffic FileTree := { stage := { store := ⟨[["locks"]], ∅⟩ }, clock := .epoch }
    (∃ r, memory.Harmless "backup" (holder 1) (memory.flow takeover records) r) ∧
      ∃ r, file.Harmless "backup" (holder 1) (file.flow takeover files) r := by
  intro holder memory file records files
  obtain ⟨inMemory, inFiles⟩ := stale_handles_harmless holder "backup" takeover 1
  constructor
  · exact inMemory (fun _ => .insertThenUpdate) records (by decide +kernel)
  · exact inFiles ⟨[], ["locks"]⟩ files (FileStore.readable_of_no_file rfl) (by decide +kernel)

deriving instance DecidableEq for World.Answer

/-- A lease expires, and a provider of the same identity acquires the lock again, be it the same provider or
another one. Through the first handle the later lease can be extended and released, and after the release a
third holder acquires the lock long before the end that the later handle has set. -/
theorem same_identity_disturbs :
    let e : Setting :=
      ⟨.memory, fun _ => .insertThenUpdate, fun provider => if provider = 2 then "rival" else "node"⟩
    let second (n : Nat) : Instant := Instant.epoch.add (.ofSeconds n)
    let again (provider : Nat) : World Records :=
      (e.run [{ act := .tryLock 0 .nightly }, { act := .setClock (second 60) },
        { act := .tryLock provider .nightly }, { act := .setClock (second 61) }] (e.start (∅ : Records) .epoch)).2
    let seen (moves : List Move) : List (List Answer × Except StoreFault (Option LockRecord)) :=
      [again 0, again 1].map fun w =>
        let last := e.run moves w
        (last.1, e.store.find last.2.stage.store "backup")
    seen [] = List.replicate 2 ([], .ok (some ⟨"backup", second 120, second 60, "node"⟩)) ∧
      seen [{ act := .extend 0 (.ofSeconds 60) (.ofSeconds 5) }] =
        List.replicate 2 ([.extended (.ok true)], .ok (some ⟨"backup", second 121, second 61, "node"⟩)) ∧
      seen [{ act := .unlock 0 }] =
        List.replicate 2 ([.released (.ok ())], .ok (some ⟨"backup", second 65, second 60, "node"⟩)) ∧
      seen [{ act := .unlock 0 }, { act := .setClock (second 65) }, { act := .tryLock 2 .nightly }] =
        List.replicate 2 ([.released (.ok ()), .nothing, .attempted (.ok (some (.lease { config := .nightly })))],
          .ok (some ⟨"backup", second 125, second 65, "rival"⟩)) := by
  decide +kernel

end TaskLease

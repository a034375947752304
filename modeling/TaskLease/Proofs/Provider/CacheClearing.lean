import TaskLease.Proofs.Provider.Recovery
import TaskLease.Proofs.Provider.StaleHandles

/-!
# Clearing a cache while attempts are under way

When the record of a lock is taken out of the store behind a provider's back, the provider has to forget that it
exists, so its cache is cleared. An attempt may be under way meanwhile, and what its insert has learned of the
record goes into the registry only in a later phase.

`Purge.Outcome` says when the clearing does its work: if no attempt is just about to note the record. An attempt
that is does so afterwards, and from then on the provider goes straight to an update of a record that is not there.
`Unaware` and `Misled` are what traffic keeps up in the two cases, and `lateNote` is a run of the second kind.
-/

namespace TaskLease

/-- An attempt whose insert was answered, and which has yet to note that the record exists. -/
def Underway.IsNoting (u : Underway) : Prop := ∃ acquired, u.attempt = .remembering acquired

/-- The record of a lock is taken out behind the back of a provider, and then the cache of the provider is cleared.
Anything may go on before, in between and afterwards. -/
structure Purge (e : Setting) where
  provider : Nat
  lasting : e.strategy provider = .insertThenUpdate
  name : String
  store : e.store.State
  now : Instant
  before : List Traffic.Move
  /-- What is left in the store when the record is taken out. -/
  purged : e.store.State
  sound : e.store.Sound purged name
  keeps : e.store.Keeps purged name
  gone : e.store.lease purged name = none
  between : List Traffic.Move
  after : List Traffic.Move

namespace Purge

variable {e : Setting} (x : Purge e)

/-- The world when the record has been taken out. -/
def taken : Traffic e.store.State :=
  let t := e.flow x.before { toWorld := e.start x.store x.now }
  { t with stage := { t.stage with store := x.purged } }

/-- The world when the cache is about to be cleared. -/
def uncleared : Traffic e.store.State := e.flow x.between x.taken

/-- The world when the cache has just been cleared. -/
def cleared : Traffic e.store.State := e.flowStep (fun _ => none) x.uncleared (.act (.clearCache x.provider))

/-- The world in the end. -/
def last : Traffic e.store.State := e.flow x.after x.cleared

/-- In the end there is no record, so nobody has created one since. -/
def NoRecord : Prop := e.store.find x.last.stage.store x.name = .ok none

/-- All attempts that began before the cache was cleared are over in the end. -/
def Over : Prop :=
  ∀ (i : Nat) (u : Underway), x.uncleared.attempts[i]? = some u →
    ∃ (v : Underway) (answer : Except StoreFault Bool), x.last.attempts[i]? = some v ∧ v.attempt = .finished answer

/-- The next attempt that meets no fault creates the record, and gives out a handle. -/
def Inserts (config : LockConfig) : Prop :=
  let next := e.tryLock (fun _ => none) x.last.toWorld x.provider config
  next.1 = .attempted (.ok (some (.lease { config }))) ∧
    e.store.find next.2.stage.store x.name =
      .ok (some ⟨x.name, x.last.clock.add config.atMost, x.last.clock, e.holder x.provider⟩)

/-- The next attempt that meets no fault is turned away, and nothing is different after it. -/
def Blocks (config : LockConfig) : Prop :=
  let next := e.tryLock (fun _ => none) x.last.toWorld x.provider config
  next.1 = .attempted (.ok none) ∧ e.store.find next.2.stage.store x.name = .ok none ∧
    next.2.registries = x.last.registries

/-- The cache was cleared with effect: once all is over and no record has come back, the next attempt inserts one. -/
def Effective : Prop := x.Over → x.NoRecord → ∀ config, config.name = x.name → x.Inserts config

/-- What becomes of a provider after its cache was cleared. -/
structure Outcome : Prop where
  /-- If no attempt is about to note the record, the next one inserts it, whatever fails meanwhile. -/
  effective : (∀ u ∈ x.uncleared.attempts, u.IsFor x.provider x.name → ¬ u.IsNoting) →
    x.NoRecord → ∀ config, config.name = x.name → x.Inserts config
  /-- If one is, and nothing has failed just before or fails afterwards, all attempts are turned away until the cache
  is cleared again. -/
  blocked : (∃ u ∈ x.uncleared.attempts, u.IsFor x.provider x.name ∧ u.IsNoting) →
    (∀ u ∈ x.uncleared.attempts, u.IsFor x.provider x.name → ∀ fault, u.attempt ≠ .forgetting fault) →
    (∀ m ∈ x.after, m.faults = (fun _ => none) ∧ m.act ≠ .act (.clearCache x.provider)) →
      x.Over → x.NoRecord → ∀ config, config.name = x.name → x.Blocks config

end Purge

/-- There is no record where there is no lease. -/
theorem RecordStore.find_none_iff {store : RecordStore} {s : store.State} {name : String}
    (sound : store.Sound s name) (keeps : store.Keeps s name) :
    store.find s name = .ok none ↔ store.lease s name = none := by
  obtain ⟨found, answer, lease⟩ := store.find_kept sound keeps
  rw [answer, lease, Except.ok.injEq, Option.map_eq_none_iff]

/-! ## What an attempt learns -/

section

variable {e : Setting} {faults : Operation → Option StoreFault} {provider : Nat} {now : Instant}
  {config : LockConfig} {a : Attempt} {registry : Registry} {s : e.store.State}

/-- Where an insert was answered there is a record. -/
theorem present_of_inserted (sound : e.store.Sound s config.name) {acquired : Bool}
    (answered : ((e.accessor faults provider now).perform .insert config s).1 = .ok acquired) :
    (e.store.lease ((e.accessor faults provider now).perform .insert config s).2 config.name).isSome = true := by
  rcases perform_acquisition (e.strategy provider) (e.holder provider) faults .insert rfl sound
    (e.store.timely now) with ⟨refused, unchanged, present⟩ | ⟨-, won⟩
  · cases acquired with
    | true => exact absurd answered refused
    | false => exact (congrArg Option.isSome unchanged).trans (present rfl answered)
  · exact congrArg Option.isSome won.fresh

/-- As long as there is no record, an attempt has nothing to note, and a registry that does not know the name does
not come to know it. -/
theorem phase_unaware (faults : Operation → Option StoreFault) (provider : Nat) (now : Instant)
    (sound : e.store.Sound s config.name) (unknown : registry.contains config.name = false)
    (nothing : ∀ acquired, a ≠ .remembering acquired)
    (absent : e.store.lease (a.step (e.accessor faults provider now) config registry s).2.2 config.name = none) :
    let next := a.step (e.accessor faults provider now) config registry s
    next.2.1.contains config.name = false ∧ ∀ acquired, next.1 ≠ .remembering acquired := by
  cases a with
  | looking =>
    refine ⟨unknown, ?_⟩
    intro acquired
    simp [Attempt.step, Attempt.afterLook, unknown]
  | inserting remembers =>
    refine ⟨unknown, ?_⟩
    intro acquired
    cases answered : ((e.accessor faults provider now).perform .insert config s).1 with
    | error fault => simp [Attempt.step, answered, Attempt.afterInsert]
    | ok acquired =>
      have present := present_of_inserted sound answered
      have nothing_there : e.store.lease ((e.accessor faults provider now).perform .insert config s).2 config.name =
        none := absent
      rw [nothing_there] at present
      cases present
  | remembering acquired => exact absurd rfl (nothing acquired)
  | updating inserted =>
    refine ⟨unknown, ?_⟩
    intro acquired
    simp only [Attempt.step]
    rcases ((e.accessor faults provider now).perform .update config s).1 with fault | updated
    · cases inserted <;> simp [Attempt.afterUpdate]
    · simp [Attempt.afterUpdate]
  | forgetting fault => exact ⟨by simp [Attempt.step, Registry.contains_remove], by simp [Attempt.step]⟩
  | finished answer => exact ⟨unknown, by simp [Attempt.step]⟩

/-- Where nothing fails, an attempt that has nothing to forget goes on with nothing to forget, and what a registry
knows stays known. -/
theorem phase_steady (provider : Nat) (now : Instant) (registry : Registry) (sound : e.store.Sound s config.name)
    (keeps : e.store.Keeps s config.name) (steady : ∀ fault, a ≠ .forgetting fault) :
    let next := a.step (e.accessor (fun _ => none) provider now) config registry s
    (∀ fault, next.1 ≠ .forgetting fault) ∧
      (registry.contains config.name = true → next.2.1.contains config.name = true) ∧
      ((∃ acquired, a = .remembering acquired) → next.2.1.contains config.name = true) := by
  cases a with
  | looking =>
    refine ⟨?_, id, by simp⟩
    intro fault
    simp only [Attempt.step, Attempt.afterLook]
    split <;> simp
  | inserting remembers =>
    refine ⟨?_, id, by simp⟩
    intro fault
    simp only [Attempt.step]
    rcases ((e.accessor (fun _ => none) provider now).perform .insert config s).1 with fault | inserted
    · simp [Attempt.afterInsert]
    · cases remembers <;> simp [Attempt.afterInsert]
  | remembering acquired =>
    refine ⟨?_, fun _ => ?_, fun _ => ?_⟩
    · intro fault
      cases acquired <;> simp [Attempt.step, Attempt.afterRemember]
    · simp [Attempt.step, Registry.contains_add]
    · simp [Attempt.step, Registry.contains_add]
  | updating inserted =>
    have answered : ∃ updated, ((e.accessor (fun _ => none) provider now).perform .update config s).1 = .ok updated :=
      ⟨_, e.store.perform_kept
        (a := { holder := e.holder provider, config, now, strategy := e.strategy provider, op := .update })
        sound (e.store.timely now) keeps⟩
    obtain ⟨updated, answered⟩ := answered
    refine ⟨?_, id, by simp⟩
    intro fault
    simp [Attempt.step, answered, Attempt.afterUpdate]
  | forgetting fault => exact absurd rfl (steady fault)
  | finished answer => exact ⟨by simp [Attempt.step], id, by simp⟩

end

/-! ## What traffic keeps up -/

/-- A provider does not know of a record, and no attempt of it is about to note one. -/
structure Unaware (e : Setting) (provider : Nat) (name : String) (t : Traffic e.store.State) : Prop where
  unknown : (t.registries provider).contains name = false
  nothing : ∀ u ∈ t.attempts, u.IsFor provider name → ¬ u.IsNoting

/-- A provider knows of a record, or one of its attempts is about to note it, and no attempt is about to forget it. -/
structure Misled (e : Setting) (provider : Nat) (name : String) (i : Nat) (t : Traffic e.store.State) : Prop where
  noted : (t.registries provider).contains name = true ∨
    ∃ u, t.attempts[i]? = some u ∧ u.IsFor provider name ∧ u.IsNoting
  steady : ∀ u ∈ t.attempts, u.IsFor provider name → ∀ fault, u.attempt ≠ .forgetting fault

section

variable {e : Setting} {provider i : Nat} {name : String} {t : Traffic e.store.State}

/-- An attempt begins with nothing to note and nothing to forget. -/
theorem first_plain (strategy : AcquireStrategy) :
    (∀ acquired, Attempt.first strategy ≠ .remembering acquired) ∧
      ∀ fault, Attempt.first strategy ≠ .forgetting fault := by
  unfold Attempt.first
  split <;> simp

/-- A step that leaves no record leaves a provider unaware of one. -/
theorem Unaware.flowStep (unaware : Unaware e provider name t) (faults : Operation → Option StoreFault)
    (act : Traffic.Act) (sound : e.store.Sound t.stage.store name)
    (absent : e.store.lease (e.flowStep faults t act).stage.store name = none) :
    Unaware e provider name (e.flowStep faults t act) := by
  obtain ⟨unknown, nothing⟩ := unaware
  have phase (j : Nat) (u : Underway) (goes : act = .advance j) (there : t.attempts[j]? = some u)
      (own : u.IsFor provider name) :
      let next := u.attempt.step (e.accessor faults u.provider t.clock) u.config (t.registries u.provider) t.stage.store
      next.2.1.contains name = false ∧ ∀ acquired, next.1 ≠ .remembering acquired := by
    subst goes
    obtain ⟨rfl, rfl⟩ := own
    rw [(flowStep_advance faults there).1] at absent
    refine phase_unaware faults u.provider t.clock sound unknown ?_ absent
    intro acquired noting
    exact nothing u (List.mem_of_getElem? there) ⟨rfl, rfl⟩ ⟨acquired, noting⟩
  constructor
  · rcases contains_flowStep faults t act provider name with same | ⟨-, cleared⟩ | ⟨j, u, goes, there, own, next⟩
    · exact same.trans unknown
    · exact cleared
    · rw [next]
      exact (phase j u goes there own).1
  · apply attempts_flowStep faults act nothing
    · rintro p config - ⟨acquired, noting⟩
      exact (first_plain _).1 acquired noting
    · rintro j u goes there own ⟨acquired, noting⟩
      exact (phase j u goes there own).2 acquired noting

/-- While there is no record in the end, a provider stays unaware of one. -/
theorem Unaware.flow (unaware : Unaware e provider name t) (moves : List Traffic.Move)
    (sound : e.store.Sound t.stage.store name) (absent : e.store.lease (e.flow moves t).stage.store name = none) :
    Unaware e provider name (e.flow moves t) := by
  induction moves generalizing t with
  | nil => exact unaware
  | cons m rest ih =>
    have sound' := (flowStep_lease m.faults m.act sound).1
    refine ih (unaware.flowStep m.faults m.act sound ?_) sound' absent
    -- A record left by this step would still be there in the end.
    apply Option.not_isSome_iff_eq_none.mp
    intro present
    have present_last := (flow_frame rest sound').2.2 present
    rw [Setting.flow] at absent
    rw [absent] at present_last
    cases present_last

/-- Where nothing fails and the cache is not cleared again, a provider that is misled stays so. -/
theorem Misled.flowStep (misled : Misled e provider name i t) {act : Traffic.Act}
    (kept : act ≠ .act (.clearCache provider)) (sound : e.store.Sound t.stage.store name)
    (keeps : e.store.Keeps t.stage.store name) : Misled e provider name i (e.flowStep (fun _ => none) t act) := by
  obtain ⟨noted, steady⟩ := misled
  have phase {j : Nat} {u : Underway} (there : t.attempts[j]? = some u) (own : u.IsFor provider name) :
      let next := u.attempt.step (e.accessor (fun _ => none) u.provider t.clock) u.config (t.registries u.provider)
        t.stage.store
      (∀ fault, next.1 ≠ .forgetting fault) ∧
        ((t.registries provider).contains name = true → next.2.1.contains name = true) ∧
        (u.IsNoting → next.2.1.contains name = true) := by
    have calm := steady u (List.mem_of_getElem? there) own
    obtain ⟨rfl, rfl⟩ := own
    exact phase_steady u.provider t.clock (t.registries u.provider) sound keeps calm
  constructor
  · rcases noted with knows | ⟨u, there, own, noting⟩
    · left
      rcases contains_flowStep (fun _ => none) t act provider name with
        same | ⟨clearing, -⟩ | ⟨j, u, -, there, own, next⟩
      · exact same.trans knows
      · exact absurd clearing kept
      · rw [next]
        exact (phase there own).2.1 knows
    · by_cases goes : act = .advance i
      · subst goes
        left
        rw [(flowStep_advance _ there).2.1, ← own.1, Function.update_self]
        exact (phase there own).2.2 noting
      · exact .inr ⟨u, attempt_flowStep_of_ne _ goes there, own, noting⟩
  · apply attempts_flowStep _ act steady
    · intro p config _ fault
      exact (first_plain _).2 fault
    · intro j u _ there own
      exact (phase there own).1

theorem Misled.flow (misled : Misled e provider name i t) {moves : List Traffic.Move}
    (plain : ∀ m ∈ moves, m.faults = (fun _ => none) ∧ m.act ≠ .act (.clearCache provider))
    (sound : e.store.Sound t.stage.store name) (keeps : e.store.Keeps t.stage.store name) :
    Misled e provider name i (e.flow moves t) := by
  induction moves generalizing t with
  | nil => exact misled
  | cons m rest ih =>
    obtain ⟨faultless, kept⟩ := plain m List.mem_cons_self
    obtain ⟨sound', keeps', -⟩ := flowStep_lease m.faults m.act sound
    refine ih ?_ (fun m member => plain m (List.mem_cons_of_mem _ member)) sound' (keeps'.mpr keeps)
    rw [faultless]
    exact misled.flowStep kept sound keeps

end

/-! ## The next attempt -/

section

variable {e : Setting} {provider : Nat} {w : World e.store.State} {config : LockConfig}

/-- Where there is no record, an attempt of a provider that knows of none creates one. -/
theorem tryLock_unaware (sound : e.store.Sound w.stage.store config.name)
    (keeps : e.store.Keeps w.stage.store config.name) (absent : e.store.lease w.stage.store config.name = none)
    (unknown : (w.registries provider).contains config.name = false) :
    let next := e.tryLock (fun _ => none) w provider config
    next.1 = .attempted (.ok (some (.lease { config }))) ∧
      e.store.Has next.2.stage.store config.name
        ⟨config.name, w.clock.add config.atMost, w.clock, e.holder provider⟩ := by
  have timely := e.store.timely w.clock
  obtain ⟨answer, -, store, -, -⟩ := e.tryLock_spec (fun _ => none) w provider config
  have known : (w.registries provider).contains config.name = true →
      (e.store.lease w.stage.store config.name).isSome = true := by
    simp [unknown]
  obtain ⟨won, fresh⟩ := acquire_free (e.strategy provider) (e.holder provider) sound timely keeps
    (by simp [absent]) known
  rw [Setting.accessor, won] at answer
  refine ⟨answer, ?_, ?_, ?_⟩
  · rw [store]
    exact sound_acquire _ _ _ config _ sound timely
  · rw [store]
    exact (keeps_acquire _ _ _ config _ _ _ timely).mpr keeps
  · rw [e.store.clock_eq] at fresh
    rw [store]
    exact fresh

/-- Where there is no record, an attempt of a provider that thinks there is one is turned away. -/
theorem tryLock_misled (lasting : e.strategy provider = .insertThenUpdate)
    (sound : e.store.Sound w.stage.store config.name) (keeps : e.store.Keeps w.stage.store config.name)
    (absent : e.store.lease w.stage.store config.name = none)
    (known : (w.registries provider).contains config.name = true) :
    let next := e.tryLock (fun _ => none) w provider config
    next.1 = .attempted (.ok none) ∧ e.store.find next.2.stage.store config.name = .ok none ∧
      next.2.registries = w.registries := by
  have timely := e.store.timely w.clock
  obtain ⟨answer, -, store, registries, -⟩ := e.tryLock_spec (fun _ => none) w provider config
  let access : Access :=
    { holder := e.holder provider, config, now := w.clock, strategy := e.strategy provider, op := .update }
  have lasts : (e.accessor (fun _ => none) provider w.clock).strategy.insertReclaims = false :=
    congrArg AcquireStrategy.insertReclaims lasting
  have refused : (e.store.perform access w.stage.store).1 = .ok false := by
    rw [e.store.perform_kept sound timely keeps, absent]
    rfl
  have unchanged : e.store.lease (e.store.perform access w.stage.store).2 config.name = none := by
    have after := e.store.lease_perform_kept (a := access) sound timely keeps
    rwa [absent] at after
  have whole : acquire (e.accessor (fun _ => none) provider w.clock) config (w.registries provider) w.stage.store =
      (.ok false, w.registries provider, (e.store.perform access w.stage.store).2) :=
    (acquire_known lasts known).trans (congrArg (fun answer => (answer, _)) refused)
  rw [whole] at answer store registries
  refine ⟨answer, ?_, ?_⟩
  · rw [store]
    exact (RecordStore.find_none_iff (e.store.sound_perform sound timely) (e.store.keeps_perform.mpr keeps)).mpr
      unchanged
  · rw [registries]
    exact Function.update_eq_self ..

end

/-! ## Purges -/

namespace Purge

variable {e : Setting} (x : Purge e)

theorem cleared_kept : e.store.Sound x.cleared.stage.store x.name ∧ e.store.Keeps x.cleared.stage.store x.name := by
  obtain ⟨sound, keeps, -⟩ := flow_frame (t := x.taken) x.between x.sound
  exact ⟨sound, keeps.mpr x.keeps⟩

theorem last_kept : e.store.Sound x.last.stage.store x.name ∧ e.store.Keeps x.last.stage.store x.name := by
  obtain ⟨sound, keeps⟩ := x.cleared_kept
  obtain ⟨sound', keeps', -⟩ := flow_frame x.after sound
  exact ⟨sound', keeps'.mpr keeps⟩

theorem absent_of_noRecord (nothing : x.NoRecord) : e.store.lease x.last.stage.store x.name = none := by
  obtain ⟨sound, keeps⟩ := x.last_kept
  exact (RecordStore.find_none_iff sound keeps).mp nothing

/-- Clearing the cache leaves a provider unaware, unless an attempt is about to note the record. -/
theorem unaware_cleared (quiet : ∀ u ∈ x.uncleared.attempts, u.IsFor x.provider x.name → ¬ u.IsNoting) :
    Unaware e x.provider x.name x.cleared := by
  refine ⟨?_, quiet⟩
  have registry : x.cleared.registries x.provider = (x.uncleared.registries x.provider).clear :=
    Function.update_self ..
  rw [registry, Registry.contains_clear]

end Purge

/-- When a record is taken out behind a provider's back and its cache is cleared, the next attempt creates the record
again, however attempts interleave with that and whatever fails, unless an attempt is about to note the record at the
moment when the cache is cleared. If one is, the provider turns all attempts away from then on. -/
theorem purge_outcome (e : Setting) (x : Purge e) : x.Outcome where
  effective := by
    intro quiet nothing config named
    obtain ⟨sound, keeps⟩ := x.last_kept
    have absent := x.absent_of_noRecord nothing
    have unaware := (x.unaware_cleared quiet).flow x.after x.cleared_kept.1 absent
    rw [← named] at sound keeps absent
    obtain ⟨answer, has⟩ := tryLock_unaware sound keeps absent (named ▸ unaware.unknown)
    exact ⟨answer, named ▸ has.find⟩
  blocked := by
    rintro ⟨u, member, own, noting⟩ calm plain all_over nothing config named
    obtain ⟨sound, keeps⟩ := x.last_kept
    have absent := x.absent_of_noRecord nothing
    obtain ⟨i, there⟩ := List.mem_iff_getElem?.mp member
    have misled : Misled e x.provider x.name i x.cleared := ⟨.inr ⟨u, there, own, noting⟩, calm⟩
    have known : (x.last.registries x.provider).contains x.name = true := by
      rcases (misled.flow plain x.cleared_kept.1 x.cleared_kept.2).noted with known | ⟨v, here, -, acquired, noting⟩
      · exact known
      -- The attempt that was about to note the record is over, so it is not about to note it any more.
      · obtain ⟨w, answer, there', ended⟩ := all_over i u there
        cases here.symm.trans there'
        cases noting.symm.trans ended
    rw [← named] at sound keeps absent known
    obtain ⟨answer, gone, registries⟩ := tryLock_misled x.lasting sound keeps absent known
    exact ⟨answer, named ▸ gone, registries⟩

/-- A rival holds a lock, and the insert of an attempt is refused for that. Before the attempt notes that there is a
record, the record is taken out and the cache is cleared. -/
def lateNote : Purge ⟨.memory, fun _ => .insertThenUpdate, fun provider => if provider = 0 then "node" else "rival"⟩ where
  provider := 0
  lasting := rfl
  name := "backup"
  store := (∅ : Records)
  now := .epoch
  before := { act := .act (.tryLock 1 .nightly) } :: List.replicate 3 { act := .advance 0 } ++
    { act := .act (.tryLock 0 .nightly) } :: List.replicate 2 { act := .advance 1 }
  purged := (∅ : Records)
  sound := trivial
  keeps := trivial
  gone := rfl
  between := []
  after := List.replicate 2 { act := .advance 1 }

/-- The late note makes the clearing void: there is no record, and the next attempt is turned away all the same. -/
theorem late_note_blocks : ¬ lateNote.Effective := by
  intro effective
  have all_over : lateNote.Over := by
    intro i u there
    have bound : i < 2 := (List.getElem?_eq_some_iff.mp there).1
    match i with
    | 0 => exact ⟨_, .ok true, rfl, rfl⟩
    | 1 => exact ⟨_, .ok false, rfl, rfl⟩
  have nothing : lateNote.NoRecord := rfl
  have inserts := effective all_over nothing .nightly rfl
  have turned_away : (Setting.tryLock _ (fun _ => none) lateNote.last.toWorld 0 .nightly).1 = .attempted (.ok none) := by
    decide +kernel
  exact absurd (turned_away.symm.trans inserts.1) (by decide)

/-- Had the attempt noted the record before the cache was cleared, the next attempt would create it again. -/
example :
    let x := { lateNote with between := [{ act := .advance 1 }], after := [{ act := .advance 1 }] }
    (Setting.tryLock _ (fun _ => none) x.last.toWorld 0 .nightly).1 =
      .attempted (.ok (some (.lease { config := .nightly }))) := by
  decide +kernel

end TaskLease

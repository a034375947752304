import TaskLease.Proofs.Provider.Calls
import TaskLease.Proofs.Provider.Reference
import TaskLease.Proofs.Provider.Traffic

/-!
# Recovery after faults

A provider's registry is a cache of which records exist. Whatever fails, and wherever, it never claims more than
there is: `Intact` says so of all registries of a world, and every step keeps it up, since no step removes a
record. An intact world shows what a reference shows, which has no registries, so the next attempt that meets no
fault goes as if the cache were empty, and clearing a cache is not seen by anybody.
-/

namespace TaskLease

open World

namespace World.Act

/-- Whether a step clears a cache. -/
def clears : Act → Bool
  | .clearCache _ => true
  | .tryLock _ _ | .unlock _ | .extend _ _ _ | .drop _ | .settle _ | .find _ | .setClock _ => false

end World.Act

namespace Setting

variable (e : Setting)

/-- A name that the store can keep a record under, and under which there is a record or nothing. -/
def Accepts (s : e.store.State) (name : String) : Prop := e.store.Sound s name ∧ e.store.Keeps s name

/-- A world that can be reached from a store by steps that ask for accepted names, whatever fails in them. -/
def Reaches (s : e.store.State) (now : Instant) (w : World e.store.State) : Prop :=
  ∃ moves : List Move, (∀ m ∈ moves, m.act.Accepted (e.Accepts s)) ∧ (e.run moves (e.start s now)).2 = w

/-- The answers of some steps in which nothing fails, and the world after them. -/
def faultless (s : e.store.State) (now : Instant) (acts : List Act) : List Answer × World e.store.State :=
  e.run (acts.map fun act => { act }) (e.start s now)

/-- Some steps in which nothing fails, with their answers. The clearing of caches is left out. -/
def seen (s : e.store.State) (now : Instant) (acts : List Act) : List (Act × Answer) :=
  (acts.zip (e.faultless s now acts).1).filter fun entry => !entry.1.clears

/-- What is remembered about records does no lasting harm. -/
structure Recovers (s : e.store.State) (now : Instant) : Prop where
  /-- Every name that a provider remembers has a record. -/
  known : ∀ w, e.Reaches s now w → ∀ provider, ∀ name ∈ (w.registries provider).names,
    ∃ r, e.store.find w.stage.store name = .ok (some r)
  /-- An attempt that fails leaves the registries as they were. -/
  failed : ∀ w, e.Reaches s now w → ∀ faults provider config error,
    (e.tryLock faults w provider config).1 = .attempted (.error error) →
      (e.tryLock faults w provider config).2.registries = w.registries
  /-- The next attempt that meets no fault gives out a handle if and only if there is no record or an expired one,
  and answers as it would with an empty registry. -/
  retried : ∀ w, e.Reaches s now w → ∀ provider config, e.Accepts s config.name →
    let forgetful := { w with registries := Function.update w.registries provider .empty }
    ∃ found, e.store.find w.stage.store config.name = .ok found ∧
      (e.tryLock (fun _ => none) w provider config).1 = .attempted
        (.ok (if found.all fun r => r.lockUntil ≤ w.clock then some (.lease { config }) else none)) ∧
      (e.tryLock (fun _ => none) forgetful provider config).1 = (e.tryLock (fun _ => none) w provider config).1
  /-- Where nothing fails, it makes no difference when caches are cleared. -/
  clearing : ∀ acts acts' : List Act, (∀ act ∈ acts, act.Accepted (e.Accepts s)) →
    (acts.filter fun act => !act.clears) = (acts'.filter fun act => !act.clears) →
      e.seen s now acts = e.seen s now acts' ∧ ∀ name, e.Accepts s name →
        e.store.find (e.faultless s now acts).2.stage.store name =
          e.store.find (e.faultless s now acts').2.stage.store name

end Setting

/-! ## Attempts that fail -/

/-- What was not remembered before is forgotten without a trace. -/
theorem Registry.remove_add {r : Registry} {name : String} (unknown : r.contains name = false) :
    (r.add name).remove name = r := by
  obtain ⟨names, nodup⟩ := r
  have fresh : name ∉ names := by simpa [contains] using unknown
  have others : (name :: names).filter (· ≠ name) = names := by
    rw [List.filter_cons_of_neg (by simp)]
    apply List.filter_eq_self.mpr
    intro other member
    simp only [decide_eq_true_eq]
    rintro rfl
    exact fresh member
  rw [add, dif_neg fresh]
  simp only [remove]
  congr

theorem registry_of_failed {σ : Type} {accessor : Accessor σ} {config : LockConfig} {registry : Registry} {s : σ}
    {fault : StoreFault} (failed : (acquire accessor config registry s).1 = .error fault) :
    (acquire accessor config registry s).2.1 = registry := by
  cases reclaims : accessor.strategy.insertReclaims with
  | true => rw [acquire_reclaiming reclaims]
  | false =>
    cases known : registry.contains config.name with
    | true => rw [acquire_known reclaims known]
    | false =>
      revert failed
      rw [acquire_unknown reclaims known]
      rcases (accessor.perform .insert config s).1 with fault | _ | _
      · exact fun _ => rfl
      · rcases (accessor.perform .update config (accessor.perform .insert config s).2).1 with fault | acquired
        · exact fun _ => Registry.remove_add known
        · exact fun failed => by cases failed
      · exact fun failed => by cases failed

/-! ## What no fault breaks -/

/-- What registries remember is there, and what was asked for is accepted. -/
structure Intact (e : Setting) (accepted : String → Prop) (w : World e.store.State) : Prop where
  sound : ∀ name, accepted name → e.store.Sound w.stage.store name
  keeps : ∀ name, accepted name → e.store.Keeps w.stage.store name
  known : ∀ provider name, (w.registries provider).contains name = true →
    accepted name ∧ (e.store.lease w.stage.store name).isSome = true
  names : ∀ x ∈ w.handles, accepted x.name

section

variable {e : Setting} {accepted : String → Prop} {w : World e.store.State}

theorem intact_start {s : e.store.State} (now : Instant) (accepts : ∀ name, accepted name → e.Accepts s name) :
    Intact e accepted (e.start s now) where
  sound name name_accepted := (accepts name name_accepted).1
  keeps name name_accepted := (accepts name name_accepted).2
  known _ _ knows := by cases knows
  names _ member := by cases member

/-- A lease is there after an attempt if it was before. -/
theorem isSome_lease_acquire {name : String} (faults : Operation → Option StoreFault) (provider : Nat) (now : Instant)
    (config : LockConfig) (registry : Registry) {s : e.store.State} (sound : e.store.Sound s name)
    (present : (e.store.lease s name).isSome = true) :
    (e.store.lease (acquire (e.accessor faults provider now) config registry s).2.2 name).isSome = true := by
  by_cases same : config.name = name
  · subst same
    rcases acquire_effect (e.strategy provider) (e.holder provider) faults registry sound (e.store.timely now) with
      ⟨-, unchanged⟩ | ⟨-, acquired⟩
    · exact (congrArg Option.isSome unchanged).trans present
    · exact congrArg Option.isSome acquired.fresh
  · obtain ⟨unchanged, -⟩ := acquire_of_ne (e.strategy provider) (e.holder provider) faults registry s
      (e.store.timely now) same
    exact (congrArg Option.isSome unchanged).trans present

theorem Intact.tryLock (intact : Intact e accepted w) (faults : Operation → Option StoreFault) (provider : Nat)
    {config : LockConfig} (name_accepted : accepted config.name) :
    Intact e accepted (e.tryLock faults w provider config).2 := by
  have timely := e.store.timely w.clock
  obtain ⟨-, -, store, registries, handles⟩ := e.tryLock_spec faults w provider config
  constructor
  · intro name name_accepted
    rw [store]
    exact sound_acquire _ _ faults config _ (intact.sound name name_accepted) timely
  · intro name name_accepted
    rw [store]
    exact (keeps_acquire _ _ faults config _ _ name timely).mpr (intact.keeps name name_accepted)
  · intro other name knows
    rw [registries] at knows
    rw [store]
    by_cases mine : other = provider
    · subst mine
      rw [Function.update_self] at knows
      by_cases same : config.name = name
      · subst same
        refine ⟨name_accepted, ?_⟩
        exact (acquire_cases (e.strategy other) (e.holder other) faults (intact.sound config.name name_accepted) timely
          fun knows => (intact.known other config.name knows).2).1 knows
      · have before := (acquire_of_ne (e.strategy other) (e.holder other) faults (w.registries other) w.stage.store
          timely same).2
        obtain ⟨accepted_name, present⟩ := intact.known other name (before.symm.trans knows)
        exact ⟨accepted_name,
          isSome_lease_acquire faults other w.clock config _ (intact.sound name accepted_name) present⟩
    · rw [Function.update_of_ne mine] at knows
      obtain ⟨accepted_name, present⟩ := intact.known other name knows
      exact ⟨accepted_name,
        isSome_lease_acquire faults provider w.clock config _ (intact.sound name accepted_name) present⟩
  · intro x member
    rw [handles] at member
    rcases List.mem_append.mp member with old | given
    · exact intact.names x old
    · rw [Issued.name_ofAnswer given]
      exact name_accepted

/-- A step that is no attempt makes no provider remember anything. -/
theorem known_step (faults : Operation → Option StoreFault) {act : Act}
    (no_attempt : ∀ provider config, act ≠ .tryLock provider config) {provider : Nat} {name : String}
    (knows : ((e.step faults w act).2.registries provider).contains name = true) :
    (w.registries provider).contains name = true := by
  by_cases clearing : act = .clearCache provider
  · subst clearing
    simp [Setting.step] at knows
  · rwa [registries_step faults no_attempt clearing] at knows

/-- It leaves handles of the same locks. -/
theorem names_step (faults : Operation → Option StoreFault) {act : Act}
    (no_attempt : ∀ provider config, act ≠ .tryLock provider config) (names : ∀ x ∈ w.handles, accepted x.name) :
    ∀ x ∈ (e.step faults w act).2.handles, accepted x.name := by
  cases act with
  | tryLock provider config => exact absurd rfl (no_attempt provider config)
  | find _ | setClock _ | clearCache _ => exact names
  | unlock i =>
    simp only [Setting.step]
    split
    · rename_i x found
      exact accepted_set names (Issued.at?_eq_some.mp found).1 (Lease.name_unlock _ _ x.lease)
    · exact names
  | extend i atMost atLeast =>
    simp only [Setting.step]
    split
    · rename_i x found
      exact accepted_set names (Issued.at?_eq_some.mp found).1 (Lease.name_extend _ _ x.lease atMost atLeast)
    · exact names
  | drop i | settle i =>
    simp only [Setting.step]
    split
    · rename_i x found
      exact accepted_set names (Issued.at?_eq_some.mp found).1 rfl
    · exact names

theorem Intact.step (intact : Intact e accepted w) (faults : Operation → Option StoreFault) {act : Act}
    (act_accepted : act.Accepted accepted) : Intact e accepted (e.step faults w act).2 := by
  rcases act.attempt_or with ⟨provider, config, rfl⟩ | no_attempt
  · exact intact.tryLock faults provider act_accepted
  constructor
  · intro name name_accepted
    exact (step_lease faults no_attempt (intact.sound name name_accepted)).1
  · intro name name_accepted
    exact (step_lease faults no_attempt (intact.sound name name_accepted)).2.1.mpr (intact.keeps name name_accepted)
  · intro provider name knows
    obtain ⟨name_accepted, present⟩ := intact.known provider name (known_step faults no_attempt knows)
    refine ⟨name_accepted, ?_⟩
    obtain ⟨-, -, unchanged | ⟨-, l, -, after, -⟩⟩ := step_lease faults no_attempt (intact.sound name name_accepted)
    · rw [unchanged]
      exact present
    · rw [after]
      rfl
  · exact names_step faults no_attempt intact.names

theorem Intact.run (intact : Intact e accepted w) {moves : List Move}
    (moves_accepted : ∀ m ∈ moves, m.act.Accepted accepted) : Intact e accepted (e.run moves w).2 := by
  induction moves generalizing w with
  | nil => exact intact
  | cons m rest ih =>
    have next := intact.step m.faults (moves_accepted m List.mem_cons_self)
    exact ih next fun m member => moves_accepted m (List.mem_cons_of_mem _ member)

theorem intact_of_reaches {s : e.store.State} {now : Instant} (reached : e.Reaches s now w) :
    Intact e (e.Accepts s) w := by
  obtain ⟨moves, moves_accepted, rfl⟩ := reached
  exact (intact_start now fun _ => id).run moves_accepted

/-- An intact world shows what a reference with its records shows. -/
theorem Intact.matches (intact : Intact e accepted w) : ∃ ref : Reference, Matches e accepted w ref := by
  refine ⟨⟨fun name => (e.store.find w.stage.store name).toOption.join, w.clock, w.handles⟩, rfl, rfl, ?_, intact.names⟩
  intro name name_accepted
  have sound := intact.sound name name_accepted
  have keeps := intact.keeps name name_accepted
  obtain ⟨found, answer, lease⟩ := e.store.find_kept sound keeps
  have same : (e.store.find w.stage.store name).toOption.join = found := by
    rw [answer]
    rfl
  simp only [same]
  refine ⟨sound, keeps, lease, ?_⟩
  intro provider knows
  have present := (intact.known provider name knows).2
  rwa [lease, Option.isSome_map] at present

/-! ## The reference has no caches -/

namespace Reference

variable (holder : Nat → String)

theorem step_clears (ref : Reference) {act : Act} (clears : act.clears = true) :
    (ref.step holder act).2 = ref := by
  cases act with
  | clearCache _ => rfl
  | tryLock _ _ | unlock _ | extend _ _ _ | drop _ | settle _ | find _ | setClock _ => cases clears

/-- The clearing of caches can be left out of a run. -/
theorem run_filter (acts : List Act) (ref : Reference) :
    let kept := acts.filter fun act => !act.clears
    ((acts.zip (ref.run holder acts).1).filter fun entry => !entry.1.clears) = kept.zip (ref.run holder kept).1 ∧
      (ref.run holder acts).2 = (ref.run holder kept).2 := by
  induction acts generalizing ref with
  | nil => exact ⟨rfl, rfl⟩
  | cons act rest ih =>
    cases clears : act.clears with
    | true =>
      obtain ⟨answers, last⟩ := ih ref
      simp only [run, List.zip_cons_cons, step_clears holder ref clears, clears, Bool.not_true, Bool.false_eq_true,
        not_false_eq_true, List.filter_cons_of_neg]
      exact ⟨answers, last⟩
    | false =>
      obtain ⟨answers, last⟩ := ih (ref.step holder act).2
      simp only [run, List.zip_cons_cons, clears, Bool.not_false, List.filter_cons_of_pos]
      exact ⟨congrArg _ answers, last⟩

/-- An attempt of the reference, as a decision on the record. -/
theorem answer_tryLock (ref : Reference) (provider : Nat) (config : LockConfig) :
    (ref.tryLock holder provider config).1 = .attempted (.ok
      (if (ref.records config.name).all fun r => r.lockUntil ≤ ref.clock then some (.lease { config }) else none)) := by
  unfold tryLock
  split <;> rfl

end Reference

/-! ## Recovery -/

section

variable {s : e.store.State} {now : Instant} {ref : Reference}

/-- What is seen of a run in which nothing fails is what the reference does without the clearing of caches. -/
theorem seen_eq (m : Matches e (e.Accepts s) (e.start s now) ref) {acts : List Act}
    (acts_accepted : ∀ act ∈ acts, act.Accepted (e.Accepts s)) :
    let kept := acts.filter fun act => !act.clears
    e.seen s now acts = kept.zip (ref.run e.holder kept).1 ∧
      ∀ name, e.Accepts s name → e.store.find (e.faultless s now acts).2.stage.store name =
        .ok ((ref.run e.holder kept).2.records name) := by
  obtain ⟨answers, last⟩ := run_matches m acts_accepted
  obtain ⟨seen, rest⟩ := Reference.run_filter e.holder acts ref
  refine ⟨?_, ?_⟩
  · rw [Setting.seen, Setting.faultless, answers]
    exact seen
  · intro name name_accepted
    rw [← rest]
    exact last.find name_accepted

end

theorem World.Act.accepted_of_filter {acts acts' : List Act} (acts_accepted : ∀ act ∈ acts, act.Accepted accepted)
    (same : (acts.filter fun act => !act.clears) = acts'.filter fun act => !act.clears) :
    ∀ act ∈ acts', act.Accepted accepted := by
  intro act member
  cases clears : act.clears with
  | true => cases act <;> trivial
  | false =>
    have kept : act ∈ acts'.filter fun act => !act.clears := List.mem_filter.mpr ⟨member, by rw [clears]; rfl⟩
    rw [← same] at kept
    exact acts_accepted act (List.mem_filter.mp kept).1

end

/-- Whatever fails and wherever, registries remember only records that are there, and a failing attempt leaves
them as they were. So the next attempt without a fault succeeds if and only if the lock is free, just as with an
empty registry, and without faults it is all the same when caches are cleared. -/
theorem attempts_recover (e : Setting) (s : e.store.State) (now : Instant) : e.Recovers s now where
  known := by
    intro w reached provider name member
    have intact := intact_of_reaches reached
    obtain ⟨⟨sound, keeps⟩, present⟩ := intact.known provider name (List.contains_iff_mem.mpr member)
    obtain ⟨found, answer, lease⟩ := e.store.find_kept (intact.sound name ⟨sound, keeps⟩)
      (intact.keeps name ⟨sound, keeps⟩)
    rw [lease, Option.isSome_map] at present
    obtain ⟨r, rfl⟩ := Option.isSome_iff_exists.mp present
    exact ⟨r, answer⟩
  failed := by
    intro w _ faults provider config error attempted
    obtain ⟨answer, -, -, registries, -⟩ := e.tryLock_spec faults w provider config
    rw [answer] at attempted
    cases result : (acquire (e.accessor faults provider w.clock) config (w.registries provider) w.stage.store).1 with
    | error fault => rw [registries, registry_of_failed result, Function.update_eq_self]
    | ok acquired =>
      rw [result] at attempted
      cases acquired <;> cases attempted
  retried := by
    intro w reached provider config name_accepted
    obtain ⟨ref, m⟩ := (intact_of_reaches reached).matches
    have always : Act.Accepted (e.Accepts s) (.clearCache provider) := trivial
    obtain ⟨-, m'⟩ := step_matches m always
    refine ⟨_, m.find name_accepted, ?_, ?_⟩
    · rw [(tryLock_matches m provider name_accepted).1, Reference.answer_tryLock, m.clock]
    · exact (tryLock_matches m' provider name_accepted).1.trans (tryLock_matches m provider name_accepted).1.symm
  clearing := by
    intro acts acts' acts_accepted same
    obtain ⟨ref, m⟩ := (intact_start (e := e) (s := s) now fun _ => id).matches
    obtain ⟨seen, finds⟩ := seen_eq m acts_accepted
    obtain ⟨seen', finds'⟩ := seen_eq m (World.Act.accepted_of_filter acts_accepted same)
    rw [same] at seen finds
    refine ⟨seen.trans seen'.symm, ?_⟩
    intro name name_accepted
    exact (finds name name_accepted).trans (finds' name name_accepted).symm

/-- An update fails after an insert that was refused: nothing is remembered, and once the other holder's lease is over
the lock is acquired. -/
example :
    let e : Setting := ⟨.memory, fun _ => .insertThenUpdate, fun provider => if provider = 0 then "first" else "second"⟩
    let failing : Move := ⟨.tryLock 0 .nightly, fun op => if op = .update then some .unavailable else none⟩
    let w := (e.run [{ act := .tryLock 1 .nightly }, failing] (e.start (∅ : Records) .epoch)).2
    let later : List Act := [.setClock (Instant.epoch.add (.ofSeconds 60)), .tryLock 0 .nightly]
    w.registries 0 = .empty ∧
      (e.run (later.map fun act => { act }) w).2.handles.map Issued.provider = [1, 0] := by
  decide +kernel

end TaskLease

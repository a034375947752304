import TaskLease.Proofs.Provider.World

/-!
# Attempts under way

A world where attempts to acquire locks take their time. An attempt begins, and then goes on phase by phase,
with anything between two phases: phases of other attempts, releases, extensions, the clock set.

`flowStep_lease` says all that one step can do to the lease of a name. It acquires the lock where no lease
is live, it leaves the lease alone, or it goes through a handle that is held and is the lease holder's own.
`contains_flowStep` says the same of what a provider knows of a name, and `attempts_flowStep` of the attempts.
-/

namespace TaskLease

open World

/-- An attempt that has begun. -/
structure Underway where
  provider : Nat
  config : LockConfig
  /-- What it does next. -/
  attempt : Attempt
deriving Repr

namespace Underway

/-- The handle that an attempt gives out when it comes to its end, if it does. -/
def issued (u : Underway) : List Issued :=
  match u.attempt with
  | .finished answer => Issued.ofAnswer u.provider (Provider.answerOf u.config answer)
  | _ => []

/-- What an attempt tells when it comes to its end. -/
def told (u : Underway) : List Event :=
  match u.attempt with
  | .finished (.ok true) => [.count .attempts u.config.name .acquired]
  | .finished (.ok false) => [.count .attempts u.config.name .rejected]
  | .finished (.error _) => [.count .attempts u.config.name .error, .log .acquisitionFailed u.config.name]
  | _ => []

/-- Whether an attempt has acquired its lock. It may still have to remember that the record exists. -/
def hasWon (u : Underway) : Bool :=
  match u.attempt with
  | .remembering acquired => acquired
  | .finished (.ok acquired) => acquired
  | _ => false

/-- An attempt of a provider at the lock of a name. -/
def IsFor (u : Underway) (provider : Nat) (name : String) : Prop := u.provider = provider ∧ u.config.name = name

theorem hasWon_iff {u : Underway} : u.hasWon = true ↔ Race.Winning u.attempt := by
  unfold hasWon Race.Winning
  split <;> simp_all

end Underway

/-- A world with the attempts that have begun, the first one first. -/
structure Traffic (σ : Type) extends World σ where
  attempts : List Underway := []

namespace Traffic

/-- What happens in one step. -/
inductive Act where
  /-- A step of the world. An attempt only begins with it. -/
  | act (act : World.Act)
  /-- The next phase of an attempt. -/
  | advance (attempt : Nat)
deriving DecidableEq, Repr

/-- A step, and the faults that the operations of its accessor meet. -/
structure Move where
  act : Act
  faults : Operation → Option StoreFault := fun _ => none

end Traffic

namespace Setting

variable (e : Setting) (faults : Operation → Option StoreFault)

/-- The world when an attempt has come to a phase, with a registry and a store. -/
def attain (t : Traffic e.store.State) (i : Nat) (u : Underway) (phase : Attempt × Registry × e.store.State) :
    Traffic e.store.State :=
  let later := { u with attempt := phase.1 }
  { stage := { store := phase.2.2, events := t.stage.events ++ later.told }
    clock := t.clock
    registries := Function.update t.registries u.provider phase.2.1
    handles := t.handles ++ later.issued
    attempts := t.attempts.set i later }

/-- The next phase of an attempt. One that is over does nothing any more. -/
def advance (t : Traffic e.store.State) (i : Nat) (u : Underway) : Traffic e.store.State :=
  match u.attempt with
  | .finished _ => t
  | attempt =>
    e.attain t i u (attempt.step (e.accessor faults u.provider t.clock) u.config (t.registries u.provider)
      t.stage.store)

/-- One step. -/
def flowStep (t : Traffic e.store.State) : Traffic.Act → Traffic e.store.State
  | .act (.tryLock provider config) =>
    { t with attempts := t.attempts ++ [{ provider, config, attempt := .first (e.strategy provider) }] }
  | .act act => { t with toWorld := (e.step faults t.toWorld act).2 }
  | .advance i =>
    match t.attempts[i]? with
    | some u => e.advance faults t i u
    | none => t

/-- The world after some steps, each with the faults that it meets. -/
def flow : List Traffic.Move → Traffic e.store.State → Traffic e.store.State
  | [], t => t
  | m :: rest, t => flow rest (e.flowStep m.faults t m.act)

/-- The provider that acquires the lock of a name in a step, if one does. -/
def acquirer? (name : String) (t : Traffic e.store.State) (act : Traffic.Act) : Option Nat :=
  match act with
  | .act _ => none
  | .advance i =>
    match t.attempts[i]?, (e.flowStep faults t act).attempts[i]? with
    | some u, some later =>
      if u.config.name = name ∧ u.hasWon = false ∧ later.hasWon = true then some u.provider else none
    | _, _ => none

/-- The providers that acquire the lock of a name in a run, the first one first. -/
def acquirers (name : String) : List Traffic.Move → Traffic e.store.State → List Nat
  | [], _ => []
  | m :: rest, t =>
    (e.acquirer? m.faults name t m.act).toList ++ acquirers name rest (e.flowStep m.faults t m.act)

end Setting

/-! ## An attempt that nothing interrupts -/

section

variable {e : Setting} {faults : Operation → Option StoreFault} {t : Traffic e.store.State} {i : Nat} {u : Underway}

/-- An attempt is over, or it has a phase ahead and has told and given out nothing yet. -/
theorem advance_cases (e : Setting) (faults : Operation → Option StoreFault) (u : Underway) :
    (∃ answer, u.attempt = .finished answer ∧ ∀ (t : Traffic e.store.State) i, e.advance faults t i u = t) ∨
      (u.told = [] ∧ u.issued = [] ∧ ∀ (t : Traffic e.store.State) i, e.advance faults t i u =
        e.attain t i u (u.attempt.step (e.accessor faults u.provider t.clock) u.config (t.registries u.provider)
          t.stage.store)) := by
  obtain ⟨provider, config, attempt⟩ := u
  cases attempt with
  | finished answer => exact .inl ⟨answer, rfl, fun _ _ => rfl⟩
  | looking | inserting _ | remembering _ | updating _ | forgetting _ => exact .inr ⟨rfl, rfl, fun _ _ => rfl⟩

/-- From a phase that an attempt has come to, it goes on to the next one. -/
theorem flowStep_attain (there : t.attempts[i]? = some u) (phase : Attempt × Registry × e.store.State) :
    e.flowStep faults (e.attain t i u phase) (.advance i) =
      e.attain t i u (phase.1.step (e.accessor faults u.provider t.clock) u.config phase.2.1 phase.2.2) := by
  have bound := (List.getElem?_eq_some_iff.mp there).1
  have now : (e.attain t i u phase).attempts[i]? = some { u with attempt := phase.1 } :=
    List.getElem?_set_self bound
  have registry : (e.attain t i u phase).registries u.provider = phase.2.1 := Function.update_self ..
  simp only [Setting.flowStep, now]
  rcases advance_cases e faults { u with attempt := phase.1 } with
    ⟨answer, ended, same⟩ | ⟨told, issued, next⟩
  · obtain ⟨attempt, registry, store⟩ := phase
    cases ended
    rw [same]
    rfl
  · rw [next, registry]
    simp [Setting.attain, told, issued, Function.update_idem]

theorem flow_attain (there : t.attempts[i]? = some u) (k : Nat) (phase : Attempt × Registry × e.store.State) :
    e.flow (List.replicate k { act := .advance i, faults }) (e.attain t i u phase) =
      e.attain t i u
        (Attempt.steps (e.accessor faults u.provider t.clock) u.config k phase.1 phase.2.1 phase.2.2) := by
  induction k generalizing phase with
  | zero => rfl
  | succ k ih =>
    rw [List.replicate_succ, Setting.flow, flowStep_attain there, ih]
    rfl

/-- An attempt that nothing interrupts is one step of the world. -/
theorem flow_tryLock (t : Traffic e.store.State) (provider : Nat) (config : LockConfig) :
    (e.flow ({ act := .act (.tryLock provider config), faults } ::
        List.replicate 5 { act := .advance t.attempts.length, faults }) t).toWorld =
      (e.tryLock faults t.toWorld provider config).2 := by
  let u : Underway := { provider, config, attempt := .first (e.strategy provider) }
  let begun : Traffic e.store.State := { t with attempts := t.attempts ++ [u] }
  have there : begun.attempts[t.attempts.length]? = some u := List.getElem?_concat_length
  have first : begun = e.attain begun t.attempts.length u
      (u.attempt, t.registries provider, t.stage.store) := by
    have fresh : u.told = [] ∧ u.issued = [] := by
      cases reclaims : (e.strategy provider).insertReclaims <;>
        simp [u, Underway.told, Underway.issued, Attempt.first, reclaims]
    simp [Setting.attain, fresh, begun, Function.update_eq_self, u]
  let last := Attempt.steps (e.accessor faults provider t.clock) config 5 u.attempt (t.registries provider)
    t.stage.store
  obtain ⟨answer, ended, acquired⟩ :=
    finished_acquire (e.accessor faults provider t.clock) config (t.registries provider) t.stage.store
  have attempt : last = (.finished answer, last.2) := Prod.ext ended rfl
  have whole : acquire (e.accessor faults provider t.clock) config (t.registries provider) t.stage.store =
      (answer, last.2) := Prod.ext acquired rfl
  have flowed : e.flow ({ act := .act (.tryLock provider config), faults } ::
      List.replicate 5 { act := .advance t.attempts.length, faults }) t = e.attain begun t.attempts.length u last :=
    (congrArg (e.flow _) first).trans (flow_attain there 5 _)
  rw [flowed, attempt, Setting.tryLock, Provider.tryPlain, whole]
  rcases answer with fault | _ | _ <;> rfl

end

/-! ## What a step does to the lease of a name -/

/-- The handle that a step goes through. -/
def World.Act.handle? : World.Act → Option Nat
  | .unlock i | .extend i _ _ | .drop i | .settle i => some i
  | .tryLock _ _ | .find _ | .clearCache _ | .setClock _ => none

/-- A step goes through a handle of a name that counts as held, and whose provider acts for an identity. -/
def Setting.Uses (e : Setting) (w : World e.store.State) (name identity : String) (act : World.Act) : Prop :=
  ∃ i x, act.handle? = some i ∧ w.handles[i]? = some x ∧ x.Active ∧ x.name = name ∧ e.holder x.provider = identity

/-- The same for a step among attempts. The phases of an attempt go through no handle. -/
def Setting.FlowUses (e : Setting) (t : Traffic e.store.State) (name identity : String) : Traffic.Act → Prop
  | .act act => e.Uses t.toWorld name identity act
  | .advance _ => False

section

variable {e : Setting} {faults : Operation → Option StoreFault} {w : World e.store.State}
  {t : Traffic e.store.State} {name : String}

/-- A step that is no attempt leaves the store alone, or performs a release or an extension for a handle that
counts as held. -/
theorem step_store (faults : Operation → Option StoreFault) (w : World e.store.State) {act : World.Act}
    (no_attempt : ∀ provider config, act ≠ .tryLock provider config) :
    (e.step faults w act).2.stage.store = w.stage.store ∨
      ∃ i x op config, act.handle? = some i ∧ w.handles[i]? = some x ∧ x.Active ∧ op.isAcquisition = false ∧
        config.name = x.name ∧ (e.step faults w act).2.stage.store =
          ((e.accessor faults x.provider w.clock).perform op config w.stage.store).2 := by
  cases act with
  | tryLock provider config => exact absurd rfl (no_attempt provider config)
  | find _ | clearCache _ | setClock _ => exact .inl rfl
  | drop i =>
    left
    simp only [Setting.step]
    split <;> rfl
  | unlock i =>
    simp only [Setting.step]
    split
    · rename_i x found
      obtain ⟨there, kept⟩ := Issued.at?_eq_some.mp found
      by_cases held : x.lease.state = .held
      · refine .inr ⟨i, x, .unlock, x.lease.config, rfl, there, ⟨held, by simp [kept]⟩, rfl, rfl, ?_⟩
        exact (Lease.unlock_held _ _ held).2
      · exact .inl (congrArg (·.2.store) (Lease.unlock_idle _ _ held))
    · exact .inl rfl
  | extend i atMost atLeast =>
    simp only [Setting.step]
    split
    · rename_i x found
      obtain ⟨there, kept⟩ := Issued.at?_eq_some.mp found
      cases state : x.lease.state with
      | held =>
        cases allowed : x.lease.config.withDurations atMost atLeast with
        | ok extended =>
          have named := (LockConfig.withDurations_eq_ok_iff.mp allowed).1
          refine .inr ⟨i, x, .extend, extended, rfl, there, ⟨state, by simp [kept]⟩, rfl, named, ?_⟩
          exact (Lease.extend_held _ _ state allowed).2
        | error _ => exact .inl (congrArg (·.2.store) (Lease.extend_refused _ _ state allowed))
      | released => exact .inl (congrArg (·.2.store) (Lease.extend_released _ _ atMost atLeast state))
      | lost => exact .inl (congrArg (·.2.store) (Lease.extend_lost _ _ atMost atLeast state))
    · exact .inl rfl
  | settle i =>
    simp only [Setting.step]
    split
    · rename_i x found
      obtain ⟨there, dropped⟩ := Issued.at?_eq_some.mp found
      by_cases held : x.lease.state = .held
      · refine .inr ⟨i, x, .unlock, x.lease.config, rfl, there, ⟨held, by simp [dropped]⟩, rfl, rfl, ?_⟩
        exact (Lease.drop_held _ _ held).2
      · exact .inl (congrArg (·.store) (Lease.drop_idle _ _ held))
    · exact .inl rfl

theorem flowStep_act (faults : Operation → Option StoreFault) (t : Traffic e.store.State) {act : World.Act}
    (no_attempt : ∀ provider config, act ≠ .tryLock provider config) :
    e.flowStep faults t (.act act) = { t with toWorld := (e.step faults t.toWorld act).2 } := by
  cases act with
  | tryLock provider config => exact absurd rfl (no_attempt provider config)
  | unlock _ | extend _ _ _ | drop _ | settle _ | find _ | clearCache _ | setClock _ => rfl

/-- A step that is no attempt leaves a lease alone, or goes through a handle of its holder, which stays its
holder. -/
theorem step_lease (faults : Operation → Option StoreFault) {act : World.Act}
    (no_attempt : ∀ provider config, act ≠ .tryLock provider config)
    (sound : e.store.Sound w.stage.store name) :
    let next := (e.step faults w act).2.stage.store
    e.store.Sound next name ∧ (e.store.Keeps next name ↔ e.store.Keeps w.stage.store name) ∧
      (e.store.lease next name = e.store.lease w.stage.store name ∨
        ∃ l l', e.store.lease w.stage.store name = some l ∧ e.store.lease next name = some l' ∧
          l'.lockedBy = l.lockedBy ∧ e.Uses w name l.lockedBy act) := by
  have timely := e.store.timely w.clock
  rcases step_store faults w no_attempt with same | ⟨i, x, op, config, through, there, active, other, named, same⟩
  · dsimp only
    rw [same]
    exact ⟨sound, Iff.rfl, .inl rfl⟩
  dsimp only
  rw [same]
  refine ⟨LeaseStore.sound_accessor op config sound timely, LeaseStore.keeps_accessor op config, ?_⟩
  rcases LeaseStore.lease_accessor_of_not_acquisition other config sound timely with
    unchanged | ⟨l, l', found, after, by_holder, mine, own⟩
  · exact .inl unchanged
  · exact .inr ⟨l, l', found, after, by_holder, i, x, through, there, active, named.symm.trans mine, own⟩

/-- A phase of an attempt acquires the lock of a name, or leaves its lease alone. -/
theorem phase_lease (faults : Operation → Option StoreFault) (u : Underway) (now : Instant) (registry : Registry)
    {s : e.store.State} (sound : e.store.Sound s name) :
    let next := u.attempt.step (e.accessor faults u.provider now) u.config registry s
    let wins := u.config.name = name ∧ u.hasWon = false ∧ { u with attempt := next.1 }.hasWon = true
    (wins ∧ e.store.Acquired ⟨e.holder u.provider, u.config, now⟩ s next.2.2) ∨
      (¬ wins ∧ e.store.lease next.2.2 name = e.store.lease s name) := by
  have timely := e.store.timely now
  by_cases named : u.config.name = name
  · subst named
    cases won : u.hasWon with
    | true =>
      obtain ⟨-, same⟩ := Race.winning_step (e.accessor faults u.provider now) u.config registry s
        (Underway.hasWon_iff.mp won)
      exact .inr ⟨fun wins => (by cases wins.2.1), congrArg (e.store.lease · u.config.name) same⟩
    | false =>
      have trying : ¬ Race.Winning u.attempt := by
        rw [← Underway.hasWon_iff, won]
        simp
      rcases phase_cases (e.strategy u.provider) (e.holder u.provider) faults registry sound timely trying with
        ⟨still, unchanged⟩ | ⟨wins, acquired⟩
      · exact .inr ⟨fun all => still (Underway.hasWon_iff.mp all.2.2), unchanged⟩
      · exact .inl ⟨⟨rfl, rfl, Underway.hasWon_iff.mpr wins⟩, acquired⟩
  · obtain ⟨unchanged, -⟩ := Race.step_of_ne (e.strategy u.provider) (e.holder u.provider) now faults
      u.attempt registry s named
    exact .inr ⟨fun wins => named wins.1, unchanged⟩

/-- What a phase does among attempts: it acquires the lock, or leaves the lease alone. -/
theorem advance_lease (faults : Operation → Option StoreFault) (i : Nat)
    (sound : e.store.Sound t.stage.store name) :
    let next := (e.flowStep faults t (.advance i)).stage.store
    e.store.Sound next name ∧ (e.store.Keeps next name ↔ e.store.Keeps t.stage.store name) ∧
      ((e.acquirer? faults name t (.advance i) = none ∧
          e.store.lease next name = e.store.lease t.stage.store name) ∨
        ∃ provider config, e.acquirer? faults name t (.advance i) = some provider ∧ config.name = name ∧
          e.store.Acquired ⟨e.holder provider, config, t.clock⟩ t.stage.store next) := by
  cases there : t.attempts[i]? with
  | none =>
    have idle : e.flowStep faults t (.advance i) = t := by rw [Setting.flowStep, there]
    dsimp only
    rw [Setting.acquirer?, idle, there]
    exact ⟨sound, Iff.rfl, .inl ⟨rfl, rfl⟩⟩
  | some u =>
    have bound := (List.getElem?_eq_some_iff.mp there).1
    have goes : e.flowStep faults t (.advance i) = e.advance faults t i u := by rw [Setting.flowStep, there]
    dsimp only
    rw [Setting.acquirer?, goes, there]
    rcases advance_cases e faults u with ⟨answer, ended, same⟩ | ⟨-, -, next⟩
    · -- An attempt that is over has won before, if at all.
      rw [same, there]
      refine ⟨sound, Iff.rfl, .inl ⟨?_, rfl⟩⟩
      simp
    · rw [next]
      simp only [Setting.attain, List.getElem?_set_self bound]
      refine ⟨Race.sound_step sound (e.store.timely t.clock), Race.keeps_step, ?_⟩
      rcases phase_lease faults u t.clock (t.registries u.provider) sound with
        ⟨wins, acquired⟩ | ⟨nobody, unchanged⟩
      · exact .inr ⟨u.provider, u.config, if_pos wins, wins.1, acquired⟩
      · exact .inl ⟨if_neg nobody, unchanged⟩

/-- A step acquires the lock where no lease is live. Otherwise it leaves the lease alone, or goes through a
handle of the lease's holder, which stays its holder. -/
theorem flowStep_lease (faults : Operation → Option StoreFault) (act : Traffic.Act)
    (sound : e.store.Sound t.stage.store name) :
    let next := (e.flowStep faults t act).stage.store
    e.store.Sound next name ∧ (e.store.Keeps next name ↔ e.store.Keeps t.stage.store name) ∧
      ((∃ provider config, e.acquirer? faults name t act = some provider ∧ config.name = name ∧
          e.store.Acquired ⟨e.holder provider, config, t.clock⟩ t.stage.store next) ∨
        (e.acquirer? faults name t act = none ∧
          (e.store.lease next name = e.store.lease t.stage.store name ∨
            ∃ l l', e.store.lease t.stage.store name = some l ∧ e.store.lease next name = some l' ∧
              l'.lockedBy = l.lockedBy ∧ e.FlowUses t name l.lockedBy act))) := by
  cases act with
  | advance i =>
    obtain ⟨sound', keeps, ⟨nobody, unchanged⟩ | acquired⟩ := advance_lease faults i sound
    · exact ⟨sound', keeps, .inr ⟨nobody, .inl unchanged⟩⟩
    · exact ⟨sound', keeps, .inl acquired⟩
  | act act =>
    rcases act.attempt_or with ⟨provider, config, rfl⟩ | no_attempt
    · exact ⟨sound, Iff.rfl, .inr ⟨rfl, .inl rfl⟩⟩
    · obtain ⟨sound', keeps, effect⟩ := step_lease faults no_attempt sound
      dsimp only
      rw [flowStep_act faults t no_attempt]
      exact ⟨sound', keeps, .inr ⟨rfl, effect⟩⟩

end

/-! ## What a step does to attempts and registries -/

section

variable {e : Setting} {w : World e.store.State} {t : Traffic e.store.State}

/-- A step that is no attempt leaves a registry alone, unless it clears it. -/
theorem registries_step (faults : Operation → Option StoreFault) {act : World.Act}
    (no_attempt : ∀ provider config, act ≠ .tryLock provider config) {provider : Nat}
    (no_clearing : act ≠ .clearCache provider) :
    (e.step faults w act).2.registries provider = w.registries provider := by
  cases act with
  | tryLock provider config => exact absurd rfl (no_attempt provider config)
  | find _ | setClock _ => rfl
  | clearCache cleared =>
    have other : provider ≠ cleared := by
      rintro rfl
      exact no_clearing rfl
    exact Function.update_of_ne other ..
  | unlock i | extend i atMost atLeast | drop i | settle i =>
    simp only [Setting.step]
    split <;> rfl

/-- What a step of an attempt leaves, be the attempt over or not. -/
theorem flowStep_advance (faults : Operation → Option StoreFault) {j : Nat} {u : Underway}
    (there : t.attempts[j]? = some u) :
    let phase := u.attempt.step (e.accessor faults u.provider t.clock) u.config (t.registries u.provider) t.stage.store
    let next := e.flowStep faults t (.advance j)
    next.stage.store = phase.2.2 ∧ next.registries = Function.update t.registries u.provider phase.2.1 ∧
      next.attempts = t.attempts.set j { u with attempt := phase.1 } := by
  have goes : e.flowStep faults t (.advance j) = e.advance faults t j u := by rw [Setting.flowStep, there]
  dsimp only
  rw [goes]
  rcases advance_cases e faults u with ⟨answer, ended, same⟩ | ⟨-, -, next⟩
  · obtain ⟨provider, config, attempt⟩ := u
    cases ended
    obtain ⟨bound, here⟩ := List.getElem?_eq_some_iff.mp there
    rw [same]
    refine ⟨rfl, (Function.update_eq_self ..).symm, ?_⟩
    simp only [Attempt.step, ← here, List.set_getElem_self]
  · rw [next]
    exact ⟨rfl, rfl, rfl⟩

theorem flowStep_idle (faults : Operation → Option StoreFault) {j : Nat} (missing : t.attempts[j]? = none) :
    e.flowStep faults t (.advance j) = t := by
  rw [Setting.flowStep, missing]

/-- What all attempts have in common stays so if every attempt begins with it and keeps it in its next phase. -/
theorem attempts_flowStep {P : Underway → Prop} (faults : Operation → Option StoreFault) (act : Traffic.Act)
    (all : ∀ u ∈ t.attempts, P u)
    (begins : ∀ p config, P { provider := p, config, attempt := .first (e.strategy p) })
    (advances : ∀ j u, act = .advance j → t.attempts[j]? = some u →
      P { u with attempt := (u.attempt.step (e.accessor faults u.provider t.clock) u.config (t.registries u.provider)
        t.stage.store).1 }) :
    ∀ u ∈ (e.flowStep faults t act).attempts, P u := by
  intro u member
  cases act with
  | act act =>
    rcases act.attempt_or with ⟨p, config, rfl⟩ | no_attempt
    · rcases List.mem_append.mp member with old | new
      · exact all u old
      · cases List.mem_singleton.mp new
        exact begins p config
    · rw [flowStep_act faults t no_attempt] at member
      exact all u member
  | advance j =>
    cases there : t.attempts[j]? with
    | none =>
      rw [flowStep_idle faults there] at member
      exact all u member
    | some v =>
      rw [(flowStep_advance faults there).2.2] at member
      rcases List.mem_or_eq_of_mem_set member with old | rfl
      · exact all u old
      · exact advances j v rfl there

/-- An attempt stays in its phase as long as it does not go on itself. -/
theorem attempt_flowStep_of_ne (faults : Operation → Option StoreFault) {i : Nat} {u : Underway} {act : Traffic.Act}
    (other : act ≠ .advance i) (there : t.attempts[i]? = some u) :
    (e.flowStep faults t act).attempts[i]? = some u := by
  cases act with
  | act act =>
    rcases act.attempt_or with ⟨p, config, rfl⟩ | no_attempt
    · have bound := (List.getElem?_eq_some_iff.mp there).1
      exact (List.getElem?_append_left bound).trans there
    · rw [flowStep_act faults t no_attempt]
      exact there
  | advance j =>
    have apart : j ≠ i := fun same => other (congrArg Traffic.Act.advance same)
    cases going : t.attempts[j]? with
    | none => rwa [flowStep_idle faults going]
    | some v =>
      rw [(flowStep_advance faults going).2.2, List.getElem?_set_ne apart]
      exact there

/-- What a step does to what a provider knows of a name. -/
theorem contains_flowStep (faults : Operation → Option StoreFault) (t : Traffic e.store.State) (act : Traffic.Act)
    (provider : Nat) (name : String) :
    let next := (e.flowStep faults t act).registries provider
    next.contains name = (t.registries provider).contains name ∨
      (act = .act (.clearCache provider) ∧ next.contains name = false) ∨
      ∃ j u, act = .advance j ∧ t.attempts[j]? = some u ∧ u.IsFor provider name ∧
        next = (u.attempt.step (e.accessor faults u.provider t.clock) u.config (t.registries u.provider)
          t.stage.store).2.1 := by
  dsimp only
  cases act with
  | act act =>
    rcases act.attempt_or with ⟨p, config, rfl⟩ | no_attempt
    · exact .inl rfl
    · rw [flowStep_act faults t no_attempt]
      by_cases clearing : act = .clearCache provider
      · subst clearing
        exact .inr (.inl ⟨rfl, by simp [Setting.step]⟩)
      · exact .inl (congrArg (Registry.contains · name) (registries_step faults no_attempt clearing))
  | advance j =>
    cases there : t.attempts[j]? with
    | none => exact .inl (by rw [flowStep_idle faults there])
    | some u =>
      rw [(flowStep_advance faults there).2.1]
      by_cases mine : provider = u.provider
      · subst mine
        rw [Function.update_self]
        by_cases named : u.config.name = name
        · exact .inr (.inr ⟨j, u, rfl, there, ⟨rfl, named⟩, rfl⟩)
        · exact .inl (Race.step_of_ne (e.strategy u.provider) (e.holder u.provider) t.clock faults u.attempt
            (t.registries u.provider) t.stage.store named).2
      · exact .inl (by rw [Function.update_of_ne mine])

end

/-! ## What stays -/

section

variable {e : Setting} {t : Traffic e.store.State} {name : String}

/-- No step takes a record out. -/
theorem flowStep_present (faults : Operation → Option StoreFault) (act : Traffic.Act)
    (sound : e.store.Sound t.stage.store name) (present : (e.store.lease t.stage.store name).isSome = true) :
    (e.store.lease (e.flowStep faults t act).stage.store name).isSome = true := by
  obtain ⟨-, -, ⟨p, config, -, rfl, acquired⟩ | ⟨-, unchanged | ⟨l, l', -, after, -⟩⟩⟩ :=
    flowStep_lease faults act sound
  · exact congrArg Option.isSome acquired.fresh
  · rwa [unchanged]
  · rw [after]
    rfl

theorem flow_frame (moves : List Traffic.Move) (sound : e.store.Sound t.stage.store name) :
    let last := (e.flow moves t).stage.store
    e.store.Sound last name ∧ (e.store.Keeps last name ↔ e.store.Keeps t.stage.store name) ∧
      ((e.store.lease t.stage.store name).isSome = true → (e.store.lease last name).isSome = true) := by
  induction moves generalizing t with
  | nil => exact ⟨sound, Iff.rfl, id⟩
  | cons m rest ih =>
    obtain ⟨sound', keeps, -⟩ := flowStep_lease m.faults m.act sound
    obtain ⟨sound_last, keeps_last, present⟩ := ih sound'
    exact ⟨sound_last, keeps_last.trans keeps, fun there => present (flowStep_present m.faults m.act sound there)⟩

end

end TaskLease

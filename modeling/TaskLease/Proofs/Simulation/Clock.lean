import TaskLease.Proofs.Provider.Image
import TaskLease.Proofs.Time.CalendarSum
import TaskLease.Simulation.Run

/-!
# The clock of a simulation

Only two actions move the clock of a store: one advances it, one sets it. Everything else that a run does leaves it as
it was (`Action.leaves_run`). Providers and handles know a store by its accessor only, so for them this follows from
what one call leaves alone (`Natural.leaves`).

Tasks make it uncertain how long a run is, since a task may be skipped. `Lasts` bounds what the clock is advanced by in
a list of steps, `Passes` is what that means for its reading, and `Lasts.passes` goes from one to the other. With what
is known about sums, that gives `advances_saturate`.
-/

namespace TaskLease

/-- An action leaves something of the state as it was. -/
def Leaves {S γ α : Type} (f : S → γ) (action : StateM S α) : Prop := ∀ s, f (action s).2 = f s

namespace Leaves

variable {S γ α β : Type} {f : S → γ}

theorem pure (a : α) : Leaves f (Pure.pure a) := fun _ => rfl

theorem get : Leaves f (MonadState.get : StateM S S) := fun _ => rfl

theorem modify {change : S → S} (same : ∀ s, f (change s) = f s) : Leaves f (modify change : StateM S PUnit) := same

theorem bind {action : StateM S α} {next : α → StateM S β} (head : Leaves f action) (tail : ∀ a, Leaves f (next a)) :
    Leaves f (action >>= next) :=
  fun s => (tail (action s).1 (action s).2).trans (head s)

/-- A state that was read is replaced. -/
theorem replace {change : S → S} {next : S → StateM S α} (same : ∀ s, f (change s) = f s)
    (tail : ∀ s, Leaves f (next s)) : Leaves f (do let s ← MonadState.get; set (change s); next s) :=
  fun s => (tail s (change s)).trans (same s)

end Leaves

/-- The same accessor, with something beside the store that it does not touch. -/
def Accessor.beside {σ : Type} (γ : Type) (accessor : Accessor σ) : Accessor (σ × γ) where
  strategy := accessor.strategy
  perform op config s :=
    let reply := accessor.perform op config s.1
    (reply.1, (reply.2, s.2))

/-- What an accessor leaves alone in its store, all actions that know the store by it leave alone. -/
theorem Natural.leaves {σ γ α : Type} {action : (τ : Type) → Accessor τ → Acting τ α} (natural : Natural action)
    {accessor : Accessor σ} {f : σ → γ} (frame : ∀ op config, Leaves f (accessor.perform op config)) :
    Leaves (fun stage => f stage.store) (action σ accessor) := by
  intro stage
  -- What `f` reads is carried beside the store. Where it is what `f` reads before each call, it is so after the action.
  have copied : accessor.Images (fun s => (s, f s)) (accessor.beside γ) :=
    ⟨rfl, fun op config s => by simp only [Accessor.beside, frame op config s]⟩
  -- What is carried is also the same after the action as it was before.
  have kept : (accessor.beside γ).Images (fun s => (s.1, f stage.store)) (accessor.beside γ) :=
    ⟨rfl, fun _ _ _ => rfl⟩
  have first := natural _ _ _ _ _ copied stage
  have second := natural _ _ _ _ _ kept (stage.map fun s => (s, f s))
  have same : (stage.map fun s => (s, f s)).map (fun s => (s.1, f stage.store)) = stage.map fun s => (s, f s) := rfl
  rw [same, first] at second
  exact congrArg (fun reply => reply.2.store.2) second

namespace Simulation

/-- The reading of the store's clock. -/
def State.clock (s : State) : Instant := s.site.clock

/-! ## Calls -/

theorem Site.leaves_call {α : Type} (label : String) (kind : CallKind) (entry : Call)
    (f : Instant → Backend → Except StoreFault α × Backend) : Leaves Site.clock (Site.call label kind entry f) := by
  have taken : Leaves Site.clock (modifyGet (takeFault label kind) : StateM Site _) := by
    intro s
    show (takeFault label kind s).2.clock = s.clock
    unfold takeFault
    split <;> rfl
  have done (now : Instant) : Leaves Site.clock (Site.onBackend (f now)) := fun _ => rfl
  unfold Site.call
  refine .bind (.modify fun _ => rfl) fun _ => .bind taken fun planned => .bind .get fun s => ?_
  rcases planned with _ | ⟨fault, _ | _⟩
  · exact done s.clock
  · exact .pure _
  · refine .bind (done s.clock) fun answer => ?_
    cases answer <;> exact .pure _

theorem Site.leaves_perform (label : String) (holder : Holder) (op : Operation) (config : LockConfig) :
    Leaves Site.clock (Site.perform label holder op config) :=
  Site.leaves_call _ _ _ _

namespace State

variable {α : Type}

theorem leaves_onSite {f : StateM Site α} (frame : Leaves Site.clock f) : Leaves clock (onSite f) := fun s => frame s.site

theorem leaves_onStage {action : (τ : Type) → Accessor τ → Acting τ α} (natural : Natural action)
    (strategy : AcquireStrategy) (label : String) (holder : Holder) :
    Leaves clock (onStage (action Site (Site.accessor strategy label holder))) := by
  have frame (op : Operation) (config : LockConfig) :
      Leaves Site.clock ((Site.accessor strategy label holder).perform op config) :=
    Site.leaves_perform label holder op config
  exact fun s => natural.leaves frame { store := s.site, events := s.events }

/-- A provider is used with an accessor of the site. -/
theorem accessor_of_provider? {s : State} {label : String} {entry : ProviderEntry} {accessor : Accessor Site}
    (found : s.provider? label = some (entry, accessor)) :
    ∃ strategy label holder, accessor = Site.accessor strategy label holder := by
  simp only [provider?, Option.bind_eq_bind, Option.bind_eq_some_iff, Option.pure_def, Option.some.injEq,
    Prod.mk.injEq] at found
  obtain ⟨_, -, holder, -, -, rfl⟩ := found
  exact ⟨_, _, holder, rfl⟩

theorem leaves_onProvider {f : (τ : Type) → Accessor τ → Provider → Acting τ (α × Provider)}
    (natural : ∀ p, Natural fun τ accessor => f τ accessor p) (label : String) :
    Leaves clock (onProvider label (f Site)) := by
  unfold onProvider
  refine .bind .get fun s => ?_
  split
  · exact .pure _
  · rename_i entry accessor found
    obtain ⟨strategy, label, holder, rfl⟩ := accessor_of_provider? found
    refine .bind (leaves_onStage (natural entry.provider) strategy label holder) fun reply => ?_
    exact .bind (.modify fun _ => rfl) fun _ => .pure _

theorem leaves_onHandle {f : (τ : Type) → Accessor τ → Handle → Provider → Acting τ (α × Handle × Provider)}
    (natural : ∀ h p, Natural fun τ accessor => f τ accessor h p) (number : Nat) :
    Leaves clock (onHandle number (f Site)) := by
  unfold onHandle
  refine .bind .get fun s => ?_
  split
  · exact .pure _
  · rename_i entry found
    refine .bind ?_ fun answer => ?_
    · exact leaves_onProvider
        (f := fun τ accessor provider => do
          let reply ← f τ accessor entry.handle provider
          return ((reply.1, reply.2.1), reply.2.2))
        (fun p => .bind (natural entry.handle p) fun _ => .pure _) _
    · split
      · exact .pure _
      · exact .bind (.modify fun _ => rfl) fun _ => .pure _

/-! ## Locks -/

theorem leaves_tryLock (label : String) (config : LockConfig) : Leaves clock (State.tryLock label config) := by
  unfold State.tryLock
  refine .bind .get fun s => .bind ?_ fun answer => ?_
  · exact leaves_onProvider (f := fun _ accessor provider => provider.tryLock accessor s.timer config)
      (fun p => p.natural_tryLock s.timer config) label
  · rcases answer with _ | _ | _ | handle
    · exact .pure _
    · exact .pure _
    · exact .pure _
    · exact .bind .get fun _ => .bind (.modify fun _ => rfl) fun _ => .pure _

theorem leaves_unlock (number : Nat) : Leaves clock (State.unlock number) :=
  leaves_onHandle (f := fun _ accessor handle provider => handle.unlock accessor provider)
    (fun h p => h.natural_unlock p) number

theorem leaves_extend (number : Nat) (atMost atLeast : Duration) : Leaves clock (State.extend number atMost atLeast) :=
  leaves_onHandle (f := fun _ accessor handle provider => handle.extend accessor atMost atLeast provider)
    (fun h p => h.natural_extend atMost atLeast p) number

theorem leaves_drop (number : Nat) : Leaves clock (State.drop number) := by
  unfold State.drop
  refine .bind ?_ fun _ => .modify fun _ => rfl
  exact leaves_onHandle
    (f := fun _ accessor handle provider => do
      let provider ← handle.drop accessor provider
      return ((), handle, provider))
    (fun h p => .bind (h.natural_drop p) fun _ => .pure _) number

theorem leaves_tell (event : Event) : Leaves clock (State.tell event) := fun _ => rfl

theorem leaves_ringDue (rings : Nat) : Leaves clock (ringDue rings) := by
  induction rings with
  | zero => exact .pure _
  | succ rings ih =>
    unfold ringDue
    refine .bind .get fun s => ?_
    split
    · exact .pure _
    · rename_i number due found
      split
      · exact .pure _
      · refine .bind ?_ fun _ => ih
        exact leaves_onHandle
          (f := fun _ accessor handle provider => do
            let reply ← handle.ring accessor due s.timer provider
            return ((), reply.1, reply.2))
          (fun h p => .bind (h.natural_ring due s.timer p) fun _ => .pure _) number

theorem leaves_moveTimer (length : Duration) : Leaves clock (moveTimer length) := by
  unfold moveTimer
  exact .bind (.modify fun _ => rfl) fun _ => .bind .get fun _ => leaves_ringDue _

end State

open State

/-! ## Actions -/

theorem leaves_checked (request : Request) {go : LockConfig → Running Answer} (frame : ∀ c, Leaves clock (go c)) :
    Leaves clock (request.checked go) := by
  unfold Request.checked
  split
  · exact frame _
  · exact .pure _

theorem leaves_withHolder (label : String) {go : Holder → Running Answer} (frame : ∀ h, Leaves clock (go h)) :
    Leaves clock (withHolder label go) := by
  unfold withHolder
  refine .bind .get fun s => ?_
  split
  · exact frame _
  · exact .pure _

theorem leaves_withProvider (label : String) {go : Provider → Running Answer} (frame : ∀ p, Leaves clock (go p)) :
    Leaves clock (withProvider label go) := by
  unfold withProvider
  refine .bind .get fun s => ?_
  split
  · exact frame _
  · exact .pure _

theorem leaves_withHandle (label : String) {go : Nat → Running Answer} (frame : ∀ n, Leaves clock (go n)) :
    Leaves clock (withHandle label go) := by
  unfold withHandle
  refine .bind .get fun s => ?_
  split
  · exact .pure _
  · refine .bind (frame _) fun answer => .bind .get fun s => ?_
    split <;> exact .pure _

theorem leaves_acquireAs (provider label : String) (config : LockConfig) :
    Leaves clock (acquireAs provider label config) := by
  unfold acquireAs
  refine .bind (leaves_tryLock provider config) fun answer => ?_
  rcases answer with _ | _ | _ | number
  · exact .pure _
  · exact .pure _
  · exact .pure _
  · refine .replace (fun _ => rfl) fun s => ?_
    split
    · exact .bind (leaves_drop _) fun _ => .bind .get fun _ => .pure _
    · exact .bind .get fun _ => .pure _

/-- An action that moves the clock of the store. -/
def Action.MovesClock : Action → Prop
  | .advance store _ _ => store = true
  | .setClock _ => True
  | _ => False

theorem leaves_extendActive (stack : LockStack Nat) (atMost atLeast : Duration) :
    Leaves clock (State.locking.extendActive stack atMost atLeast) := by
  unfold Locking.extendActive
  split
  · exact .pure _
  · refine .bind (.bind (leaves_extend _ atMost atLeast) fun _ => .pure _) fun answer => ?_
    rcases answer with _ | _ | _ <;> exact .pure _

/-- Time passes on the clock of the store, on the timer, or on both. -/
theorem Action.run_advance (stack : LockStack Nat) (store timer : Bool) (length : Duration) (s : State) :
    ((Action.advance store timer length).run stack s).2.clock = if store then s.clock.add length else s.clock := by
  have rest : Leaves clock (do
      if timer then moveTimer length
      return Answer.time (← MonadState.get).site.clock : Running Answer) := by
    cases timer with
    | true => exact .bind (leaves_moveTimer length) fun _ => .bind .get fun _ => .pure _
    | false => exact .bind .get fun _ => .pure _
  cases store with
  | true => exact rest { s with site := { s.site with clock := s.site.clock.add length } }
  | false => exact rest s

theorem Action.leaves_run (stack : LockStack Nat) {action : Action} (still : ¬ action.MovesClock) :
    Leaves clock (action.run stack) := by
  cases action with
  | tryLock provider handle request =>
    exact leaves_withProvider _ fun _ => leaves_checked _ fun config => leaves_acquireAs _ _ config
  | unlock handle =>
    exact leaves_withHandle _ fun number => .bind (leaves_unlock number) fun _ => .pure _
  | extend handle atMost atLeast =>
    exact leaves_withHandle _ fun number => .bind (leaves_extend number atMost atLeast) fun _ => .pure _
  | inspect handle => exact leaves_withHandle _ fun _ => .pure _
  | drop handle =>
    simp only [Action.run]
    refine .bind .get fun s => ?_
    split
    · exact .bind (leaves_drop _) fun _ => .pure _
    · exact .pure _
  | clearCache provider =>
    refine leaves_withProvider _ fun p => .bind ?_ fun _ => .bind .get fun s => ?_
    · exact leaves_onProvider (f := fun _ _ p => return ((), p.clearCache)) (fun _ => .pure _) provider
    · split
      · exact leaves_withHolder _ fun _ => .pure _
      · exact .pure _
  | activeLocks provider =>
    refine leaves_withProvider _ fun p => ?_
    split <;> exact .pure _
  | activeLock provider name =>
    refine leaves_withProvider _ fun p => ?_
    split <;> exact .pure _
  | assertLocked | isLocked name => exact .pure _
  | extendActive atMost atLeast => exact .bind (leaves_extendActive stack atMost atLeast) fun _ => .pure _
  | perform op holder request =>
    refine leaves_withHolder _ fun holder => leaves_checked _ fun config => .bind ?_ fun answer => ?_
    · exact leaves_onSite (Site.leaves_perform _ _ _ _)
    · cases answer <;> exact .pure _
  | find holder name =>
    refine leaves_withHolder _ fun holder => .bind (leaves_onSite (Site.leaves_call _ _ _ _)) fun answer => ?_
    cases answer with
    | error fault => exact .pure _
    | ok found => exact .bind .get fun _ => .pure _
  | checkHealth holder =>
    refine leaves_withHolder _ fun _ => .bind .get fun s => .bind (leaves_onSite fun _ => rfl) fun answer => ?_
    cases answer <;> exact .pure _
  | prepare holder =>
    refine leaves_withHolder _ fun _ => .bind (leaves_onSite fun _ => rfl) fun answer => ?_
    cases answer <;> exact .pure _
  | describe holder => exact leaves_withHolder _ fun _ => .bind .get fun _ => .pure _
  | advance store timer length =>
    exact fun s => (run_advance stack store timer length s).trans (if_neg still)
  | setClock moment => exact absurd trivial still
  | planFault holder kind times fault =>
    exact leaves_withHolder _ fun _ => .bind (.modify fun _ => rfl) fun _ => .pure _
  | remove name => exact .bind (leaves_onSite fun _ => rfl) fun _ => .pure _
  | intrude what => exact .bind (leaves_onSite fun _ => rfl) fun _ => .pure _
  | removeDirectory which => exact .bind (leaves_onSite fun _ => rfl) fun _ => .pure _
  | listFiles => exact .bind .get fun _ => .pure _

/-! ## Steps -/

theorem leaves_observe (answer : Answer) : Leaves clock (observe answer) := by
  intro s
  have shown : (s.site.show s.mentioned).2.clock = s.site.clock := by
    unfold Site.show
    split <;> rfl
  exact shown

theorem Opening.leaves_begin (opening : Opening) : Leaves clock opening.begin := .modify fun _ => rfl

/-- An action lets at least and at most some time pass on the clock of the store. -/
def Passes {α : Type} (least most : Duration) (action : Running α) : Prop :=
  ∀ s, s.clock.isLeap = false → ∃ passed, least ≤ passed ∧ passed ≤ most ∧ (action s).2.clock = s.clock.add passed

namespace Passes

variable {α β : Type} {least most least' most' : Duration} {action : Running α} {next : α → Running β}

theorem of_leaves (still : Leaves clock action) : Passes .zero .zero action := by
  intro s calm
  refine ⟨.zero, Nat.le_refl _, Nat.le_refl _, ?_⟩
  rw [still s]
  exact (Instant.add_zero _).symm

theorem widen (passes : Passes least most action) (shorter : least' ≤ least) (longer : most ≤ most') :
    Passes least' most' action := by
  intro s calm
  obtain ⟨passed, lower, upper, after⟩ := passes s calm
  exact ⟨passed, Nat.le_trans shorter lower, Nat.le_trans upper longer, after⟩

/-- Where nothing is done, no time passes. -/
theorem pure (a : α) : Passes .zero most (Pure.pure a) :=
  (of_leaves (.pure a)).widen (Nat.le_refl _) (Nat.zero_le _)

/-- Times that pass one after the other add up. -/
theorem bind (head : Passes least most action) (tail : ∀ a, Passes least' most' (next a)) :
    Passes (least + least') (most + most') (action >>= next) := by
  intro s calm
  obtain ⟨first, lower, upper, between⟩ := head s calm
  have calm_between : (action s).2.clock.isLeap = false := between ▸ Instant.add_not_leap calm
  obtain ⟨second, lower', upper', after⟩ := tail (action s).1 (action s).2 calm_between
  refine ⟨first + second, Nat.add_le_add lower lower', Nat.add_le_add upper upper', ?_⟩
  rw [← Instant.add_add calm, ← between]
  exact after

theorem after (still : Leaves clock action) (tail : ∀ a, Passes least most (next a)) :
    Passes least most (action >>= next) := by
  intro s calm
  have same := still s
  obtain ⟨passed, lower, upper, after⟩ := tail (action s).1 (action s).2 (same ▸ calm)
  exact ⟨passed, lower, upper, same ▸ after⟩

theorem before (head : Passes least most action) (still : ∀ a, Leaves clock (next a)) :
    Passes least most (action >>= next) := by
  intro s calm
  obtain ⟨passed, lower, upper, after⟩ := head s calm
  exact ⟨passed, lower, upper, (still _ _).trans after⟩

end Passes

/-- Some time passes while a task runs, or none, if it does not run. -/
theorem passes_execute {α : Type} (provider : String) (config : LockConfig) (stack : LockStack Nat)
    {task : LockStack Nat → Running α} {least most : Duration} (passes : ∀ stack, Passes least most (task stack)) :
    Passes .zero most (State.locking.execute provider config stack task) := by
  have ran (stack : LockStack Nat) : Passes .zero most (task stack) :=
    (passes stack).widen (Nat.zero_le _) (Nat.le_refl _)
  unfold Locking.execute
  split
  · exact (ran stack).before fun _ => .pure _
  · refine .after (.bind (leaves_tryLock provider config) fun _ => .pure _) fun answer => ?_
    rcases answer with e | _ | handle
    · exact .pure _
    · exact .pure _
    · refine (ran _).before fun result => .bind (.bind (leaves_unlock handle) fun _ => .pure _) fun released => ?_
      cases released with
      | error e => exact .bind (leaves_tell _) fun _ => .bind (leaves_drop handle) fun _ => .pure _
      | ok => exact .bind (leaves_drop handle) fun _ => .pure _

theorem passes_executeAs {α : Type} (provider : String) (request : Request) (stack : LockStack Nat)
    {task : LockStack Nat → Running α} (answer : Option α → Answer) {least most : Duration}
    (passes : ∀ stack, Passes least most (task stack)) :
    Passes .zero most (executeAs provider request stack task answer) := by
  unfold executeAs withProvider Request.checked
  refine .after .get fun s => ?_
  split
  · split
    · refine (passes_execute provider _ stack passes).before fun outcome => ?_
      rcases outcome with e | _ | _ <;> exact .pure _
    · exact .pure _
  · exact .pure _

/-- Steps that do not set the clock advance it by at least and at most some time. Tasks among them may be skipped. -/
inductive Lasts : List Step → Duration → Duration → Prop where
  | nil : Lasts [] .zero .zero
  | advance {opening : Opening} {timer : Bool} {length : Duration} {rest : List Step} {least most : Duration} :
    Lasts rest least most → Lasts (.act opening (.advance true timer length) :: rest) (length + least) (length + most)
  | still {opening : Opening} {action : Action} {rest : List Step} {least most : Duration} :
    ¬ action.MovesClock → Lasts rest least most → Lasts (.act opening action :: rest) least most
  | task {opening : Opening} {provider : String} {request : Request} {task rest : List Step}
      {shortest longest least most : Duration} :
    Lasts task shortest longest → Lasts rest least most →
      Lasts (.execute opening provider request task :: rest) least (longest + most)

theorem Lasts.passes {steps : List Step} {least most : Duration} (lasts : Lasts steps least most)
    (stack : LockStack Nat) : Passes least most (runSteps stack steps) := by
  induction lasts generalizing stack with
  | nil =>
    rw [runSteps]
    exact .of_leaves (.pure _)
  | @advance opening timer length rest least most lasts ih =>
    have moved : Passes length length ((Action.advance true timer length).run stack) := fun s _ =>
      ⟨length, Nat.le_refl _, Nat.le_refl _, Action.run_advance stack true timer length s⟩
    rw [runSteps, Step.run]
    refine .bind ?_ fun _ => (ih stack).before fun _ => .pure _
    exact .after opening.leaves_begin fun _ => moved.before leaves_observe
  | @still opening action rest least most still lasts ih =>
    rw [runSteps, Step.run]
    refine .after ?_ fun _ => (ih stack).before fun _ => .pure _
    exact .bind opening.leaves_begin fun _ => .bind (Action.leaves_run stack still) leaves_observe
  | @task opening provider request task rest shortest longest least most task_lasts lasts task_ih ih =>
    have inside (stack : LockStack Nat) : Passes shortest longest (do
        let entered ← observe .nothing
        return (entered, ← runSteps stack task)) :=
      .after (leaves_observe _) fun _ => (task_ih stack).before fun _ => .pure _
    have ran := passes_executeAs provider request stack .task inside
    have shorter : least ≤ .zero + least := Nat.le_add_left ..
    rw [runSteps, Step.run]
    refine (Passes.bind ?_ fun _ => (ih stack).before fun _ => .pure _).widen shorter (Nat.le_refl _)
    exact .after opening.leaves_begin fun _ => ran.before leaves_observe

/-- How the clock of a store goes from a moment on. -/
structure KeepsTime (t : Instant) : Prop where
  /-- Unless it is set, it moves on, and by no more than it is advanced. -/
  onward : ∀ steps least most, Lasts steps least most → ∀ stack (s : State), s.clock = t →
    t ≤ (runSteps stack steps s).2.clock ∧
    ∃ passed, least ≤ passed ∧ passed ≤ most ∧ (runSteps stack steps s).2.clock = t.add passed
  /-- It makes no difference in which parts it is advanced, and what is done in between. -/
  parts : ∀ steps length, Lasts steps length length → ∀ stack (s : State), s.clock = t →
    (runSteps stack steps s).2.clock = t.add length

theorem keepsTime {t : Instant} (calm : t.isLeap = false) : KeepsTime t where
  onward := by
    rintro steps least most lasts stack s rfl
    obtain ⟨passed, lower, upper, after⟩ := lasts.passes stack s calm
    exact ⟨after ▸ Instant.le_add calm, passed, lower, upper, after⟩
  parts := by
    rintro steps length lasts stack s rfl
    obtain ⟨passed, lower, upper, after⟩ := lasts.passes stack s calm
    obtain rfl : passed = length := congrArg Duration.mk (Nat.le_antisymm upper lower)
    exact after

end Simulation

/-- Outside leap seconds, adding a duration to an instant gives the exact sum, or the last instant if the sum lies behind
it, which is also where the calendar has no sum. So a sum never lies before its start, it grows with the start and with
the duration, and a clock that is advanced in parts shows what it shows when it is advanced at once. -/
theorem advances_saturate {t : Instant} (calm : t.isLeap = false) : t.Saturates ∧ Simulation.KeepsTime t :=
  ⟨Instant.saturates calm, Simulation.keepsTime calm⟩

/-- Two seconds in the last two seconds that there are: the first one is exact, the second one ends at the last instant,
and so do both together, whatever is done in between. -/
theorem advances_saturate_last_seconds :
    let t : Instant := ⟨8210266876798, 500000000, by decide, by decide, by decide, by decide⟩
    let second : Simulation.Step := .act {} (.advance true true (.ofSeconds 1))
    let s : Simulation.State :=
      { site := { backend := .memory .insertThenUpdate ∅, clock := t }, holders := ∅, providers := ∅ }
    t.isLeap = false ∧ t.add (.ofSeconds 1) = ⟨8210266876799, 500000000, by decide, by decide, by decide, by decide⟩ ∧
      (t.add (.ofSeconds 1)).add (.ofSeconds 1) = .max ∧
      (Simulation.runSteps [] [second, .act {} .assertLocked, second] s).2.clock = .max := by
  intro t second s
  have calm : t.isLeap = false := by decide
  obtain ⟨saturates, keeps⟩ := advances_saturate calm
  have both : t.add (.ofSeconds 1 + .ofSeconds 1) = .max := by decide
  have lasts : Simulation.Lasts [second, .act {} .assertLocked, second] (.ofSeconds 1 + .ofSeconds 1)
      (.ofSeconds 1 + .ofSeconds 1) := .advance (.still id (.advance .nil))
  refine ⟨calm, by decide, ?_, ?_⟩
  · rw [saturates.parts]
    exact both
  · rw [keeps.parts _ _ lasts [] s rfl]
    exact both

end TaskLease

import TaskLease.Proofs.Lease.ShardedStore
import TaskLease.Proofs.Provider.World

/-!
# Locks are independent by name

Any number of providers on one store that keeps names apart, with handles for any number of locks. The handles
of a lock are counted by themselves, so that they keep their numbers when steps about other locks are left out.

Two ledgers are `Alike` for a name if steps about that name can not tell them apart: they agree on the clock, on
what the store holds under the name, on which registries know it, and on its handles. A step about the name
answers the same on both and leaves both alike (`step_congr`). A step about another name leaves a ledger alike to
what it was (`step_frame`).
-/

namespace TaskLease

/-! ## Actions about one name -/

section

variable {τ : Type} [LinearOrder τ] {store : ShardedStore τ}

/-- An action that sees and changes the shard of one name only, and tells the same wherever that shard is the same. -/
structure Local (store : ShardedStore τ) (name : String) {α : Type} (action : Acting store.State α) : Prop where
  congr : ∀ stage stage', store.shard stage.store name = store.shard stage'.store name →
    (action stage).1 = (action stage').1 ∧
      store.shard (action stage).2.store name = store.shard (action stage').2.store name ∧
      ∃ told, (action stage).2.events = stage.events ++ told ∧ (action stage').2.events = stage'.events ++ told
  frame : ∀ stage other, name ≠ other → store.shard (action stage).2.store other = store.shard stage.store other

namespace Local

variable {name : String} {α β : Type}

theorem pure (a : α) : Local store name (Pure.pure a) where
  congr _ _ same := ⟨rfl, same, [], (List.append_nil _).symm, (List.append_nil _).symm⟩
  frame _ _ _ := rfl

theorem tell (event : Event) : Local store name (tell event) where
  congr _ _ same := ⟨rfl, same, [event], rfl, rfl⟩
  frame _ _ _ := rfl

theorem bind {first : Acting store.State α} {next : α → Acting store.State β} (head : Local store name first)
    (tail : ∀ a, Local store name (next a)) : Local store name (first >>= next) where
  congr stage stage' same := by
    obtain ⟨answer, same, told, events, events'⟩ := head.congr stage stage' same
    have rest := (tail (first stage).1).congr (first stage).2 (first stage').2 same
    obtain ⟨answer', same', later, after, after'⟩ := rest
    have runs (stage : Stage store.State) : (first >>= next) stage = next (first stage).1 (first stage).2 := rfl
    rw [runs, runs, ← answer]
    refine ⟨answer', same', told ++ later, ?_, ?_⟩
    · rw [after, events, List.append_assoc]
    · rw [after', events', List.append_assoc]
  frame stage other ne := ((tail (first stage).1).frame (first stage).2 other ne).trans (head.frame stage other ne)

end Local

variable {strategy : AcquireStrategy} {holder : String} {now : Instant}

theorem Local.act (op : Operation) (config : LockConfig) :
    Local store config.name ((store.accessor strategy holder now).act op config) where
  congr stage stage' same := by
    obtain ⟨answer, same⟩ := store.perform_congr (a := { holder, config, now, strategy, op }) same
    exact ⟨answer, same, [], (List.append_nil _).symm, (List.append_nil _).symm⟩
  frame stage other ne := store.shard_perform_of_ne (a := { holder, config, now, strategy, op }) ne

namespace Lease

variable (l : Lease)

theorem local_unlock : Local store l.config.name (l.unlock (store.accessor strategy holder now)) := by
  unfold unlock
  cases l.state with
  | released | lost => exact .pure _
  | held =>
    apply Local.bind (.act _ _)
    rintro (fault | applied) <;> exact .pure _

theorem local_extend (atMost atLeast : Duration) :
    Local store l.config.name (l.extend (store.accessor strategy holder now) atMost atLeast) := by
  unfold extend
  cases l.state with
  | released | lost => exact .pure _
  | held =>
    cases allowed : l.config.withDurations atMost atLeast with
    | error e => exact .pure _
    | ok extended =>
      have named : extended.name = l.config.name := (LockConfig.withDurations_eq_ok_iff.mp allowed).1
      apply Local.bind (named ▸ .act _ extended)
      rintro (fault | _ | _)
      · exact .bind (.tell _) fun _ => .pure _
      · exact .bind (.tell _) fun _ => .bind (.tell _) fun _ => .pure _
      · exact .bind (.tell _) fun _ => .pure _

theorem local_drop : Local store l.config.name (l.drop (store.accessor strategy holder now)) := by
  unfold drop
  cases l.state with
  | released | lost => exact .pure _
  | held =>
    apply Local.bind (.tell _)
    intro _
    apply Local.bind (.act _ _)
    rintro (fault | applied)
    · exact .tell _
    · exact .pure _

end Lease

/-! ## Attempts -/

section

variable {config : LockConfig} {registry registry' : Registry} {s s' : store.State} {name : String}

/-- A phase depends on the shard of its own name, and on whether the registry knows that name. -/
theorem phase_congr (strategy : AcquireStrategy) (holder : String) (now : Instant) (a : Attempt)
    (known : registry.contains config.name = registry'.contains config.name)
    (same : store.shard s config.name = store.shard s' config.name) :
    let next := a.step (store.accessor strategy holder now) config registry s
    let next' := a.step (store.accessor strategy holder now) config registry' s'
    next.1 = next'.1 ∧ next.2.1.contains config.name = next'.2.1.contains config.name ∧
      store.shard next.2.2 config.name = store.shard next'.2.2 config.name := by
  cases a with
  | looking => exact ⟨congrArg Attempt.afterLook known, known, same⟩
  | inserting remembers =>
    obtain ⟨answer, same⟩ := store.perform_congr (a := { holder, config, now, strategy, op := .insert }) same
    exact ⟨congrArg (Attempt.afterInsert remembers) answer, known, same⟩
  | remembering acquired => exact ⟨rfl, by simp [Attempt.step, Registry.contains_add], same⟩
  | updating inserted =>
    obtain ⟨answer, same⟩ := store.perform_congr (a := { holder, config, now, strategy, op := .update }) same
    exact ⟨congrArg (Attempt.afterUpdate inserted) answer, known, same⟩
  | forgetting fault => exact ⟨rfl, by simp [Attempt.step, Registry.contains_remove], same⟩
  | finished answer => exact ⟨rfl, known, same⟩

theorem phases_congr (k : Nat) (a : Attempt)
    (known : registry.contains config.name = registry'.contains config.name)
    (same : store.shard s config.name = store.shard s' config.name) :
    let last := Attempt.steps (store.accessor strategy holder now) config k a registry s
    let last' := Attempt.steps (store.accessor strategy holder now) config k a registry' s'
    last.1 = last'.1 ∧ last.2.1.contains config.name = last'.2.1.contains config.name ∧
      store.shard last.2.2 config.name = store.shard last'.2.2 config.name := by
  induction k generalizing a registry registry' s s' with
  | zero => exact ⟨rfl, known, same⟩
  | succ k ih =>
    obtain ⟨phase, known, same⟩ := phase_congr strategy holder now a known same
    simp only [Attempt.steps]
    rw [← phase]
    exact ih _ known same

theorem phases_frame (k : Nat) (a : Attempt) (registry : Registry) (s : store.State) (other : config.name ≠ name) :
    let last := Attempt.steps (store.accessor strategy holder now) config k a registry s
    last.2.1.contains name = registry.contains name ∧ store.shard last.2.2 name = store.shard s name := by
  induction k generalizing a registry s with
  | zero => exact ⟨rfl, rfl⟩
  | succ k ih =>
    let next := a.step (store.accessor strategy holder now) config registry s
    obtain ⟨known, same⟩ := ih next.1 next.2.1 next.2.2
    have knows : next.2.1.contains name = registry.contains name :=
      (Race.step_of_ne strategy holder now _ a registry s other).2
    refine ⟨known.trans knows, same.trans ?_⟩
    rcases Race.store_step (store.accessor strategy holder now) config a registry s with unchanged | ⟨op, performed⟩
    · exact congrArg (store.shard · name) unchanged
    · exact (congrArg (store.shard · name) performed).trans
        (store.shard_perform_of_ne (a := { holder, config, now, strategy, op }) other)

theorem acquire_congr (strategy : AcquireStrategy) (holder : String) (now : Instant)
    (known : registry.contains config.name = registry'.contains config.name)
    (same : store.shard s config.name = store.shard s' config.name) :
    let last := acquire (store.accessor strategy holder now) config registry s
    let last' := acquire (store.accessor strategy holder now) config registry' s'
    last.1 = last'.1 ∧ last.2.1.contains config.name = last'.2.1.contains config.name ∧
      store.shard last.2.2 config.name = store.shard last'.2.2 config.name := by
  obtain ⟨phase, after⟩ := phases_congr 5 (.first strategy) known same
  exact ⟨congrArg Attempt.answer phase, after⟩

theorem acquire_frame (strategy : AcquireStrategy) (holder : String) (now : Instant) (registry : Registry)
    (s : store.State) (other : config.name ≠ name) :
    let last := acquire (store.accessor strategy holder now) config registry s
    last.2.1.contains name = registry.contains name ∧ store.shard last.2.2 name = store.shard s name :=
  phases_frame 5 (.first strategy) registry s other

end

end

/-! ## Ledgers -/

/-- A store that keeps names apart, and who the providers on it act for, by their numbers. -/
structure ShardedSetting (τ : Type) [LinearOrder τ] where
  store : ShardedStore τ
  strategy : Nat → AcquireStrategy
  holder : Nat → String

/-- A store with providers, and the handles of each lock. -/
structure Ledger (σ : Type) where
  stage : Stage σ
  clock : Instant
  registries : Nat → Registry := fun _ => .empty
  /-- The handles given out for a lock, the first one first. -/
  handles : String → List Issued := fun _ => []

namespace Ledger

/-- What happens in one step. Handles go by the name of their lock and their number among its handles. -/
inductive Act where
  | tryLock (provider : Nat) (config : LockConfig)
  | unlock (name : String) (handle : Nat)
  | extend (name : String) (handle : Nat) (atMost atLeast : Duration)
  | drop (name : String) (handle : Nat)
  /-- The background release of a dropped handle. -/
  | settle (name : String) (handle : Nat)
  | find (name : String)
  | clearCache (provider : Nat)
  | setClock (now : Instant)
deriving DecidableEq, Repr

namespace Act

/-- The name that a step is about, if it is about one. -/
def name? : Act → Option String
  | .tryLock _ config => some config.name
  | .unlock name _ | .extend name _ _ _ | .drop name _ | .settle name _ | .find name => some name
  | .clearCache _ | .setClock _ => none

/-- Whether a step is about a name, or about no name in particular. -/
def concerns (name : String) (act : Act) : Bool := act.name?.all fun other => other = name

theorem concerns_of_ne {act : Act} {name other : String} (about : act.name? = some other) (ne : other ≠ name) :
    act.concerns name = false := by
  simp [concerns, about, ne]

end Act

variable {σ : Type}

/-- A step through a handle of the given standing, which leaves another handle in its place. If there is no such
handle it does nothing. -/
def through (w : Ledger σ) (name : String) (i : Nat) (standing : Standing)
    (use : Issued → Acting σ (World.Answer × Issued)) : World.Answer × Ledger σ :=
  match Issued.at? (w.handles name) i standing with
  | some x =>
    let reply := use x w.stage
    (reply.1.1,
      { w with stage := reply.2, handles := Function.update w.handles name ((w.handles name).set i reply.1.2) })
  | none => (.nothing, w)

/-- The handles of a lock bear its name. -/
def WellNamed (w : Ledger σ) : Prop := ∀ name, ∀ x ∈ w.handles name, x.name = name

end Ledger

namespace Issued

variable {σ : Type} (accessor : Accessor σ)

/-- A release through a handle. -/
def unlock (x : Issued) : Acting σ (World.Answer × Issued) := do
  let (answer, lease) ← x.lease.unlock accessor
  return (.released answer, { x with lease })

/-- An extension through a handle. -/
def extend (atMost atLeast : Duration) (x : Issued) : Acting σ (World.Answer × Issued) := do
  let (answer, lease) ← x.lease.extend accessor atMost atLeast
  return (.extended answer, { x with lease })

/-- A handle is given up. -/
def drop (x : Issued) : Acting σ (World.Answer × Issued) := return (.nothing, { x with standing := .dropped })

/-- The background release of a handle. -/
def settle (x : Issued) : Acting σ (World.Answer × Issued) := fun stage =>
  let last := (x.lease.drop accessor stage).2
  ((.settled (last.events.drop stage.events.length), { x with standing := .gone }), last)

end Issued

namespace ShardedSetting

open Ledger

variable {τ : Type} [LinearOrder τ] (e : ShardedSetting τ)

/-- The accessor of a provider at an instant. -/
def accessor (provider : Nat) (now : Instant) : Accessor e.store.State :=
  e.store.accessor (e.strategy provider) (e.holder provider) now

/-- An attempt of a provider. -/
def tryLock (w : Ledger e.store.State) (provider : Nat) (config : LockConfig) :
    World.Answer × Ledger e.store.State :=
  let reply := Provider.tryPlain (e.accessor provider w.clock) config (w.registries provider) w.stage
  (.attempted reply.1.1,
    { w with
      stage := reply.2
      registries := Function.update w.registries provider reply.1.2
      handles := Function.update w.handles config.name
        (w.handles config.name ++ Issued.ofAnswer provider reply.1.1) })

/-- One step. -/
def step (w : Ledger e.store.State) : Act → World.Answer × Ledger e.store.State
  | .tryLock provider config => e.tryLock w provider config
  | .unlock name i => w.through name i .kept fun x => x.unlock (e.accessor x.provider w.clock)
  | .extend name i atMost atLeast =>
    w.through name i .kept fun x => x.extend (e.accessor x.provider w.clock) atMost atLeast
  | .drop name i => w.through name i .kept Issued.drop
  | .settle name i => w.through name i .dropped fun x => x.settle (e.accessor x.provider w.clock)
  | .find name => (.found (e.store.find w.stage.store name), w)
  | .clearCache provider =>
    (.nothing, { w with registries := Function.update w.registries provider (w.registries provider).clear })
  | .setClock now => (.nothing, { w with clock := now })

/-- Some steps with their answers, and the ledger after them. -/
def run : List Act → Ledger e.store.State → List (Act × World.Answer) × Ledger e.store.State
  | [], w => ([], w)
  | act :: rest, w =>
    let next := e.step w act
    let later := run rest next.2
    ((act, next.1) :: later.1, later.2)

/-- The ledger at the beginning, when no provider has done anything yet. -/
def start (s : e.store.State) (now : Instant) : Ledger e.store.State where
  stage := { store := s }
  clock := now

/-- What is seen of a name in a run: the steps that concern it with their answers, and the record in the end. -/
def view (name : String) (acts : List Act) (w : Ledger e.store.State) :
    List (Act × World.Answer) × Except StoreFault (Option LockRecord) :=
  let last := e.run acts w
  (last.1.filter fun entry => entry.1.concerns name, e.store.find last.2.stage.store name)

/-- Locks are independent: steps about other names are not seen, and neither is their order. -/
structure Independent : Prop where
  /-- The steps that do not concern a name can be left out. -/
  leave_out : ∀ s now name acts,
    e.view name acts (e.start s now) = e.view name (acts.filter (Act.concerns name)) (e.start s now)
  /-- Neighbouring steps about two names can change places. -/
  exchange : ∀ s now before first second after, ∀ n m, first.name? = some n →
    second.name? = some m → n ≠ m → ∀ name, e.view name (before ++ first :: second :: after) (e.start s now) =
      e.view name (before ++ second :: first :: after) (e.start s now)

/-- Steps about a name can not tell two ledgers apart. -/
structure Alike (name : String) (w w' : Ledger e.store.State) : Prop where
  clock : w.clock = w'.clock
  shard : e.store.shard w.stage.store name = e.store.shard w'.stage.store name
  known : ∀ provider, (w.registries provider).contains name = (w'.registries provider).contains name
  handles : w.handles name = w'.handles name

namespace Alike

variable {e} {name : String} {w w' w'' : Ledger e.store.State}

theorem refl (w : Ledger e.store.State) : e.Alike name w w := ⟨rfl, rfl, fun _ => rfl, rfl⟩

theorem trans (first : e.Alike name w w') (second : e.Alike name w' w'') : e.Alike name w w'' :=
  ⟨first.clock.trans second.clock, first.shard.trans second.shard,
    fun provider => (first.known provider).trans (second.known provider), first.handles.trans second.handles⟩

end Alike

end ShardedSetting

/-! ## Steps through handles -/

section

variable {τ : Type} [LinearOrder τ] {store : ShardedStore τ} {strategy : AcquireStrategy} {holder : String}
  {now : Instant}

namespace Issued

theorem local_unlock (x : Issued) : Local store x.name (x.unlock (store.accessor strategy holder now)) :=
  .bind x.lease.local_unlock fun _ => .pure _

theorem local_extend (x : Issued) (atMost atLeast : Duration) :
    Local store x.name (x.extend (store.accessor strategy holder now) atMost atLeast) :=
  .bind (x.lease.local_extend atMost atLeast) fun _ => .pure _

theorem local_settle (x : Issued) : Local store x.name (x.settle (store.accessor strategy holder now)) where
  congr stage stage' same := by
    obtain ⟨-, same, told, events, events'⟩ := x.lease.local_drop.congr stage stage' same
    refine ⟨?_, same, told, events, events'⟩
    simp only [settle, events, events', List.drop_left]
  frame := x.lease.local_drop.frame

end Issued

end

namespace Ledger

section

variable {σ : Type} {w : Ledger σ} {name : String}

theorem WellNamed.update (named : w.WellNamed) {handles : List Issued} (own : ∀ x ∈ handles, x.name = name)
    (stage : Stage σ) (registries : Nat → Registry) :
    WellNamed { w with stage, registries, handles := Function.update w.handles name handles } := by
  intro other
  by_cases same : other = name
  · subst same
    simpa using own
  · simpa [Function.update_of_ne same] using named other

theorem WellNamed.through (named : w.WellNamed) (i : Nat) (standing : Standing)
    {use : Issued → Acting σ (World.Answer × Issued)} (keeps : ∀ x stage, (use x stage).1.2.name = x.name) :
    (w.through name i standing use).2.WellNamed := by
  unfold Ledger.through
  split
  · rename_i x found
    apply named.update
    intro y member
    rcases List.mem_or_eq_of_mem_set member with there | rfl
    · exact named name y there
    · obtain ⟨there, -⟩ := Issued.at?_eq_some.mp found
      exact (keeps x w.stage).trans (named name x (List.mem_of_getElem? there))
  · exact named

end

end Ledger

namespace ShardedSetting

open Ledger

variable {τ : Type} [LinearOrder τ] {e : ShardedSetting τ} {w w' : Ledger e.store.State} {name other : String}

theorem through_congr (alike : e.Alike name w w') (named : w.WellNamed) (i : Nat) (standing : Standing)
    {use : Issued → Acting e.store.State (World.Answer × Issued)}
    (is_local : ∀ x, x.name = name → Local e.store name (use x)) :
    (w.through name i standing use).1 = (w'.through name i standing use).1 ∧
      e.Alike name (w.through name i standing use).2 (w'.through name i standing use).2 := by
  unfold through
  rw [← alike.handles]
  split
  · rename_i x found
    obtain ⟨there, -⟩ := Issued.at?_eq_some.mp found
    have own := named name x (List.mem_of_getElem? there)
    obtain ⟨reply, shard, -⟩ := (is_local x own).congr w.stage w'.stage alike.shard
    dsimp only
    rw [reply]
    refine ⟨rfl, alike.clock, shard, alike.known, ?_⟩
    simp only [Function.update_self]
  · exact ⟨rfl, alike⟩

theorem through_frame (named : w.WellNamed) (i : Nat) (standing : Standing)
    {use : Issued → Acting e.store.State (World.Answer × Issued)}
    (is_local : ∀ x, x.name = name → Local e.store name (use x)) (ne : name ≠ other) :
    e.Alike other (w.through name i standing use).2 w := by
  unfold through
  split
  · rename_i x found
    obtain ⟨there, -⟩ := Issued.at?_eq_some.mp found
    have own := named name x (List.mem_of_getElem? there)
    exact ⟨rfl, (is_local x own).frame w.stage other ne, fun _ => rfl, Function.update_of_ne ne.symm ..⟩
  · exact .refl w

/-- What an attempt does, in terms of what it comes to on the store. -/
theorem attempt_spec (w : Ledger e.store.State) (provider : Nat) (config : LockConfig) :
    let last := acquire (e.accessor provider w.clock) config (w.registries provider) w.stage.store
    let next := e.tryLock w provider config
    next.1 = .attempted (Provider.answerOf config last.1) ∧ next.2.clock = w.clock ∧
      next.2.stage.store = last.2.2 ∧ next.2.registries = Function.update w.registries provider last.2.1 ∧
      next.2.handles = Function.update w.handles config.name
        (w.handles config.name ++ Issued.ofAnswer provider (Provider.answerOf config last.1)) := by
  refine ⟨congrArg World.Answer.attempted Provider.tryPlain_answer, rfl, Provider.tryPlain_state.2, ?_, ?_⟩
  · exact congrArg (Function.update w.registries provider) Provider.tryPlain_state.1
  · exact congrArg (fun answer => Function.update w.handles config.name
      (w.handles config.name ++ Issued.ofAnswer provider answer)) Provider.tryPlain_answer

theorem tryLock_congr (provider : Nat) (config : LockConfig) (alike : e.Alike config.name w w') :
    (e.tryLock w provider config).1 = (e.tryLock w' provider config).1 ∧
      e.Alike config.name (e.tryLock w provider config).2 (e.tryLock w' provider config).2 := by
  obtain ⟨answer, known, shard⟩ := acquire_congr (e.strategy provider) (e.holder provider) w.clock
    (alike.known provider) alike.shard
  obtain ⟨answered, clock, store, registries, handles⟩ := attempt_spec w provider config
  obtain ⟨answered', clock', store', registries', handles'⟩ := attempt_spec w' provider config
  rw [← alike.clock, accessor, ← answer] at answered' handles'
  rw [← alike.clock, accessor] at store' registries'
  rw [accessor] at answered handles store registries
  constructor
  · rw [answered, answered']
  constructor
  · rw [clock, clock', alike.clock]
  · rw [store, store', shard]
  · intro other
    rw [registries, registries']
    by_cases same : other = provider
    · subst same
      rw [Function.update_self, Function.update_self, known]
    · rw [Function.update_of_ne same, Function.update_of_ne same, alike.known]
  · rw [handles, handles', Function.update_self, Function.update_self, alike.handles]

theorem tryLock_frame (w : Ledger e.store.State) (provider : Nat) {config : LockConfig} (ne : config.name ≠ other) :
    e.Alike other (e.tryLock w provider config).2 w := by
  obtain ⟨known, shard⟩ := acquire_frame (e.strategy provider) (e.holder provider) w.clock (w.registries provider)
    w.stage.store ne
  obtain ⟨-, clock, store, registries, handles⟩ := attempt_spec w provider config
  constructor
  · exact clock
  · rw [store]
    exact shard
  · intro another
    rw [registries]
    by_cases same : another = provider
    · subst same
      rw [Function.update_self]
      exact known
    · rw [Function.update_of_ne same]
  · rw [handles, Function.update_of_ne ne.symm]

theorem WellNamed.tryLock (named : w.WellNamed) (provider : Nat) (config : LockConfig) :
    (e.tryLock w provider config).2.WellNamed := by
  apply named.update
  intro x member
  rcases List.mem_append.mp member with there | given
  · exact named config.name x there
  · rw [Provider.tryPlain_answer] at given
    exact Issued.name_ofAnswer given

/-! ## Steps -/

/-- A step that concerns a name answers the same on ledgers that are alike for it, and leaves them alike. -/
theorem step_congr {act : Act} (concerned : act.concerns name = true) (alike : e.Alike name w w')
    (named : w.WellNamed) :
    (e.step w act).1 = (e.step w' act).1 ∧ e.Alike name (e.step w act).2 (e.step w' act).2 := by
  cases act with
  | tryLock provider config =>
    obtain rfl : config.name = name := of_decide_eq_true concerned
    exact tryLock_congr provider config alike
  | unlock other i =>
    obtain rfl : other = name := of_decide_eq_true concerned
    simp only [step, ← alike.clock]
    exact through_congr alike named i .kept fun x own => own ▸ x.local_unlock
  | extend other i atMost atLeast =>
    obtain rfl : other = name := of_decide_eq_true concerned
    simp only [step, ← alike.clock]
    exact through_congr alike named i .kept fun x own => own ▸ x.local_extend atMost atLeast
  | drop other i =>
    obtain rfl : other = name := of_decide_eq_true concerned
    exact through_congr alike named i .kept fun x _ => .pure _
  | settle other i =>
    obtain rfl : other = name := of_decide_eq_true concerned
    simp only [step, ← alike.clock]
    exact through_congr alike named i .dropped fun x own => own ▸ x.local_settle
  | find other =>
    obtain rfl : other = name := of_decide_eq_true concerned
    exact ⟨congrArg World.Answer.found (e.store.find_congr alike.shard), alike⟩
  | clearCache provider =>
    refine ⟨rfl, alike.clock, alike.shard, ?_, alike.handles⟩
    intro other
    by_cases same : other = provider
    · subst same
      simp [step]
    · simp [step, Function.update_of_ne same, alike.known]
  | setClock now => exact ⟨rfl, rfl, alike.shard, alike.known, alike.handles⟩

/-- A step about another name leaves a ledger as it is, as far as a name is concerned. -/
theorem step_frame {act : Act} (unconcerned : act.concerns name = false) (named : w.WellNamed) :
    e.Alike name (e.step w act).2 w := by
  cases act with
  | tryLock provider config =>
    have ne : config.name ≠ name := of_decide_eq_false unconcerned
    exact tryLock_frame w provider ne
  | unlock other i =>
    have ne : other ≠ name := of_decide_eq_false unconcerned
    exact through_frame named i .kept (fun x own => own ▸ x.local_unlock) ne
  | extend other i atMost atLeast =>
    have ne : other ≠ name := of_decide_eq_false unconcerned
    exact through_frame named i .kept (fun x own => own ▸ x.local_extend atMost atLeast) ne
  | drop other i =>
    have ne : other ≠ name := of_decide_eq_false unconcerned
    exact through_frame named i .kept (fun x _ => .pure _) ne
  | settle other i =>
    have ne : other ≠ name := of_decide_eq_false unconcerned
    exact through_frame named i .dropped (fun x own => own ▸ x.local_settle) ne
  | find other => exact .refl w
  | clearCache _ | setClock _ => cases unconcerned

theorem step_wellNamed (named : w.WellNamed) (act : Act) : (e.step w act).2.WellNamed := by
  cases act with
  | tryLock provider config => exact WellNamed.tryLock named provider config
  | unlock name i => exact named.through i .kept fun x stage => x.lease.name_unlock _ stage
  | extend name i atMost atLeast =>
    exact named.through i .kept fun x stage => x.lease.name_extend _ stage atMost atLeast
  | drop name i => exact named.through i .kept fun _ _ => rfl
  | settle name i => exact named.through i .dropped fun _ _ => rfl
  | find _ | clearCache _ | setClock _ => exact named

/-! ## Runs -/

/-- What is seen of a name is the same without the steps that do not concern it, from ledgers that are alike. -/
theorem view_filter (acts : List Act) (alike : e.Alike name w w') (named : w.WellNamed) (named' : w'.WellNamed) :
    e.view name acts w = e.view name (acts.filter (Act.concerns name)) w' := by
  induction acts generalizing w w' with
  | nil => exact congrArg (Prod.mk []) (e.store.find_congr alike.shard)
  | cons act rest ih =>
    cases concerned : act.concerns name with
    | true =>
      obtain ⟨answer, next⟩ := step_congr concerned alike named
      have later := ih next (step_wellNamed named act) (step_wellNamed named' act)
      obtain ⟨answers, record⟩ := Prod.mk.inj later
      rw [List.filter_cons_of_pos concerned]
      simp only [view, run, List.filter_cons_of_pos, concerned, answer, answers, record]
    | false =>
      have next := (step_frame (e := e) concerned named).trans alike
      have later := ih next (step_wellNamed named act) named'
      rw [List.filter_cons_of_neg (by simp [concerned]), ← later]
      simp [view, run, concerned]

theorem start_wellNamed (s : e.store.State) (now : Instant) : (e.start s now).WellNamed := by
  intro name x member
  cases member

theorem independent (e : ShardedSetting τ) : e.Independent where
  leave_out s now name acts := view_filter acts (.refl _) (start_wellNamed s now) (start_wellNamed s now)
  exchange s now before first second after n m about about' ne name := by
    have named := start_wellNamed (e := e) s now
    rw [view_filter _ (.refl _) named named, view_filter (before ++ second :: first :: after) (.refl _) named named]
    -- At most one of the two concerns the name, so the same steps are left.
    have same : (before ++ first :: second :: after).filter (Act.concerns name) =
        (before ++ second :: first :: after).filter (Act.concerns name) := by
      by_cases other : n = name
      · have unconcerned := Act.concerns_of_ne about' fun same => ne (other.trans same.symm)
        simp [List.filter_cons, unconcerned]
      · have unconcerned := Act.concerns_of_ne about other
        simp [List.filter_cons, unconcerned]
    rw [same]

end ShardedSetting

/-- Locks are independent by name, in memory, in files and on a hash server: whoever tries, extends, releases and
drops them, in which order, what is answered about one lock and its record in the end do not depend on what is
done about the others. -/
theorem names_independent (strategy : Nat → AcquireStrategy) (holder : Nat → String) :
    ShardedSetting.Independent ⟨.memory, strategy, holder⟩ ∧
      (∀ s, ShardedSetting.Independent ⟨.file s, strategy, holder⟩) ∧
      ∀ c, ShardedSetting.Independent ⟨.redis c, strategy, holder⟩ :=
  ⟨ShardedSetting.independent _, fun _ => ShardedSetting.independent _, fun _ => ShardedSetting.independent _⟩

end TaskLease

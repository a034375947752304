import TaskLease.Proofs.Provider.HandleLife

/-!
# Stores that are images of others

Providers and handles know a store by its accessor only. If an accessor does to the image of a state what another
one does to the state, an action on the one store therefore does what it does on the other: it comes to the same,
tells the same, and leaves the image of what is left. `Natural` says so of an action, for every map and every two
accessors, and holds of all that providers and handles do.

An accessor that keeps a record of its calls is such a case, so what is observed of an action is what it does
(`Natural.observe`).
-/

namespace TaskLease

/-- What one action does to the image of a state is the image of what another one does to the state. -/
def Imaged {S T α : Type} (φ : S → T) (f : StateM S α) (g : StateM T α) : Prop :=
  ∀ s, g (φ s) = ((f s).1, φ (f s).2)

namespace Imaged

variable {S T α β : Type} {φ : S → T}

theorem pure (a : α) : Imaged φ (Pure.pure a) (Pure.pure a) := fun _ => rfl

theorem bind {f : StateM S α} {g : StateM T α} {next : α → StateM S β} {next' : α → StateM T β}
    (head : Imaged φ f g) (tail : ∀ a, Imaged φ (next a) (next' a)) : Imaged φ (f >>= next) (g >>= next') := by
  intro s
  have runs : (g >>= next') (φ s) = next' (g (φ s)).1 (g (φ s)).2 := rfl
  rw [runs, head s]
  exact tail (f s).1 (f s).2

end Imaged

/-- The same stage with the image of its store. -/
def Stage.map {τ σ : Type} (π : τ → σ) (stage : Stage τ) : Stage σ := { store := π stage.store, events := stage.events }

/-- An accessor does to the image of a state what another one does to the state. -/
structure Accessor.Images {τ σ : Type} (π : τ → σ) (fine : Accessor τ) (coarse : Accessor σ) : Prop where
  strategy : coarse.strategy = fine.strategy
  perform : ∀ op config s,
    coarse.perform op config (π s) = ((fine.perform op config s).1, π (fine.perform op config s).2)

/-- An action that knows a store by its accessor only. -/
def Natural {α : Type} (action : (τ : Type) → Accessor τ → Acting τ α) : Prop :=
  ∀ (τ σ : Type) (π : τ → σ) (fine : Accessor τ) (coarse : Accessor σ), fine.Images π coarse →
    Imaged (Stage.map π) (action τ fine) (action σ coarse)

namespace Natural

variable {α β : Type}

theorem pure (a : α) : Natural fun _ _ => Pure.pure a := fun _ _ _ _ _ _ => .pure a

theorem tell (event : Event) : Natural fun _ _ => tell event := fun _ _ _ _ _ _ _ => rfl

theorem act (op : Operation) (config : LockConfig) : Natural fun _ accessor => accessor.act op config := by
  intro τ σ π fine coarse images stage
  simp only [Accessor.act, Stage.map, images.perform]
  rfl

theorem bind {first : (τ : Type) → Accessor τ → Acting τ α} {next : α → (τ : Type) → Accessor τ → Acting τ β}
    (head : Natural first) (tail : ∀ a, Natural (next a)) :
    Natural fun τ accessor => first τ accessor >>= fun a => next a τ accessor :=
  fun τ σ π fine coarse images => (head τ σ π fine coarse images).bind fun a => tail a τ σ π fine coarse images

end Natural

/-! ## Leases -/

namespace Lease

variable (l : Lease)

theorem natural_unlock : Natural fun _ accessor => l.unlock accessor := by
  unfold unlock
  cases l.state with
  | released | lost => exact .pure _
  | held =>
    apply Natural.bind (.act _ _)
    rintro (fault | applied) <;> exact .pure _

theorem natural_extend (atMost atLeast : Duration) : Natural fun _ accessor => l.extend accessor atMost atLeast := by
  unfold extend
  cases l.state with
  | released | lost => exact .pure _
  | held =>
    cases l.config.withDurations atMost atLeast with
    | error e => exact .pure _
    | ok extended =>
      apply Natural.bind (.act _ _)
      rintro (fault | _ | _)
      · exact .bind (.tell _) fun _ => .pure _
      · exact .bind (.tell _) fun _ => .bind (.tell _) fun _ => .pure _
      · exact .bind (.tell _) fun _ => .pure _

theorem natural_drop : Natural fun _ accessor => l.drop accessor := by
  unfold drop
  cases l.state with
  | released | lost => exact .pure _
  | held =>
    apply Natural.bind (.tell _)
    intro _
    apply Natural.bind (.act _ _)
    rintro (fault | applied)
    · exact .tell _
    · exact .pure _

end Lease

/-! ## Handles -/

namespace Handle

theorem natural_unlock (h : Handle) (p : Provider) : Natural fun _ accessor => h.unlock accessor p := by
  induction h generalizing p with
  | lease l => exact .bind l.natural_unlock fun _ => .pure _
  | keptAlive r h ih => exact .bind (ih p.inner) fun _ => .pure _
  | tracked id h ih =>
    apply Natural.bind (ih p.inner)
    rintro ⟨_ | _, h, p⟩ <;> exact .pure _

theorem natural_extend (h : Handle) (atMost atLeast : Duration) (p : Provider) :
    Natural fun _ accessor => h.extend accessor atMost atLeast p := by
  induction h generalizing p with
  | lease l => exact .bind (l.natural_extend atMost atLeast) fun _ => .pure _
  | keptAlive r h ih => exact .pure _
  | tracked id h ih =>
    apply Natural.bind (ih p.inner)
    rintro ⟨_ | _ | _, h, p⟩ <;> exact .pure _

theorem natural_drop (h : Handle) (p : Provider) : Natural fun _ accessor => h.drop accessor p := by
  induction h generalizing p with
  | lease l => exact .bind l.natural_drop fun _ => .pure _
  | keptAlive r h ih | tracked id h ih => exact .bind (ih p.inner) fun _ => .pure _

theorem natural_renew (h : Handle) (due now : Duration) (r : Renewal) (p : Provider) :
    Natural fun _ accessor => h.renew accessor due now r p := by
  unfold renew
  rcases r.tick due now with ⟨_ | _ | atLeast, next⟩
  · exact .pure _
  · exact .bind (.tell _) fun _ => .pure _
  · apply Natural.bind (h.natural_extend next.config.atMost atLeast p)
    rintro ⟨_ | _ | _, h, p⟩
    · exact .bind (.tell _) fun _ => .pure _
    · exact .bind (.tell _) fun _ => .pure _
    · exact .pure _

theorem natural_ring (h : Handle) (due now : Duration) (p : Provider) :
    Natural fun _ accessor => h.ring accessor due now p := by
  induction h generalizing p with
  | lease l => exact .pure _
  | keptAlive r h ih =>
    simp only [ring]
    split
    · exact .bind (ih p.inner) fun _ => .pure _
    · split
      · exact .bind (h.natural_renew due now r p.inner) fun _ => .pure _
      · exact .pure _
  | tracked id h ih => exact .bind (ih p.inner) fun _ => .pure _

end Handle

/-! ## Attempts -/

section

variable {τ σ : Type} {π : τ → σ} {fine : Accessor τ} {coarse : Accessor σ}

theorem Attempt.step_image (images : fine.Images π coarse) (a : Attempt) (config : LockConfig) (registry : Registry)
    (s : τ) :
    a.step coarse config registry (π s) =
      (let next := a.step fine config registry s
      (next.1, next.2.1, π next.2.2)) := by
  cases a with
  | inserting _ | updating _ => simp only [Attempt.step, images.perform]
  | looking | remembering _ | forgetting _ | finished _ => rfl

theorem Attempt.steps_image (images : fine.Images π coarse) (config : LockConfig) (k : Nat) (a : Attempt)
    (registry : Registry) (s : τ) :
    Attempt.steps coarse config k a registry (π s) =
      (let last := Attempt.steps fine config k a registry s
      (last.1, last.2.1, π last.2.2)) := by
  induction k generalizing a registry s with
  | zero => rfl
  | succ k ih =>
    rw [Attempt.steps, step_image images]
    exact ih ..

theorem acquire_image (images : fine.Images π coarse) (config : LockConfig) (registry : Registry) (s : τ) :
    acquire coarse config registry (π s) =
      (let last := acquire fine config registry s
      (last.1, last.2.1, π last.2.2)) := by
  rw [acquire, images.strategy, Attempt.steps_image images]
  rfl

end

namespace Provider

theorem natural_tryPlain (config : LockConfig) (registry : Registry) :
    Natural fun _ accessor => tryPlain accessor config registry := by
  intro τ σ π fine coarse images stage
  have same : acquire coarse config registry (stage.map π).store =
      (let last := acquire fine config registry stage.store
      (last.1, last.2.1, π last.2.2)) := acquire_image images config registry stage.store
  simp only [tryPlain, same]
  rcases acquire fine config registry stage.store with ⟨fault | _ | _, registry', s⟩ <;> rfl

theorem natural_tryLock (p : Provider) (now : Duration) (config : LockConfig) :
    Natural fun _ accessor => p.tryLock accessor now config := by
  induction p with
  | plain registry => exact .bind (natural_tryPlain config registry) fun _ => .pure _
  | keepingAlive minimum p ih =>
    simp only [tryLock]
    cases Renewal.check minimum config with
    | error e => exact .pure _
    | ok =>
      apply Natural.bind ih
      rintro ⟨_ | _ | h, p⟩ <;> exact .pure _
  | tracking tracker p ih =>
    apply Natural.bind ih
    rintro ⟨_ | _ | h, p⟩ <;> exact .pure _

end Provider

/-! ## Records of calls -/

theorem Accessor.recording_images {σ : Type} (accessor : Accessor σ) : accessor.recording.Images Prod.fst accessor :=
  ⟨rfl, fun _ _ _ => rfl⟩

/-- Recording its calls does not change what an action does. -/
theorem Natural.observe {σ α : Type} {action : (τ : Type) → Accessor τ → Acting τ α} (natural : Natural action)
    (accessor : Accessor σ) (stage : Stage σ) :
    ∃ calls, accessor.observe (action _) stage =
      (((action σ accessor stage).1, calls), (action σ accessor stage).2) := by
  have same := natural _ _ _ _ _ accessor.recording_images { store := (stage.store, []), events := stage.events }
  refine ⟨(accessor.observe (action _) stage).1.2, ?_⟩
  rw [show stage = Stage.map Prod.fst { store := (stage.store, ([] : List Accessor.Call)), events := stage.events } from
    rfl, same]
  rfl

end TaskLease

import TaskLease.Proofs.Provider.LeaseSteps

/-!
# The calls of an accessor

What a provider asks of its accessor is part of what it does, so the accessor can be made to keep a record of
its calls. `Accessor.observe` runs an action on such an accessor, and tells what the action comes to and which
calls it makes.

`acquire_reclaiming`, `acquire_known` and `acquire_unknown` spell out an attempt, call by call.
-/

namespace TaskLease

variable {σ : Type}

namespace Accessor

/-- A call, and how it was answered. -/
structure Call where
  op : Operation
  config : LockConfig
  answer : Except StoreFault Bool
deriving DecidableEq

/-- The same accessor, with the calls so far beside the state, the first one first. -/
def recording (accessor : Accessor σ) : Accessor (σ × List Call) where
  strategy := accessor.strategy
  perform op config s :=
    let reply := accessor.perform op config s.1
    (reply.1, (reply.2, s.2 ++ [⟨op, config, reply.1⟩]))

/-- What an action comes to, and the calls that it makes. -/
def observe {α : Type} (accessor : Accessor σ) (action : Accessor (σ × List Call) → Acting (σ × List Call) α) :
    Acting σ (α × List Call) := fun stage =>
  let reply := action accessor.recording { store := (stage.store, []), events := stage.events }
  ((reply.1, reply.2.store.2), { store := reply.2.store.1, events := reply.2.events })

end Accessor

/-! ## Attempts, call by call -/

section

variable {accessor : Accessor σ} {config : LockConfig} {registry : Registry} {s : σ}

theorem steps_finished (k : Nat) (answer : Except StoreFault Bool) (registry : Registry) (s : σ) :
    Attempt.steps accessor config k (.finished answer) registry s = (.finished answer, registry, s) := by
  induction k with
  | zero => rfl
  | succ k ih => exact ih

/-- The end of an attempt: the update, and what it puts into doubt. -/
theorem steps_updating (inserted : Bool) (registry : Registry) (s : σ) (k : Nat) :
    let reply := accessor.perform .update config s
    Attempt.steps accessor config (k + 2) (.updating inserted) registry s =
      match reply.1 with
      | .ok acquired => (.finished (.ok acquired), registry, reply.2)
      | .error fault =>
        (.finished (.error fault), if inserted then registry.remove config.name else registry, reply.2) := by
  simp only [Attempt.steps, Attempt.step]
  rcases (accessor.perform .update config s).1 with fault | acquired
  · cases inserted <;> exact steps_finished ..
  · exact steps_finished ..

theorem acquire_reclaiming (reclaims : accessor.strategy.insertReclaims = true) :
    let reply := accessor.perform .insert config s
    acquire accessor config registry s = (reply.1, registry, reply.2) := by
  have begins : Attempt.first accessor.strategy = .inserting false := by rw [Attempt.first, if_pos reclaims]
  have ends : Attempt.afterInsert false (accessor.perform .insert config s).1 =
      .finished (accessor.perform .insert config s).1 := by
    rcases (accessor.perform .insert config s).1 with fault | acquired <;> rfl
  rw [acquire, begins, Attempt.steps, Attempt.step, ends, steps_finished]
  rfl

theorem acquire_known (lasting : accessor.strategy.insertReclaims = false)
    (known : registry.contains config.name = true) :
    let reply := accessor.perform .update config s
    acquire accessor config registry s = (reply.1, registry, reply.2) := by
  have begins : Attempt.first accessor.strategy = .looking := by simp [Attempt.first, lasting]
  rw [acquire, begins, Attempt.steps, Attempt.step, Attempt.afterLook, if_pos known, steps_updating]
  dsimp only
  rcases (accessor.perform .update config s).1 with fault | acquired <;> rfl

/-- An attempt that does not know of a record begins with an insert. Only one that is refused goes on to the
update, and what was remembered then is forgotten if the update fails. -/
theorem acquire_unknown (lasting : accessor.strategy.insertReclaims = false)
    (unknown : registry.contains config.name = false) :
    let first := accessor.perform .insert config s
    let second := accessor.perform .update config first.2
    acquire accessor config registry s =
      match first.1 with
      | .error fault => (.error fault, registry, first.2)
      | .ok true => (.ok true, registry.add config.name, first.2)
      | .ok false =>
        match second.1 with
        | .error fault => (.error fault, (registry.add config.name).remove config.name, second.2)
        | .ok acquired => (.ok acquired, registry.add config.name, second.2) := by
  have begins : Attempt.first accessor.strategy = .looking := by simp [Attempt.first, lasting]
  have looks : Attempt.afterLook (registry.contains config.name) = .inserting true := by
    rw [unknown]
    rfl
  rw [acquire, begins, Attempt.steps, Attempt.step, looks, Attempt.steps, Attempt.step]
  dsimp only
  rcases (accessor.perform .insert config s).1 with fault | _ | _
  · rfl
  · rw [Attempt.afterInsert, if_pos rfl, Attempt.steps, Attempt.step, Attempt.afterRemember,
      if_neg Bool.false_ne_true, steps_updating]
    rcases (accessor.perform .update config (accessor.perform .insert config s).2).1 with fault | acquired <;> rfl
  · rfl

end

end TaskLease

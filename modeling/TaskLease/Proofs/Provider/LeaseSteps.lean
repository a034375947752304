import TaskLease.Proofs.Lease.Store
import TaskLease.Provider.Layers

/-!
# What handles do to a store

The effect of each operation on the store and on the handle, with the store's reply as a parameter. A handle
that is released or lost does nothing to the store.
-/

namespace TaskLease

variable {σ : Type} (accessor : Accessor σ) (stage : Stage σ)

namespace Lease

variable {l : Lease} {atMost atLeast : Duration}

theorem unlock_held (held : l.state = .held) :
    (l.unlock accessor stage).1 =
        (match (accessor.perform .unlock l.config stage.store).1 with
        | .ok _ => (.ok (), { l with state := .released })
        | .error fault => (.error (.storage fault), l)) ∧
      (l.unlock accessor stage).2.store = (accessor.perform .unlock l.config stage.store).2 := by
  simp only [unlock, held, bind, StateT.bind, Accessor.act]
  rcases accessor.perform .unlock l.config stage.store with ⟨fault | applied, s⟩ <;> exact ⟨rfl, rfl⟩

theorem unlock_idle (idle : l.state ≠ .held) : l.unlock accessor stage = ((.ok (), l), stage) := by
  unfold unlock
  cases state : l.state with
  | held => exact absurd state idle
  | released | lost => rfl

theorem extend_held {extended : LockConfig} (held : l.state = .held)
    (allowed : l.config.withDurations atMost atLeast = .ok extended) :
    (l.extend accessor atMost atLeast stage).1 =
        (match (accessor.perform .extend extended stage.store).1 with
        | .ok true => (.ok true, { l with config := extended })
        | .ok false => (.ok false, { l with state := .lost })
        | .error fault => (.error (.storage fault), l)) ∧
      (l.extend accessor atMost atLeast stage).2.store = (accessor.perform .extend extended stage.store).2 := by
  simp only [extend, held, allowed, bind, StateT.bind, Accessor.act]
  rcases accessor.perform .extend extended stage.store with ⟨fault | _ | _, s⟩ <;> exact ⟨rfl, rfl⟩

theorem extend_refused {e : LockError} (held : l.state = .held)
    (refused : l.config.withDurations atMost atLeast = .error e) :
    l.extend accessor atMost atLeast stage = ((.error e, l), stage) := by
  simp only [extend, held, refused]
  rfl

theorem extend_released (atMost atLeast : Duration) (released : l.state = .released) :
    l.extend accessor atMost atLeast stage = ((.error (.handleReleased l.config.name), l), stage) := by
  simp only [extend, released]
  rfl

theorem extend_lost (atMost atLeast : Duration) (lost : l.state = .lost) :
    l.extend accessor atMost atLeast stage = ((.ok false, l), stage) := by
  simp only [extend, lost]
  rfl

/-- A release leaves a handle of the same lock. -/
theorem name_unlock (l : Lease) : (l.unlock accessor stage).1.2.config.name = l.config.name := by
  by_cases held : l.state = .held
  · rw [(unlock_held accessor stage held).1]
    rcases (accessor.perform .unlock l.config stage.store).1 with fault | applied <;> rfl
  · rw [unlock_idle accessor stage held]

/-- So does an extension. -/
theorem name_extend (l : Lease) (atMost atLeast : Duration) :
    (l.extend accessor atMost atLeast stage).1.2.config.name = l.config.name := by
  cases state : l.state with
  | released => rw [extend_released accessor stage atMost atLeast state]
  | lost => rw [extend_lost accessor stage atMost atLeast state]
  | held =>
    cases allowed : l.config.withDurations atMost atLeast with
    | error e => rw [extend_refused accessor stage state allowed]
    | ok extended =>
      rw [(extend_held accessor stage state allowed).1]
      rcases (accessor.perform .extend extended stage.store).1 with fault | _ | _
      · rfl
      · rfl
      · exact (LockConfig.withDurations_eq_ok_iff.mp allowed).1

theorem drop_held (held : l.state = .held) :
    (l.drop accessor stage).2.events = stage.events ++ (.log .droppedWhileHeld l.config.name ::
        (match (accessor.perform .unlock l.config stage.store).1 with
        | .ok _ => []
        | .error _ => [.log .backgroundReleaseFailed l.config.name])) ∧
      (l.drop accessor stage).2.store = (accessor.perform .unlock l.config stage.store).2 := by
  simp only [drop, held, bind, StateT.bind, Accessor.act, tell, modify, modifyGet, MonadStateOf.modifyGet,
    StateT.modifyGet, pure]
  rcases accessor.perform .unlock l.config stage.store with ⟨fault | applied, s⟩
  · exact ⟨List.append_assoc .., rfl⟩
  · exact ⟨rfl, rfl⟩

theorem drop_idle (idle : l.state ≠ .held) : (l.drop accessor stage).2 = stage := by
  unfold drop
  cases state : l.state with
  | held => exact absurd state idle
  | released | lost => rfl

end Lease

namespace Provider

variable {accessor stage} {config : LockConfig} {registry : Registry}

/-- What an attempt's answer is to its caller. -/
def answerOf (config : LockConfig) : Except StoreFault Bool → Except LockError (Option Handle)
  | .ok true => .ok (some (.lease { config }))
  | .ok false => .ok none
  | .error fault => .error (.storage fault)

theorem eq_true_of_answerOf {answer : Except StoreFault Bool} {handle : Handle}
    (acquired : answerOf config answer = .ok (some handle)) : answer = .ok true := by
  rcases answer with fault | _ | _
  · cases acquired
  · cases acquired
  · rfl

theorem tryPlain_answer :
    (tryPlain accessor config registry stage).1.1 =
      answerOf config (acquire accessor config registry stage.store).1 := by
  unfold tryPlain
  rcases acquire accessor config registry stage.store with ⟨fault | _ | _, rest⟩ <;> rfl

theorem tryPlain_state :
    (tryPlain accessor config registry stage).1.2 = (acquire accessor config registry stage.store).2.1 ∧
      (tryPlain accessor config registry stage).2.store =
        (acquire accessor config registry stage.store).2.2 := by
  unfold tryPlain
  rcases acquire accessor config registry stage.store with ⟨fault | _ | _, rest⟩ <;> exact ⟨rfl, rfl⟩

end Provider

end TaskLease

import TaskLease.Proofs.Provider.HandleLife
import TaskLease.Proofs.Provider.Vigil

/-!
# A provider and its handles

A desk is a provider with all the handles that it has given out. Attempts give out more of them, each one is used
and dropped by whoever holds it, timers ring, and in between time passes and others do what they like to the store.
Every act leaves an entry in the history, with what it was answered. An act on a handle that was never given out,
or was dropped, is no act.

The lemmas on handles hold whatever layers a handle has: `Handle.Over` says that no extension by hand succeeds any
more, `Handle.Extended` what an extension leaves of a handle.
-/

namespace TaskLease

/-- A provider, and the handles that it has given out. -/
structure Desk (σ : Type) where
  stage : Stage σ
  /-- The reading of the timer that renewals go by. -/
  timer : Duration := .zero
  provider : Provider
  /-- The handles, the first one first; those that were dropped have left a gap. -/
  handles : List (Option Handle) := []

namespace Desk

variable {σ : Type}

/-- What happens at a desk. -/
inductive Act (σ : Type) where
  | tryLock (config : LockConfig)
  | unlock (i : Nat)
  | extend (i : Nat) (atMost atLeast : Duration)
  | drop (i : Nat)
  /-- The timer of a handle rings, if it is set. When it does is up to whoever schedules it. -/
  | ring (i : Nat)
  | pass (time : Duration)
  /-- Others act on the store. -/
  | others (change : σ → σ)

/-- What came of an act. -/
inductive Entry where
  /-- An attempt, and whether it gave out a handle. -/
  | attempted (config : LockConfig) (answer : Except LockError Bool)
  | unlocked (i : Nat) (calls : List Accessor.Call) (answer : Except LockError Unit)
  | extended (i : Nat) (atMost atLeast : Duration) (calls : List Accessor.Call) (answer : Except LockError Bool)
  | dropped (i : Nat)
  | rang (i : Nat) (calls : List Accessor.Call)
  /-- Nothing became of the provider and its handles. -/
  | nothing
deriving DecidableEq

namespace Entry

/-- The configuration of an attempt that gave out a handle. -/
def acquired? : Entry → Option LockConfig
  | .attempted config (.ok true) => some config
  | _ => none

/-- The handle that an act was on. -/
def handle? : Entry → Option Nat
  | .unlocked i _ _ | .extended i _ _ _ _ | .dropped i | .rang i _ => some i
  | .attempted _ _ | .nothing => none

/-- Whether an act was a release or an extension that failed. -/
def fails : Entry → Bool
  | .unlocked _ _ (.error _) | .extended _ _ _ _ (.error _) => true
  | _ => false

/-- Whether an act dropped the handle. -/
def drops (i : Nat) : Entry → Bool
  | .dropped j => j = i
  | _ => false

/-- Whether an act released the handle. -/
def releases (i : Nat) : Entry → Bool
  | .unlocked j _ (.ok ()) => j = i
  | _ => false

/-- Whether an act was an extension of the handle that was answered `false`. -/
def loses (i : Nat) : Entry → Bool
  | .extended j _ _ _ (.ok false) => j = i
  | _ => false

/-- Whether an act was a ring of the handle's timer whose renewal was answered `false`. -/
def losesUnawares (i : Nat) : Entry → Bool
  | .rang j calls => j = i && calls.any fun c => c.op = .extend && c.answer = .ok false
  | _ => false

/-- Whether somebody who uses the handle is done with it: it was dropped, released or found lost. -/
def ends (i : Nat) (entry : Entry) : Bool := entry.drops i || entry.releases i || entry.loses i

/-- The durations of an act that was an extension of the handle and succeeded. -/
def renewal? (i : Nat) : Entry → Option (Duration × Duration)
  | .extended j atMost atLeast _ (.ok true) => if j = i then some (atMost, atLeast) else none
  | _ => none

end Entry

/-- The handle of a number, if there is one and it was not dropped. -/
def at? (d : Desk σ) (i : Nat) : Option Handle := d.handles[i]?.join

/-- The tracker of the provider. -/
def tracker (d : Desk σ) : Tracker := d.provider.tracker?.getD {}

/-- An attempt gives out a handle, or none. -/
def given : Except LockError (Option Handle) → List (Option Handle)
  | .ok (some h) => [some h]
  | .ok none | .error _ => []

/-- One act. -/
def step (accessor : Accessor σ) (d : Desk σ) : Act σ → Entry × Desk σ
  | .tryLock config =>
    let reply := d.provider.tryLock accessor d.timer config d.stage
    (.attempted config (reply.1.1.map Option.isSome),
      { d with stage := reply.2, provider := reply.1.2, handles := d.handles ++ given reply.1.1 })
  | .unlock i =>
    match d.at? i with
    | none => (.nothing, d)
    | some h =>
      let reply := accessor.observe (h.unlock · d.provider) d.stage
      (.unlocked i reply.1.2 reply.1.1.1,
        { d with stage := reply.2, provider := reply.1.1.2.2, handles := d.handles.set i (some reply.1.1.2.1) })
  | .extend i atMost atLeast =>
    match d.at? i with
    | none => (.nothing, d)
    | some h =>
      let reply := accessor.observe (h.extend · atMost atLeast d.provider) d.stage
      (.extended i atMost atLeast reply.1.2 reply.1.1.1,
        { d with stage := reply.2, provider := reply.1.1.2.2, handles := d.handles.set i (some reply.1.1.2.1) })
  | .drop i =>
    match d.at? i with
    | none => (.nothing, d)
    | some h =>
      let reply := h.drop accessor d.provider d.stage
      (.dropped i, { d with stage := reply.2, provider := reply.1, handles := d.handles.set i none })
  | .ring i =>
    match d.at? i with
    | none => (.nothing, d)
    | some h =>
      match h.due? with
      | none => (.nothing, d)
      | some due =>
        let reply := accessor.observe (h.ring · due d.timer d.provider) d.stage
        (.rang i reply.1.2,
          { d with stage := reply.2, provider := reply.1.1.2, handles := d.handles.set i (some reply.1.1.1) })
  | .pass time => (.nothing, { d with timer := d.timer + time })
  | .others change => (.nothing, { d with stage := { d.stage with store := change d.stage.store } })

/-- What comes of some acts, one after the other, and the desk after them. -/
def run (accessor : Accessor σ) : List (Act σ) → Desk σ → List Entry × Desk σ
  | [], d => ([], d)
  | act :: rest, d =>
    let reply := d.step accessor act
    let later := run accessor rest reply.2
    (reply.1 :: later.1, later.2)

/-- A desk whose provider has not given out anything. -/
def opened (provider : Provider) (store : σ) : Desk σ := { stage := { store }, provider }

/-! ## What a history says -/

/-- The configurations that handles were given out with, the first one first. The handles go by their numbers in
this list. -/
def issued (history : List Entry) : List LockConfig := history.filterMap Entry.acquired?

/-- The durations of the extensions of a handle that succeeded, the first ones first. -/
def renewals (i : Nat) (history : List Entry) : List (Duration × Duration) := history.filterMap (Entry.renewal? i)

/-- The configuration that a handle holds its lock with: that of the acquisition, with the durations of the last
extension that succeeded. -/
def current (history : List Entry) (i : Nat) : Option LockConfig :=
  (issued history)[i]?.map fun config =>
    match (renewals i history).getLast? with
    | none => config
    | some (atMost, atLeast) => (config.withDurations atMost atLeast).toOption.getD config

/-- The handles that were given out and neither dropped nor released nor found lost. -/
def standing (history : List Entry) : List Nat :=
  (List.range (issued history).length).filter fun i => !history.any (Entry.ends i)

theorem mem_standing {history : List Entry} {i : Nat} :
    i ∈ standing history ↔ i < (issued history).length ∧ ∀ e ∈ history, e.ends i = false := by
  simp [standing]

end Desk

/-! ## Handles, whatever their layers -/

theorem Provider.mapTracker_self (p : Provider) : p.mapTracker (fun t => t) = p := by
  cases p <;> rfl

namespace Handle

variable {σ : Type} {atMost atLeast : Duration}

/-- No extension by hand succeeds any more. -/
def Over : Handle → Prop
  | .lease l => l.state ≠ .held
  | .keptAlive _ _ => True
  | .tracked _ h => h.Over

/-- What an extension by hand leaves of a handle, by its answer. -/
def Extended (h : Handle) (atMost atLeast : Duration) : Except LockError Bool → Handle → Prop
  | .ok true, left => ¬ h.Over ∧ h.config.withDurations atMost atLeast = .ok left.config
  | .ok false, left => left.Over ∧ left.config = h.config
  | .error _, left => left = h

section

variable {accessor : Accessor σ} {stage : Stage σ}

theorem unlock_lease (l : Lease) (p : Provider) :
    (Handle.lease l).unlock accessor p stage =
      (let reply := l.unlock accessor stage
      ((reply.1.1, .lease reply.1.2, p), reply.2)) := rfl

theorem extend_lease (l : Lease) (p : Provider) :
    (Handle.lease l).extend accessor atMost atLeast p stage =
      (let reply := l.extend accessor atMost atLeast stage
      ((reply.1.1, .lease reply.1.2, p), reply.2)) := rfl

/-- A release ends the renewals too. -/
theorem unlock_keptAlive (r : Renewal) (h : Handle) (p : Provider) :
    (Handle.keptAlive r h).unlock accessor p stage =
      (let reply := h.unlock accessor p.inner stage
      ((reply.1.1, .keptAlive r.stop reply.1.2.1, p.around reply.1.2.2), reply.2)) := rfl

theorem extend_keptAlive (r : Renewal) (h : Handle) (p : Provider) :
    (Handle.keptAlive r h).extend accessor atMost atLeast p stage =
      ((.error (.unsupported "manual extension of a keep-alive lock"), .keptAlive r h, p), stage) := rfl

/-- A tracker takes a lock out if its release succeeds. -/
theorem unlock_tracked (id : Nat) (h : Handle) (p : Provider) :
    (Handle.tracked id h).unlock accessor p stage =
      (let reply := h.unlock accessor p.inner stage
      let learns : Tracker → Tracker := match reply.1.1 with
        | .ok () => (·.remove id)
        | .error _ => fun t => t
      ((reply.1.1, .tracked id reply.1.2.1, (p.around reply.1.2.2).mapTracker learns), reply.2)) := by
  simp only [unlock, bind, StateT.bind]
  rcases h.unlock accessor p.inner stage with ⟨⟨_ | _, h', p'⟩, stage'⟩
  · dsimp only
    rw [Provider.mapTracker_self]
    rfl
  · rfl

/-- A tracker follows an extension that succeeds, and takes a lock out that is found lost. -/
theorem extend_tracked (id : Nat) (h : Handle) (p : Provider) :
    (Handle.tracked id h).extend accessor atMost atLeast p stage =
      (let reply := h.extend accessor atMost atLeast p.inner stage
      let learns : Tracker → Tracker := match reply.1.1 with
        | .ok true => (·.update id reply.1.2.1.config)
        | .ok false => (·.remove id)
        | .error _ => fun t => t
      ((reply.1.1, .tracked id reply.1.2.1, (p.around reply.1.2.2).mapTracker learns), reply.2)) := by
  simp only [extend, bind, StateT.bind]
  rcases h.extend accessor atMost atLeast p.inner stage with ⟨⟨_ | _ | _, h', p'⟩, stage'⟩
  · dsimp only
    rw [Provider.mapTracker_self]
    rfl
  · rfl
  · rfl

/-- A tracker never learns of a ring. -/
theorem ring_tracked (id : Nat) (h : Handle) (due now : Duration) (p : Provider) :
    (Handle.tracked id h).ring accessor due now p stage =
      (let reply := h.ring accessor due now p.inner stage
      ((.tracked id reply.1.1, p.around reply.1.2), reply.2)) := rfl

end

variable (accessor : Accessor σ)

/-- A release leaves the configuration, and a handle that is over if it succeeds. -/
theorem unlock_leaves (h : Handle) (p : Provider) (stage : Stage σ) :
    let reply := (h.unlock accessor p stage).1
    reply.2.1.config = h.config ∧ (reply.1 = .ok () → reply.2.1.Over) ∧ (h.Over → reply.2.1.Over) := by
  induction h generalizing p stage with
  | lease l =>
    rw [unlock_lease]
    by_cases held : l.state = .held
    · dsimp only
      rw [(Lease.unlock_held accessor stage held).1]
      rcases (accessor.perform .unlock l.config stage.store).1 with fault | applied
      · exact ⟨rfl, nofun, id⟩
      · exact ⟨rfl, fun _ => nofun, fun _ => nofun⟩
    · rw [Lease.unlock_idle accessor stage held]
      exact ⟨rfl, fun _ => held, id⟩
  | keptAlive r h _ => exact ⟨rfl, fun _ => trivial, id⟩
  | tracked i h ih =>
    rw [unlock_tracked]
    exact ih p.inner stage

/-- An extension leaves what its answer says. -/
theorem extend_leaves (h : Handle) (atMost atLeast : Duration) (p : Provider) (stage : Stage σ) :
    let reply := (h.extend accessor atMost atLeast p stage).1
    h.Extended atMost atLeast reply.1 reply.2.1 := by
  induction h generalizing p stage with
  | lease l =>
    rw [extend_lease]
    cases state : l.state with
    | released =>
      rw [Lease.extend_released accessor stage atMost atLeast state]
      rfl
    | lost =>
      rw [Lease.extend_lost accessor stage atMost atLeast state]
      exact ⟨state.trans_ne nofun, rfl⟩
    | held =>
      cases allowed : l.config.withDurations atMost atLeast with
      | error e =>
        rw [Lease.extend_refused accessor stage state allowed]
        rfl
      | ok extended =>
        dsimp only
        rw [(Lease.extend_held accessor stage state allowed).1]
        rcases (accessor.perform .extend extended stage.store).1 with fault | _ | _
        · rfl
        · exact ⟨nofun, rfl⟩
        · exact ⟨fun spent => spent state, allowed⟩
  | keptAlive r h _ => rfl
  | tracked i h ih =>
    rw [extend_tracked]
    have inner := ih p.inner stage
    revert inner
    dsimp only
    rcases (h.extend accessor atMost atLeast p.inner stage).1 with ⟨_ | _ | _, left, -⟩
    · exact congrArg (Handle.tracked i)
    · exact id
    · exact id

theorem answered_config (r : Renewal) (answer : Except LockError Bool) : (r.answered answer).config = r.config := by
  rcases answer with _ | _ | _ <;> rfl

theorem renew_config (due now : Duration) (r : Renewal) (h : Handle) (p : Provider) (stage : Stage σ) :
    (h.renew accessor due now r p stage).1.1.config = r.config := by
  rw [← tick_config r due now]
  unfold renew
  rcases r.tick due now with ⟨_ | _ | atLeast, next⟩
  · rfl
  · rfl
  · simp only [bind, StateT.bind]
    rcases h.extend accessor next.config.atMost atLeast p stage with ⟨⟨answer, left, inner⟩, later⟩
    rw [← answered_config next answer]
    rcases answer with _ | _ | _ <;> rfl

/-- A ring of a timer leaves the configuration that the handle shows. -/
theorem ring_leaves (h : Handle) (due now : Duration) (p : Provider) (stage : Stage σ) :
    let left := (h.ring accessor due now p stage).1.1
    left.config = h.config ∧ (h.Over → left.Over) := by
  induction h generalizing p stage with
  | lease l => exact ⟨rfl, id⟩
  | keptAlive r h _ =>
    simp only [ring]
    split
    · exact ⟨rfl, id⟩
    · split
      · exact ⟨renew_config accessor due now r h p.inner stage, fun _ => trivial⟩
      · exact ⟨rfl, id⟩
  | tracked i h ih => exact ih p.inner stage

/-- A ring of a lock that is kept alive leaves the provider as it is, and it leaves the lease alone or extends it. -/
theorem ring_keptAlive (r : Renewal) (l : Lease) (due now : Duration) (p : Provider) (stage : Stage σ) :
    let reply := (Handle.keptAlive r (.lease l)).ring accessor due now p stage
    reply.1.2 = p ∧
      ((∃ r', reply.1.1 = .keptAlive r' (.lease l) ∧ reply.2.store = stage.store) ∨
        ∃ r' atMost atLeast, let extension := l.extend accessor atMost atLeast stage
          reply.1.1 = .keptAlive r' (.lease extension.1.2) ∧ reply.2.store = extension.2.store) := by
  by_cases due_now : r.due = some due
  · rw [ring_lease accessor p stage due_now, renew]
    have whole : p.around p.inner = p := by cases p <;> rfl
    rcases r.tick due now with ⟨_ | _ | atLeast, next⟩
    · exact ⟨whole, .inl ⟨next, rfl, rfl⟩⟩
    · exact ⟨whole, .inl ⟨next, rfl, rfl⟩⟩
    · simp only [extend_lease, bind, StateT.bind]
      rcases same : l.extend accessor next.config.atMost atLeast stage with ⟨⟨answer, left⟩, later⟩
      refine ⟨?_, .inr ⟨next.answered answer, next.config.atMost, atLeast, ?_⟩⟩
      · rcases answer with _ | _ | _ <;> exact whole
      · rw [same]
        rcases answer with _ | _ | _ <;> exact ⟨rfl, rfl⟩
  · have idle : ¬ (Handle.lease l).due? = some due := by rintro ⟨⟩
    rw [ring, if_neg idle, if_neg due_now]
    exact ⟨rfl, .inl ⟨r, rfl, rfl⟩⟩

end Handle

/-! ## Attempts, whatever the layers -/

namespace Provider

variable {σ : Type} {config : LockConfig}

theorem eq_lease_of_answerOf {answer : Except StoreFault Bool} {h : Handle}
    (acquired : answerOf config answer = .ok (some h)) : h = .lease { config } := by
  cases eq_true_of_answerOf acquired
  cases acquired
  rfl

section

variable {accessor : Accessor σ} {stage : Stage σ} {now minimum : Duration}

theorem tryLock_plain (registry : Registry) :
    ((Provider.plain registry).tryLock accessor now config stage).1 =
      (let last := acquire accessor config registry stage.store
      (answerOf config last.1, .plain last.2.1)) :=
  Prod.ext tryPlain_answer (congrArg Provider.plain tryPlain_state.1)

theorem tryLock_unrenewable {e : LockError} (p : Provider) (refused : Renewal.check minimum config = .error e) :
    (Provider.keepingAlive minimum p).tryLock accessor now config stage =
      ((.error e, .keepingAlive minimum p), stage) := by
  rw [tryLock, refused]
  rfl

/-- The handle of a lock that is kept alive is one of the inner provider, with its renewals. -/
theorem tryLock_renewable (p : Provider) (accepted : Renewal.check minimum config = .ok ()) :
    (Provider.keepingAlive minimum p).tryLock accessor now config stage =
      (let reply := p.tryLock accessor now config stage
      ((reply.1.1.map (Option.map (.keptAlive (.start config now))), .keepingAlive minimum reply.1.2), reply.2)) := by
  rw [tryLock, accepted]
  simp only [bind, StateT.bind]
  rcases p.tryLock accessor now config stage with ⟨⟨_ | _ | h, p'⟩, stage'⟩ <;> rfl

end

/-- A handle is given out with the configuration that was asked for. -/
theorem config_of_tryLock (p : Provider) (accessor : Accessor σ) (now : Duration) (config : LockConfig)
    (stage : Stage σ) {h : Handle} (acquired : (p.tryLock accessor now config stage).1.1 = .ok (some h)) :
    h.config = config := by
  induction p generalizing h with
  | plain registry =>
    rw [tryLock_plain] at acquired
    rw [eq_lease_of_answerOf acquired]
    rfl
  | keepingAlive minimum p ih =>
    cases accepted : Renewal.check minimum config with
    | error e =>
      rw [tryLock_unrenewable p accepted] at acquired
      cases acquired
    | ok =>
      rw [tryLock_renewable p accepted] at acquired
      dsimp only at acquired
      revert acquired
      -- The configuration that is shown is the one that renewals go by, whatever the inner handle is.
      rcases (p.tryLock accessor now config stage).1.1 with _ | _ | inner
      · rintro ⟨⟩
      · rintro ⟨⟩
      · rintro ⟨⟩
        rfl
  | tracking tracker p ih =>
    simp only [tryLock, bind, StateT.bind] at acquired
    revert acquired
    rcases attempt : p.tryLock accessor now config stage with ⟨⟨_ | _ | inner, p'⟩, stage'⟩
    · rintro ⟨⟩
    · rintro ⟨⟩
    · intro acquired
      cases acquired
      exact ih (h := inner) (by rw [attempt])

/-- An attempt gives out a handle of a lock that is kept alive, if any. -/
theorem tryLock_keepingAlive (accessor : Accessor σ) (minimum : Duration) (registry : Registry) (now : Duration)
    (config : LockConfig) (stage : Stage σ) :
    let reply := (Provider.keepingAlive minimum (.plain registry)).tryLock accessor now config stage
    ∃ registry', reply.1.2 = .keepingAlive minimum (.plain registry') ∧
      ∀ h, reply.1.1 = .ok (some h) → ∃ r l, h = .keptAlive r (.lease l) := by
  cases accepted : Renewal.check minimum config with
  | error e =>
    rw [tryLock_unrenewable _ accepted]
    exact ⟨registry, rfl, by rintro h ⟨⟩⟩
  | ok =>
    rw [tryLock_renewable _ accepted]
    dsimp only
    rw [tryLock_plain]
    dsimp only
    refine ⟨_, rfl, fun h => ?_⟩
    rcases (acquire accessor config registry stage.store).1 with fault | _ | _
    · rintro ⟨⟩
    · rintro ⟨⟩
    · rintro ⟨⟩
      exact ⟨_, _, rfl⟩

/-- A tracker enters every handle that is given out. -/
theorem tryLock_tracking {accessor : Accessor σ} {stage : Stage σ} {now : Duration} {config : LockConfig}
    (t : Tracker) (p : Provider) :
    (Provider.tracking t p).tryLock accessor now config stage =
      (let reply := p.tryLock accessor now config stage
      match reply.1.1 with
      | .ok (some h) => ((.ok (some (.tracked t.nextId h)), .tracking (t.enter config).2 reply.1.2), reply.2)
      | .ok none => ((.ok none, .tracking t reply.1.2), reply.2)
      | .error e => ((.error e, .tracking t reply.1.2), reply.2)) := by
  have shown := fun h => p.config_of_tryLock accessor now config stage (h := h)
  simp only [tryLock, bind, StateT.bind]
  revert shown
  rcases p.tryLock accessor now config stage with ⟨⟨_ | _ | h, p'⟩, stage'⟩
  · intro _
    rfl
  · intro _
    rfl
  · intro shown
    cases shown h rfl
    rfl

end Provider

end TaskLease

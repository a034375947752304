import TaskLease.Command.Application
import TaskLease.Proofs.Provider.Image
import TaskLease.Proofs.Task.Job

/-!
# Notes on a command

A command can be run with notes on all that happens: the calls of the accessor, what became of the attempt, the
beginning and the end of the child, and the release. The notes stand beside the store, and neither the accessor nor
the child sees them. `noted_run` shows that taking notes does not change the run.

While a child runs, others act on the store, and the timer of the lock rings. A `Behaviour` is any way that this can
go, and any end of the child; the child of the application behaves in one of them (`runChild_behaves`).
-/

namespace TaskLease

namespace Session

/-- What is written down of a command. -/
inductive Note where
  /-- The accessor was called. -/
  | called (call : Accessor.Call)
  /-- An attempt to acquire the lock came to its end. -/
  | attempted (answer : Except LockError (Option Unit))
  /-- The child was to be started, with its words. -/
  | began (words : List String)
  /-- Nothing is left of the child. -/
  | ended (how : ChildEnd)
  /-- The handle was released. -/
  | released (answer : Except LockError Unit)
  | dropped
deriving DecidableEq

/-- A store with the notes so far beside it, the first one first. -/
abbrev Noted (σ : Type) := σ × List Note

variable {τ σ : Type}

/-- The notes of a session. -/
def notes (s : Session (Noted σ)) : List Note := s.stage.store.2

/-- One more note. -/
def note (n : Note) (s : Session (Noted σ)) : Session (Noted σ) :=
  { s with stage := { s.stage with store := (s.stage.store.1, s.stage.store.2 ++ [n]) } }

/-- An action with a note on its answer. -/
def noting {α : Type} (action : StateM (Session (Noted σ)) α) (n : α → Note) : StateM (Session (Noted σ)) α := fun s =>
  let reply := action s
  (reply.1, reply.2.note (n reply.1))

/-- The same session with the image of its store. -/
def map (π : τ → σ) (s : Session τ) : Session σ := { s with stage := s.stage.map π }

end Session

open Session (Note Noted)

/-- The same accessor, with notes on its calls. -/
def Accessor.noting {σ : Type} (accessor : Accessor σ) : Accessor (Noted σ) where
  strategy := accessor.strategy
  perform op config s :=
    let reply := accessor.perform op config s.1
    (reply.1, (reply.2, s.2 ++ [.called ⟨op, config, reply.1⟩]))

/-- What executors need of a session, with notes on the attempt and on the release. -/
def Session.notingLocking {σ : Type} (accessor : Accessor σ) : Locking (Session (Noted σ)) Unit Unit :=
  let locking := Session.locking accessor.noting
  { locking with
    tryLock := fun provider config => Session.noting (locking.tryLock provider config) .attempted
    unlock := fun handle => Session.noting (locking.unlock handle) .released
    drop := fun handle => Session.noting (locking.drop handle) fun _ => .dropped }

/-! ## Behaviours -/

/-- What can happen to a session while a child runs. -/
inductive Meanwhile (σ : Type) where
  /-- Others act on the store, or the child does. -/
  | others (change : σ → σ)
  /-- The timer of the lock, which was due at `due`, rings at `now`. -/
  | ring (due now : Duration)

namespace Meanwhile

variable {σ : Type}

/-- The session after something has happened. When its timer rings, a handle is renewed. -/
def pass (accessor : Accessor σ) (s : Session σ) : Meanwhile σ → Session σ
  | .others change => { s with stage := { s.stage with store := change s.stage.store } }
  | .ring due now =>
    (s.onHandle () fun handle provider => do
      let (handle, provider) ← handle.ring accessor due now provider
      return ((), handle, provider)).2

/-- The same beside notes. -/
def besideNotes : Meanwhile σ → Meanwhile (Noted σ)
  | .others change => .others (Prod.map change id)
  | .ring due now => .ring due now

end Meanwhile

/-- What happens while a child with some words runs in a session, and how the child comes to its end. -/
def Behaviour (σ : Type) := List String → Session σ → List (Meanwhile σ) × ChildEnd

namespace Behaviour

variable {σ : Type} (child : Behaviour σ) (accessor : Accessor σ)

/-- The child as an action. -/
def act (words : List String) : StateM (Session σ) ChildEnd := fun s =>
  let went := child words s
  (went.2, went.1.foldl (Meanwhile.pass accessor) s)

/-- The child with notes on its beginning and its end. -/
def noting (words : List String) : StateM (Session (Noted σ)) ChildEnd := fun s =>
  let went := child words (s.map Prod.fst)
  (went.2,
    ((went.1.map Meanwhile.besideNotes).foldl (Meanwhile.pass accessor.noting) (s.note (.began words))).note
      (.ended went.2))

end Behaviour

theorem Accessor.noting_images {σ : Type} (accessor : Accessor σ) : accessor.noting.Images Prod.fst accessor :=
  ⟨rfl, fun _ _ _ => rfl⟩

/-- The calls of an action are noted one after the other, behind the notes that are there. -/
theorem Natural.noting {σ α : Type} {action : (τ : Type) → Accessor τ → Acting τ α} (natural : Natural action)
    (accessor : Accessor σ) (stage : Stage (Noted σ)) :
    let seen := accessor.observe (action _) (stage.map Prod.fst)
    action _ accessor.noting stage =
      (seen.1.1, { store := (seen.2.store, stage.store.2 ++ seen.1.2.map .called), events := seen.2.events }) := by
  obtain ⟨⟨store, before⟩, events⟩ := stage
  have images : accessor.recording.Images (fun s => (s.1, before ++ s.2.map Note.called)) accessor.noting :=
    ⟨rfl, fun op config s => by simp [Accessor.noting, Accessor.recording]⟩
  have same := natural _ _ _ _ _ images { store := (store, []), events }
  simp only [Stage.map, List.map_nil, List.append_nil] at same
  exact same

/-! ## What a session does -/

namespace Session

variable {σ : Type} {accessor : Accessor σ} {s : Session σ}

theorem tryLock_eq (config : LockConfig) :
    Session.tryLock accessor config s =
      (let reply := s.provider.tryLock accessor .zero config s.stage
      (reply.1.1.map (Option.map fun _ => ()),
        { stage := reply.2, provider := reply.1.2, handle := reply.1.1.toOption.getD s.handle })) := by
  simp only [Session.tryLock, onStage, bind, StateT.bind, get, getThe, MonadStateOf.get, StateT.get, pure]
  rcases s.provider.tryLock accessor .zero config s.stage with ⟨⟨_ | handle, provider⟩, stage⟩ <;> rfl

theorem onHandle_none {α : Type} {otherwise : α} {f : Handle → Provider → Acting σ (α × Handle × Provider)}
    (nothing : s.handle = none) : s.onHandle otherwise f = (otherwise, s) := by
  obtain ⟨stage, provider, handle⟩ := s
  cases nothing
  rfl

theorem onHandle_some {α : Type} {otherwise : α} {f : Handle → Provider → Acting σ (α × Handle × Provider)}
    {h : Handle} (there : s.handle = some h) :
    s.onHandle otherwise f =
      (let reply := f h s.provider s.stage
      (reply.1.1, { stage := reply.2, provider := reply.1.2.2, handle := some reply.1.2.1 })) := by
  obtain ⟨stage, provider, handle⟩ := s
  cases there
  rfl

end Session

/-- What is done with the handle is noted call by call. -/
theorem Session.onHandle_noting {σ α : Type} {s : Session (Noted σ)} (otherwise : α)
    {f : (τ : Type) → Accessor τ → Handle → Provider → Acting τ (α × Handle × Provider)}
    (natural : ∀ h p, Natural fun τ accessor => f τ accessor h p) (accessor : Accessor σ) {h : Handle}
    (there : s.handle = some h) :
    s.onHandle otherwise (f _ accessor.noting) =
      (let seen := accessor.observe (f _ · h s.provider) (s.stage.map Prod.fst)
      (seen.1.1.1,
        { stage := { store := (seen.2.store, s.notes ++ seen.1.2.map .called), events := seen.2.events },
          provider := seen.1.1.2.2, handle := some seen.1.1.2.1 })) := by
  rw [onHandle_some there, (natural h s.provider).noting accessor]
  rfl

/-! ## Notes change nothing -/

/-- What executors need of one state does to its image what they need of the image. -/
structure Locking.Images {S T ρ η : Type} (φ : S → T) (fine : Locking S ρ η) (coarse : Locking T ρ η) : Prop where
  tryLock : ∀ provider config, Imaged φ (fine.tryLock provider config) (coarse.tryLock provider config)
  unlock : ∀ handle, Imaged φ (fine.unlock handle) (coarse.unlock handle)
  extend : ∀ handle atMost atLeast, Imaged φ (fine.extend handle atMost atLeast) (coarse.extend handle atMost atLeast)
  drop : ∀ handle, Imaged φ (fine.drop handle) (coarse.drop handle)
  tell : ∀ event, Imaged φ (fine.tell event) (coarse.tell event)

section

variable {S T ρ η α : Type} {φ : S → T} {fine : Locking S ρ η} {coarse : Locking T ρ η}

theorem Locking.Images.execute (images : fine.Images φ coarse) (provider : ρ) (config : LockConfig)
    (stack : LockStack η) {task : LockStack η → StateM S α} {task' : LockStack η → StateM T α}
    (same : ∀ stack, Imaged φ (task stack) (task' stack)) :
    Imaged φ (fine.execute provider config stack task) (coarse.execute provider config stack task') := by
  unfold Locking.execute
  split
  · exact (same stack).bind fun _ => .pure _
  · apply (images.tryLock provider config).bind
    rintro (e | _ | handle)
    · exact .pure _
    · exact .pure _
    · apply (same _).bind
      intro result
      apply (images.unlock handle).bind
      rintro (e | _)
      · exact (images.tell _).bind fun _ => (images.drop handle).bind fun _ => .pure _
      · exact (images.drop handle).bind fun _ => .pure _

theorem image_runUnder {fine : Locking S Unit Unit} {coarse : Locking T Unit Unit} (images : fine.Images φ coarse)
    (defaults : LockSettings) (a : RunArguments) {child : List String → StateM S ChildEnd}
    {child' : List String → StateM T ChildEnd} (same : ∀ words, Imaged φ (child words) (child' words)) :
    Imaged φ (runUnder fine defaults a child) (runUnder coarse defaults a child') := by
  unfold runUnder
  cases a.lock defaults with
  | error e => exact .pure _
  | ok config =>
    apply (images.execute () config [] fun _ => same a.child).bind
    rintro (e | _ | how) <;> exact .pure _

end

namespace Session

variable {τ σ : Type} {π : τ → σ} {fine : Accessor τ} {coarse : Accessor σ}

theorem image_onStage {α : Type} {f : Acting τ α} {g : Acting σ α} (same : Imaged (Stage.map π) f g) :
    Imaged (Session.map π) (onStage f) (onStage g) := by
  intro s
  simp only [onStage, Session.map, same s.stage]
  rfl

theorem image_onHandle {α : Type} (otherwise : α)
    {f : (τ : Type) → Accessor τ → Handle → Provider → Acting τ (α × Handle × Provider)}
    (natural : ∀ h p, Natural fun τ accessor => f τ accessor h p) (images : fine.Images π coarse) :
    Imaged (Session.map π) (onHandle otherwise (f τ fine)) (onHandle otherwise (f σ coarse)) := by
  intro s
  cases there : s.handle with
  | none => rw [onHandle_none there, onHandle_none (s := s.map π) there]
  | some h =>
    have same : f σ coarse h s.provider (s.map π).stage = _ := natural h s.provider τ σ π fine coarse images s.stage
    rw [onHandle_some there, onHandle_some (s := s.map π) there]
    exact congrArg (fun reply => (reply.1.1, Session.mk reply.2 reply.1.2.2 (some reply.1.2.1))) same

theorem image_locking (images : fine.Images π coarse) :
    (Session.locking fine).Images (Session.map π) (Session.locking coarse) where
  tryLock _ config s := by
    have same : (s.map π).provider.tryLock coarse .zero config (s.map π).stage = _ :=
      s.provider.natural_tryLock .zero config τ σ π fine coarse images s.stage
    simp only [Session.locking, tryLock_eq, same]
    rfl
  unlock _ := image_onHandle (f := fun _ accessor h p => h.unlock accessor p) _ Handle.natural_unlock images
  extend _ atMost atLeast := by
    have natural (h : Handle) (p : Provider) := h.natural_extend atMost atLeast p
    exact image_onHandle _ natural images
  drop _ := by
    have dropped := image_onHandle () (fun h p => (h.natural_drop p).bind fun p => .pure ((), h, p)) images
    exact dropped.bind fun _ => fun _ => rfl
  tell event := image_onStage (Natural.tell event τ σ π fine coarse images)

theorem image_noting {σ α : Type} {action : StateM (Session (Noted σ)) α} {bare : StateM (Session σ) α}
    (same : Imaged (Session.map Prod.fst) action bare) (n : α → Note) :
    Imaged (Session.map Prod.fst) (noting action n) bare :=
  same

/-- What is noted is what is done without notes. -/
theorem image_notingLocking {σ : Type} (accessor : Accessor σ) :
    (notingLocking accessor).Images (Session.map Prod.fst) (Session.locking accessor) := by
  have bare : (Session.locking accessor.noting).Images (Session.map Prod.fst) (Session.locking accessor) :=
    image_locking accessor.noting_images
  exact { bare with
    tryLock := fun provider config => image_noting (bare.tryLock provider config) _
    unlock := fun handle => image_noting (bare.unlock handle) _
    drop := fun handle => image_noting (bare.drop handle) _ }

end Session

section

variable {σ : Type} (accessor : Accessor σ)

theorem Meanwhile.pass_besideNotes (m : Meanwhile σ) (s : Session (Noted σ)) :
    (m.besideNotes.pass accessor.noting s).map Prod.fst = m.pass accessor (s.map Prod.fst) := by
  cases m with
  | others change => rfl
  | ring due now =>
    have natural (h : Handle) (p : Provider) :=
      (h.natural_ring due now p).bind fun left => .pure ((), left.1, left.2)
    exact (congrArg Prod.snd (Session.image_onHandle () natural accessor.noting_images s)).symm

theorem Behaviour.image_noting (child : Behaviour σ) (words : List String) :
    Imaged (Session.map Prod.fst) (child.noting accessor words) (child.act accessor words) := by
  intro s
  have passes (went : List (Meanwhile σ)) (s : Session (Noted σ)) :
      ((went.map Meanwhile.besideNotes).foldl (Meanwhile.pass accessor.noting) s).map Prod.fst =
        went.foldl (Meanwhile.pass accessor) (s.map Prod.fst) := by
    induction went generalizing s with
    | nil => rfl
    | cons m rest ih => exact (ih _).trans (congrArg (rest.foldl _) (m.pass_besideNotes accessor s))
  exact Prod.ext rfl (passes _ (s.note (.began words))).symm

/-- A run with notes is the run without. -/
theorem noted_run (defaults : LockSettings) (a : RunArguments) (child : Behaviour σ) (store : σ) :
    let noted := runUnder (Session.notingLocking accessor) defaults a (child.noting accessor)
      (.begin defaults a (store, []))
    runLocked defaults accessor a (child.act accessor) (.begin defaults a store) =
      (noted.1, noted.2.map Prod.fst) :=
  image_runUnder (Session.image_notingLocking accessor) defaults a (child.image_noting accessor)
    (.begin defaults a (store, []))

end

/-! ## The child of the application -/

namespace Application

variable (accessor : Accessor Machine)

/-- While time passes, the clock is set and the timer of the lock rings. -/
theorem passTime_behaves (since : Instant) (length : Duration) (rings : Nat) (s : Session Machine) :
    ∃ went, passTime accessor since length rings s = ((), List.foldl (Meanwhile.pass accessor) s went) := by
  have to_the_end (s : Session Machine) : ∃ went, onMachine (modify (Machine.setClock (since.add length))) s =
      ((), List.foldl (Meanwhile.pass accessor) s went) :=
    ⟨[.others (Machine.setClock (since.add length))], rfl⟩
  induction rings generalizing s with
  | zero =>
    rw [passTime]
    exact to_the_end s
  | succ rings ih =>
    simp only [passTime, bind, StateT.bind, get, getThe, MonadStateOf.get, StateT.get, pure]
    cases s.handle.bind Handle.due? with
    | none => exact to_the_end s
    | some due =>
      by_cases short : length < due
      · simp only [if_pos short]
        exact to_the_end s
      · let now : Meanwhile Machine := .others (Machine.setClock (since.add due))
        obtain ⟨went, later⟩ := ih ((Meanwhile.ring due due).pass accessor (now.pass accessor s))
        simp only [if_neg short]
        exact ⟨now :: .ring due due :: went, later⟩

/-- The child of the application behaves in some way. -/
theorem runChild_behaves (bindings : Environment.Bindings) :
    ∃ child : Behaviour Machine, runChild accessor bindings = child.act accessor := by
  have each (words : List String) (s : Session Machine) :
      ∃ went how, runChild accessor bindings words s = (how, List.foldl (Meanwhile.pass accessor) s went) := by
    let ran := Machine.runProgram bindings words s.stage.store
    let program : Meanwhile Machine := .others fun m => (Machine.runProgram bindings words m).2
    let after := program.pass accessor s
    obtain ⟨went, passes⟩ := passTime_behaves accessor after.stage.store.clock ran.1.2
      ((after.handle.map (Handle.ringsBy ran.1.2)).getD 0) after
    have runs : runChild accessor bindings words s =
        (ran.1.1, (passTime accessor after.stage.store.clock ran.1.2
          ((after.handle.map (Handle.ringsBy ran.1.2)).getD 0) after).2) := rfl
    exact ⟨program :: went, ran.1.1, runs.trans (by rw [passes]; rfl)⟩
  choose went how same using each
  exact ⟨fun words s => (went words s, how words s), funext₂ same⟩

end Application

end TaskLease

import TaskLease.Proofs.Command.Notes
import TaskLease.Proofs.Provider.Desk

/-!
# How a command can go

`Conduct` lists the ways that a command can go, whatever an accessor answers to its calls and whatever happens while
the child runs, with the notes that each leaves and what it comes to. `conduct_of_run` shows that there are no others.

A command is followed from phase to phase: the attempt, the child, the release and the drop. `Holding` says between
them what the handle has come to and what has been noted.
-/

namespace TaskLease

open Session (Note Noted)

namespace Command

/-- What becomes of a lease while a child runs, with the calls that are made. Only a lock that is kept alive is
renewed. -/
inductive Renewed (kept : Bool) : Lease → List Accessor.Call → Lease → Prop
  | done (l) : Renewed kept l [] l
  | renewed {l atMost atLeast calls answer left more last} : kept = true →
    Lease.Course l (.extended atMost atLeast calls answer left) → Renewed kept left more last →
    Renewed kept l (calls ++ more) last

/-- The notes on the release of a lease, and on the drop of its handle. -/
inductive Release (l : Lease) : List Note → Prop
  | settled {calls answer left} : Lease.Course l (.unlocked calls answer left) → left.state ≠ .held →
    Release l (calls.map .called ++ [.released answer, .dropped])
  | again {calls answer left} (reply) : Lease.Course l (.unlocked calls answer left) → left.state = .held →
    Release l (calls.map .called ++ [.released answer, .called ⟨.unlock, left.config, reply⟩, .dropped])

/-- The lock that is asked for, if it is suitable. -/
structure Suits (defaults : LockSettings) (a : RunArguments) (config : LockConfig) : Prop where
  lock : a.lock defaults = .ok config
  renewable : a.keepAlive = true → Renewal.check defaults.keepAliveMinimum config = .ok ()

/-- The ways that a command can go: its notes, and what it comes to. -/
inductive Conduct (reclaims : Bool) (defaults : LockSettings) (a : RunArguments) :
    List Note → Except Failure Nat → Prop
  | noLock {e} : a.lock defaults = .error e → Conduct reclaims defaults a [] (.error (.lock e))
  | unrenewable {config e} : a.lock defaults = .ok config → a.keepAlive = true →
    Renewal.check defaults.keepAliveMinimum config = .error e →
    Conduct reclaims defaults a [.attempted (.error e)] (.error (.lock e))
  | failed {config calls fault} : Suits defaults a config →
    Provider.Course reclaims false config calls (.error fault) →
    Conduct reclaims defaults a (calls.map .called ++ [.attempted (.error (.storage fault))])
      (.error (.lock (.storage fault)))
  | skipped {config calls} : Suits defaults a config → Provider.Course reclaims false config calls (.ok false) →
    Conduct reclaims defaults a (calls.map .called ++ [.attempted (.ok none)]) (.ok 0)
  | ran {config calls during l release} (how : ChildEnd) : Suits defaults a config →
    Provider.Course reclaims false config calls (.ok true) → Renewed a.keepAlive { config } during l →
    Release l release →
    Conduct reclaims defaults a
      (calls.map .called ++ .attempted (.ok (some ())) :: .began a.child ::
        (during.map .called ++ .ended how :: release))
      how.status

end Command

/-! ## Handles of one lease -/

/-- A handle holds a lease, and keeps it alive or not. -/
inductive Handle.Holds : Bool → Lease → Handle → Prop
  | bare (l) : Holds false l (.lease l)
  | kept (r l) : Holds true l (.keptAlive r (.lease l))

namespace Handle.Holds

variable {σ : Type} {kept : Bool} {l : Lease} {h : Handle}

theorem unlock (holds : Holds kept l h) (accessor : Accessor σ) (p : Provider) (stage : Stage σ) :
    let reply := h.unlock accessor p stage
    let bare := l.unlock accessor stage
    reply.1.1 = bare.1.1 ∧ Holds kept bare.1.2 reply.1.2.1 ∧ reply.2 = bare.2 := by
  cases holds with
  | bare => exact ⟨rfl, .bare _, rfl⟩
  | kept r => exact ⟨rfl, .kept _ _, rfl⟩

theorem drop (holds : Holds kept l h) (accessor : Accessor σ) (p : Provider) (stage : Stage σ) :
    (h.drop accessor p stage).2 = (l.drop accessor stage).2 := by
  cases holds <;> rfl

/-- A ring leaves the lease alone or extends it, and the latter only if it is kept alive. -/
theorem ring (holds : Holds kept l h) (accessor : Accessor σ) (due now : Duration) (p : Provider) (stage : Stage σ) :
    let reply := h.ring accessor due now p stage
    (Holds kept l reply.1.1 ∧ reply.2.store = stage.store) ∨
      kept = true ∧ ∃ atMost atLeast, let extension := l.extend accessor atMost atLeast stage
        Holds kept extension.1.2 reply.1.1 ∧ reply.2.store = extension.2.store := by
  cases holds with
  | bare => exact .inl ⟨.bare l, rfl⟩
  | kept r =>
    obtain ⟨-, ⟨r', left, same⟩ | ⟨r', atMost, atLeast, left, same⟩⟩ :=
      Handle.ring_keptAlive accessor r l due now p stage
    · exact .inl ⟨left ▸ .kept r' l, same⟩
    · exact .inr ⟨rfl, atMost, atLeast, left ▸ .kept r' _, same⟩

end Handle.Holds

/-! ## From phase to phase -/

namespace Command

/-- A session with the handle of a lease, after some notes. -/
structure Holding {σ : Type} (kept : Bool) (l : Lease) (notes : List Note) (s : Session (Noted σ)) : Prop where
  handle : ∃ h, s.handle = some h ∧ h.Holds kept l
  notes : s.notes = notes

section

variable {σ : Type} {kept : Bool} {l : Lease} {notes : List Note} {s : Session (Noted σ)}

theorem Holding.note (holding : Holding kept l notes s) (n : Note) : Holding kept l (notes ++ [n]) (s.note n) :=
  ⟨holding.handle, congrArg (· ++ [n]) holding.notes⟩

theorem Holding.pass_one (holding : Holding kept l notes s) (accessor : Accessor σ) (m : Meanwhile σ) :
    ∃ calls left, Holding kept left (notes ++ calls.map .called) (m.besideNotes.pass accessor.noting s) ∧
      ((calls = [] ∧ left = l) ∨
        kept = true ∧ ∃ atMost atLeast answer, Lease.Course l (.extended atMost atLeast calls answer left)) := by
  obtain ⟨⟨h, there, holds⟩, rfl⟩ := holding
  cases m with
  | others change => exact ⟨[], l, ⟨⟨h, there, holds⟩, (List.append_nil _).symm⟩, .inl ⟨rfl, rfl⟩⟩
  | ring due now =>
    let stage := s.stage.map Prod.fst
    have natural (h : Handle) (p : Provider) :=
      (h.natural_ring due now p).bind fun left => .pure ((), left.1, left.2)
    have runs := Session.onHandle_noting () natural accessor there
    have handle := congrArg (fun reply => reply.2.handle) runs
    have noted := congrArg (fun reply => reply.2.notes) runs
    rcases holds.ring accessor.recording due now s.provider { store := (stage.store, []), events := stage.events } with
      ⟨same, calls⟩ | ⟨kept, atMost, atLeast, left, calls⟩
    · exact ⟨[], l, ⟨⟨_, handle, same⟩,
        noted.trans (congrArg (fun store => s.notes ++ store.2.map Note.called) calls)⟩, .inl ⟨rfl, rfl⟩⟩
    · exact ⟨_, _, ⟨⟨_, handle, left⟩,
        noted.trans (congrArg (fun store => s.notes ++ store.2.map Note.called) calls)⟩,
        .inr ⟨kept, atMost, atLeast, _, Lease.course_of_extend accessor stage atMost atLeast⟩⟩

/-- While the child runs, the lease may be renewed. -/
theorem Holding.pass (holding : Holding kept l notes s) (accessor : Accessor σ) (went : List (Meanwhile σ)) :
    ∃ during left, Renewed kept l during left ∧ Holding kept left (notes ++ during.map .called)
      ((went.map Meanwhile.besideNotes).foldl (Meanwhile.pass accessor.noting) s) := by
  induction went generalizing l notes s with
  | nil => exact ⟨[], l, .done l, holding.handle, holding.notes.trans (List.append_nil _).symm⟩
  | cons m rest ih =>
    obtain ⟨calls, left, next, course⟩ := holding.pass_one accessor m
    obtain ⟨during, last, renewed, later⟩ := ih next
    rw [List.append_assoc, ← List.map_append] at later
    rcases course with ⟨rfl, rfl⟩ | ⟨kept, atMost, atLeast, answer, course⟩
    · exact ⟨during, last, renewed, later⟩
    · exact ⟨calls ++ during, last, .renewed kept course renewed, later⟩

theorem Holding.unlock (holding : Holding kept l notes s) (accessor : Accessor σ) :
    let reply := (Session.notingLocking accessor).unlock () s
    ∃ calls left, Lease.Course l (.unlocked calls reply.1 left) ∧
      Holding kept left (notes ++ calls.map .called ++ [.released reply.1]) reply.2 := by
  obtain ⟨⟨h, there, holds⟩, rfl⟩ := holding
  let stage := s.stage.map Prod.fst
  let bare := accessor.observe (l.unlock ·) stage
  have course : Lease.Course l (.unlocked bare.1.2 bare.1.1.1 bare.1.1.2) := Lease.course_of_unlock accessor stage
  obtain ⟨answer, left, same⟩ :=
    holds.unlock accessor.recording s.provider { store := (stage.store, []), events := stage.events }
  have runs : (Session.locking accessor.noting).unlock () s = _ :=
    Session.onHandle_noting (f := fun _ accessor h p => h.unlock accessor p) _ Handle.natural_unlock accessor there
  have released : ((Session.locking accessor.noting).unlock () s).1 = bare.1.1.1 := by
    rw [runs]
    exact answer
  have called : ((Session.locking accessor.noting).unlock () s).2.notes = s.notes ++ bare.1.2.map .called := by
    rw [runs]
    exact congrArg (fun left => s.notes ++ left.store.2.map Note.called) same
  have held : Holding kept bare.1.1.2 (s.notes ++ bare.1.2.map .called)
      ((Session.locking accessor.noting).unlock () s).2 := by
    refine ⟨⟨_, ?_, left⟩, called⟩
    rw [runs]
    rfl
  exact ⟨bare.1.2, bare.1.1.2, released ▸ course, held.note _⟩

theorem Holding.drop (holding : Holding kept l notes s) (accessor : Accessor σ) :
    ∃ calls, ((Session.notingLocking accessor).drop () s).2.notes = notes ++ calls.map .called ++ [.dropped] ∧
      ((l.state ≠ .held ∧ calls = []) ∨ (l.state = .held ∧ ∃ reply, calls = [⟨.unlock, l.config, reply⟩])) := by
  obtain ⟨⟨h, there, holds⟩, rfl⟩ := holding
  let stage := s.stage.map Prod.fst
  have natural (h : Handle) (p : Provider) := (h.natural_drop p).bind fun p => .pure ((), h, p)
  have runs := Session.onHandle_noting () natural accessor there
  have same := holds.drop accessor.recording s.provider { store := (stage.store, []), events := stage.events }
  have called := Lease.calls_of_drop accessor stage (l := l)
  refine ⟨(accessor.observe (l.drop ·) stage).1.2, ?_, ?_⟩
  · have noted := congrArg (fun reply => reply.2.notes ++ [.dropped]) runs
    exact noted.trans (congrArg (fun left => s.notes ++ left.store.2.map Note.called ++ [.dropped]) same)
  · by_cases held : l.state = .held
    · exact .inr ⟨held, _, called.trans (if_pos held)⟩
    · exact .inl ⟨held, called.trans (if_neg held)⟩

/-- The attempt of a command, as its provider makes it. -/
theorem observed_tryLock (accessor : Accessor σ) (defaults : LockSettings) (a : RunArguments) (config : LockConfig)
    (stage : Stage σ) :
    let seen := accessor.observe ((a.provider defaults).tryLock · .zero config) stage
    (a.keepAlive = true ∧ ∃ e, Renewal.check defaults.keepAliveMinimum config = .error e ∧ seen.1.1.1 = .error e ∧
        seen.1.2 = []) ∨
      (a.keepAlive = true → Renewal.check defaults.keepAliveMinimum config = .ok ()) ∧ ∃ answer issued,
        Provider.Course accessor.strategy.insertReclaims false config seen.1.2 answer ∧
        seen.1.1.1 = (Provider.answerOf config answer).map (Option.map issued) ∧
        (issued (.lease { config })).Holds a.keepAlive { config } := by
  let recorded : Stage (σ × List Accessor.Call) := { store := (stage.store, []), events := stage.events }
  let last := acquire accessor.recording config .empty (stage.store, [])
  have course := Provider.course_of_acquire accessor config .empty stage.store
  have attempt := Provider.observed_attempt accessor config .empty stage
  cases kept : a.keepAlive with
  | false =>
    have plain : a.provider defaults = .plain .empty := by simp [RunArguments.provider, kept]
    rw [plain]
    refine .inr ⟨nofun, last.1, id, ?_, ?_, .bare _⟩
    · exact (congrArg (·.2) attempt) ▸ course
    · refine (congrArg (·.1.1) attempt).trans ?_
      rcases Provider.answerOf config last.1 with _ | _ | _ <;> rfl
  | true =>
    have plain : a.provider defaults = .keepingAlive defaults.keepAliveMinimum (.plain .empty) := by
      simp [RunArguments.provider, kept]
    rw [plain]
    cases accepted : Renewal.check defaults.keepAliveMinimum config with
    | error e =>
      have refused : (Provider.keepingAlive defaults.keepAliveMinimum (.plain .empty)).tryLock accessor.recording .zero
          config recorded = _ := Provider.tryLock_unrenewable _ accepted
      exact .inl ⟨rfl, e, rfl, congrArg (·.1.1) refused, congrArg (·.2.store.2) refused⟩
    | ok =>
      have goes_on : (Provider.keepingAlive defaults.keepAliveMinimum (.plain .empty)).tryLock accessor.recording .zero
          config recorded = _ := Provider.tryLock_renewable _ accepted
      refine .inr ⟨fun _ => rfl, last.1, .keptAlive (.start config .zero), ?_, ?_, .kept _ _⟩
      · have calls := (congrArg (·.2.store.2) goes_on).trans (congrArg (·.2) attempt)
        exact calls ▸ course
      · let keep := Handle.keptAlive (.start config .zero)
        have given := congrArg (fun reply => reply.1.1.map (Option.map keep)) attempt
        exact (congrArg (·.1.1) goes_on).trans given

/-- The attempt of a command. -/
theorem attempt_course (accessor : Accessor σ) (defaults : LockSettings) (a : RunArguments) (config : LockConfig)
    (store : σ) :
    let reply := (Session.notingLocking accessor).tryLock () config (.begin defaults a (store, []))
    (a.keepAlive = true ∧ ∃ e, Renewal.check defaults.keepAliveMinimum config = .error e ∧ reply.1 = .error e ∧
        reply.2.notes = [.attempted (.error e)]) ∨
      (a.keepAlive = true → Renewal.check defaults.keepAliveMinimum config = .ok ()) ∧ ∃ calls answer,
        Provider.Course accessor.strategy.insertReclaims false config calls answer ∧
        reply.1 = (Provider.answerOf config answer).map (Option.map fun _ => ()) ∧
        reply.2.notes = calls.map .called ++ [.attempted reply.1] ∧
        (answer = .ok true → ∃ h, reply.2.handle = some h ∧ h.Holds a.keepAlive { config }) := by
  let stage : Stage σ := { store }
  let seen := accessor.observe ((a.provider defaults).tryLock · .zero config) stage
  have noted := ((a.provider defaults).natural_tryLock .zero config).noting accessor { store := (store, []) }
  have runs : (Session.locking accessor.noting).tryLock () config (.begin defaults a (store, [])) =
      (seen.1.1.1.map (Option.map fun _ => ()),
        { stage := { store := (seen.2.store, seen.1.2.map .called), events := seen.2.events },
          provider := seen.1.1.2, handle := seen.1.1.1.toOption.getD none }) :=
    (Session.tryLock_eq config).trans (congrArg (fun reply => (reply.1.1.map (Option.map fun _ => ()),
      Session.mk reply.2 reply.1.2 (reply.1.1.toOption.getD none))) noted)
  have answered := congrArg Prod.fst runs
  have notes := congrArg (fun reply => reply.2.notes ++ [.attempted reply.1]) runs
  have handle := congrArg (fun reply => reply.2.handle) runs
  rcases observed_tryLock accessor defaults a config stage with
    ⟨kept, e, refused, failed, nothing⟩ | ⟨renewable, answer, issued, course, given, holds⟩
  · exact .inl ⟨kept, e, refused, answered.trans (by rw [failed]; rfl), notes.trans (by rw [failed, nothing]; rfl)⟩
  · refine .inr ⟨renewable, seen.1.2, answer, course, ?_, ?_, ?_⟩
    · refine answered.trans ?_
      rw [given]
      rcases Provider.answerOf config answer with _ | _ | _ <;> rfl
    · exact notes.trans (by rw [← answered]; rfl)
    · rintro rfl
      exact ⟨_, handle.trans (by rw [given]; rfl), holds⟩

theorem Holding.tell (holding : Holding kept l notes s) (accessor : Accessor σ) (event : Event) :
    Holding kept l notes ((Session.notingLocking accessor).tell event s).2 :=
  ⟨holding.handle, holding.notes⟩

/-- The notes on a release, and on the drop that follows it. -/
theorem Holding.release (holding : Holding kept l notes s) (accessor : Accessor σ) (name : String) :
    let locking := Session.notingLocking accessor
    let reply := locking.unlock () s
    let told := match reply.1 with
      | .ok () => reply.2
      | .error _ => (locking.tell (.log .releaseAfterTaskFailed name) reply.2).2
    ∃ release, Release l release ∧ (locking.drop () told).2.notes = notes ++ release := by
  intro locking reply told
  obtain ⟨calls, left, course, after⟩ := holding.unlock accessor
  have stays : Holding kept left (notes ++ calls.map .called ++ [.released reply.1]) told := by
    unfold told
    split
    · exact after
    · exact after.tell accessor _
  obtain ⟨more, noted, ⟨spent, rfl⟩ | ⟨held, answer, rfl⟩⟩ := stays.drop accessor
  · exact ⟨_, .settled course spent, noted.trans (by simp [reply, locking])⟩
  · exact ⟨_, .again answer course held, noted.trans (by simp [reply, locking])⟩

/-- A child that is run under a lock. -/
theorem Holding.executed (accessor : Accessor σ) (child : Behaviour σ) (words : List String) {config : LockConfig}
    {before : Session (Noted σ)}
    (acquired : (Session.notingLocking accessor).tryLock () config before = (.ok (some ()), s))
    (holding : Holding kept l notes s) :
    ∃ how after during last release,
      (Session.notingLocking accessor).execute () config [] (fun _ => child.noting accessor words) before =
        (.ok (.executed how), after) ∧
      Renewed kept l during last ∧ Release last release ∧
      after.notes = notes ++ .began words :: (during.map .called ++ .ended how :: release) := by
  let went := child words (s.map Prod.fst)
  obtain ⟨during, last, renewed, held⟩ := (holding.note (.began words)).pass accessor went.1
  have ran : child.noting accessor words s = (went.2, (child.noting accessor words s).2) := rfl
  have ended : Holding kept last _ (child.noting accessor words s).2 := held.note (.ended went.2)
  obtain ⟨release, releases, told⟩ := ended.release accessor config.name
  rcases released : (Session.notingLocking accessor).unlock () (child.noting accessor words s).2 with ⟨e | _, later⟩
  · rw [released] at told
    exact ⟨_, _, during, last, release, Locking.execute_unreleased rfl acquired ran released, renewed, releases,
      told.trans (by simp)⟩
  · rw [released] at told
    exact ⟨_, _, during, last, release, Locking.execute_released rfl acquired ran released, renewed, releases,
      told.trans (by simp)⟩

/-- What the answer of an executor means for a command. -/
def resultOf : Except LockError (TaskOutcome ChildEnd) → Except Failure Nat
  | .error e => .error (.lock e)
  | .ok .skipped => .ok 0
  | .ok (.executed how) => how.status

theorem runUnder_suitable {S : Type} {locking : Locking S Unit Unit} {defaults : LockSettings} {a : RunArguments}
    {child : List String → StateM S ChildEnd} {config : LockConfig} (suitable : a.lock defaults = .ok config) (s : S) :
    runUnder locking defaults a child s =
      (let reply := locking.execute () config [] (fun _ => child a.child) s
      (resultOf reply.1, reply.2)) := by
  rw [runUnder, suitable]
  simp only [bind, StateT.bind]
  rcases locking.execute () config [] (fun _ => child a.child) s with ⟨_ | _ | how, t⟩ <;> rfl

/-- A command goes one of its ways. -/
theorem conduct_of_run (accessor : Accessor σ) (defaults : LockSettings) (a : RunArguments) (child : Behaviour σ)
    (store : σ) :
    let noted := runUnder (Session.notingLocking accessor) defaults a (child.noting accessor)
      (.begin defaults a (store, []))
    Conduct accessor.strategy.insertReclaims defaults a noted.2.notes noted.1 := by
  cases lock : a.lock defaults with
  | error e =>
    rw [runUnder, lock]
    exact .noLock lock
  | ok config =>
    rw [runUnder_suitable lock]
    have free : LockStack.isLocked ([] : LockStack Unit) config.name = false := rfl
    rcases attempt_course accessor defaults a config store with
      ⟨kept, e, refused, answered, noted⟩ | ⟨renewable, calls, answer, course, answered, noted, handle⟩
    · rw [Locking.execute_failed free (Prod.ext answered rfl)]
      dsimp only
      rw [noted]
      exact .unrenewable lock kept refused
    · rw [answered] at noted
      have suits : Suits defaults a config := ⟨lock, renewable⟩
      rcases answer with fault | _ | _
      · rw [Locking.execute_failed free (Prod.ext answered rfl)]
        dsimp only
        rw [noted]
        exact .failed suits course
      · rw [Locking.execute_skipped free (Prod.ext answered rfl)]
        dsimp only
        rw [noted]
        exact .skipped suits course
      · obtain ⟨how, after, during, last, release, executed, renewed, releases, told⟩ :=
          Holding.executed accessor child a.child (Prod.ext answered rfl) ⟨handle rfl, noted⟩
        rw [executed]
        dsimp only
        rw [told, List.append_assoc]
        exact .ran how suits course renewed releases

end

end Command

end TaskLease

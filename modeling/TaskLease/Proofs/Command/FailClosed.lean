import Mathlib.Data.List.Basic
import TaskLease.Proofs.Command.Conduct

/-!
# Commands fail closed

A command starts its child only under its lock, and gives the lock back whatever becomes of the child. What it reports
is what has happened: a fault of the store or of the configuration is no success, and the status of the child is not
lost. `FailsClosed` says so of the notes on a command and of what it comes to, and each of the ways that a command can
go is such (`Conduct.failsClosed`).
-/

namespace TaskLease

open Session (Note)

/-! ## What a command has to keep to -/

namespace RunArguments

/-- A lock is asked for: with the name and the durations given, or else with the durations of the settings. -/
def AsksFor (a : RunArguments) (defaults : LockSettings) (config : LockConfig) : Prop :=
  config.name = a.name ∧ config.atMost = a.atMost.getD defaults.atMost ∧
    config.atLeast = a.atLeast.getD defaults.atLeast

/-- What is asked for is no lock at all, or is to be kept alive and can not be. -/
def Unsuitable (a : RunArguments) (defaults : LockSettings) : Prop :=
  (∀ config, ¬ a.AsksFor defaults config) ∨
    a.keepAlive = true ∧ ∃ config, a.AsksFor defaults config ∧
      (config.atMost < defaults.keepAliveMinimum ∨ config.atMost.half.isZero = true)

end RunArguments

namespace Session

/-- Whether a note is on the start of the child. -/
def Note.begins : Note → Bool
  | .began _ => true
  | _ => false

/-- Whether a note is on a call. -/
def Note.calls : Note → Bool
  | .called _ => true
  | _ => false

end Session

namespace Command

/-- What an attempt gives its command, by the store's reply. -/
def givenFor : Except StoreFault Bool → Except LockError (Option Unit)
  | .ok acquired => .ok (if acquired then some () else none)
  | .error fault => .error (.storage fault)

/-- What is done from the start of the child on, for a lock of a name. -/
structure GivesBack (name : String) (kept : Bool) (during : List Accessor.Call) (release : List Note) : Prop where
  /-- While the child runs, a lock that is kept alive is renewed, and nothing else is called. -/
  renewals : ∀ c ∈ during, kept = true ∧ c.op = .extend ∧ c.config.name = name
  /-- When it has come to its end, the handle is released, once, and dropped. -/
  released : ∃ answer, release.filter (fun n => !n.calls) = [.released answer, .dropped]
  /-- The release begins with a call. -/
  called : (∀ c ∈ during, c.answer ≠ .ok false) → ∃ config reply rest, config.name = name ∧
    release = .called ⟨.unlock, config, reply⟩ :: rest
  /-- A lock that a renewal has found lost is left alone. -/
  lost : (∃ c ∈ during, c.answer = .ok false) → ∀ n ∈ release, n.calls = false

/-- A command that fails closed: its notes, and what it comes to. `reclaims` is whether the store's insert takes over
expired leases. -/
structure FailsClosed (reclaims : Bool) (defaults : LockSettings) (a : RunArguments) (notes : List Note)
    (result : Except Failure Nat) : Prop where
  /-- What is unsuitable is refused, and nothing else is. -/
  refused : (∃ refusal, result = .error (.lock (.invalidConfiguration refusal))) ↔ a.Unsuitable defaults
  /-- Nothing is called for what is unsuitable. -/
  unsuitable : a.Unsuitable defaults → exitStatus result = 2 ∧ ∀ n ∈ notes, n.calls = false ∧ n.begins = false
  /-- For what is suitable, a command begins with an attempt. -/
  tried : ∀ config, Suits defaults a config → ∃ calls reply rest,
    Provider.Course reclaims false config calls reply ∧ notes = calls.map .called ++ .attempted (givenFor reply) :: rest
  /-- The child is started at most once. -/
  once : (notes.filter Note.begins).length ≤ 1
  /-- It is started right after an attempt that gave out a handle. -/
  held : ∀ before words after, notes = before ++ .began words :: after →
    words = a.child ∧ before.getLast? = some (.attempted (.ok (some ())))
  /-- After such an attempt it is always started. -/
  started : .attempted (.ok (some ())) ∈ notes → .began a.child ∈ notes
  /-- If the lock is held elsewhere, that is no failure, and the child is not started. -/
  skipped : .attempted (.ok none) ∈ notes → result = .ok 0 ∧ ∀ n ∈ notes, n.begins = false
  /-- A store that fails before the child is started ends the command. -/
  faulty : ∀ before call fault after, notes = before ++ .called call :: after → call.answer = .error fault →
    (∀ n ∈ before, n.begins = false) → result = .error (.lock (.storage fault)) ∧ exitStatus result = 4 ∧
      ∀ n ∈ after, n.begins = false
  /-- Once the child was started, it comes to its end, and the lock is given back. What the child came to is what the
  command comes to, whatever becomes of the release. -/
  givesBack : ∀ before words after, notes = before ++ .began words :: after →
    ∃ during how release, after = during.map .called ++ .ended how :: release ∧
      GivesBack a.name a.keepAlive during release ∧ result = how.status
  /-- The status of a child is the exit status. -/
  exited : ∀ status < 256, .ended (.exited status) ∈ notes → exitStatus result = status
  killed : .ended .killed ∈ notes → exitStatus result = 1
  /-- Nothing else is passed off as a success. -/
  success : exitStatus result = 0 ↔ .attempted (.ok none) ∈ notes ∨ .ended (.exited 0) ∈ notes

end Command

/-! ## What is suitable -/

namespace RunArguments

variable {a : RunArguments} {defaults : LockSettings} {config : LockConfig}

theorem lock_eq_ok_iff : a.lock defaults = .ok config ↔ a.AsksFor defaults config := by
  constructor
  · intro made
    unfold lock LockConfig.make at made
    split at made
    · cases made
    · split at made
      · split at made
        · cases made
          exact ⟨rfl, rfl, rfl⟩
        · cases made
      · cases made
  · rintro ⟨named, most, least⟩
    rw [lock, ← named, ← most, ← least]
    exact config.make_self

theorem lock_error {e : LockError} (failed : a.lock defaults = .error e) :
    ∃ refusal, e = .invalidConfiguration refusal := by
  unfold lock LockConfig.make at failed
  split at failed
  · cases failed
    exact ⟨_, rfl⟩
  · split at failed
    · split at failed
      · cases failed
      · cases failed
        exact ⟨_, rfl⟩
    · cases failed
      exact ⟨_, rfl⟩

end RunArguments

namespace Renewal

variable {minimum : Duration} {config : LockConfig}

theorem check_eq_ok_iff :
    check minimum config = .ok () ↔ ¬ (config.atMost < minimum ∨ config.atMost.half.isZero = true) := by
  unfold check periodOf
  split
  · simp [*]
  · split <;> simp [*]

theorem check_error {e : LockError} (failed : check minimum config = .error e) :
    ∃ refusal, e = .invalidConfiguration refusal := by
  unfold check at failed
  split at failed
  · cases failed
    exact ⟨_, rfl⟩
  · split at failed
    · cases failed
      exact ⟨_, rfl⟩
    · cases failed

end Renewal

namespace Command

section

variable {defaults : LockSettings} {a : RunArguments}

theorem Suits.unique {config config' : LockConfig} (suits : Suits defaults a config)
    (suits' : Suits defaults a config') : config = config' :=
  Except.ok.inj (suits.lock.symm.trans suits'.lock)

/-- What is asked for is unsuitable exactly if no lock suits it. -/
theorem unsuitable_iff : a.Unsuitable defaults ↔ ∀ config, ¬ Suits defaults a config := by
  constructor
  · rintro (nothing | ⟨kept, config, asked, short⟩) config' ⟨lock, renewable⟩
    · exact nothing config' (RunArguments.lock_eq_ok_iff.mp lock)
    · rw [RunArguments.lock_eq_ok_iff.mpr asked] at lock
      cases lock
      exact Renewal.check_eq_ok_iff.mp (renewable kept) short
  · intro none_suits
    cases lock : a.lock defaults with
    | error e =>
      left
      intro config asked
      rw [RunArguments.lock_eq_ok_iff.mpr asked] at lock
      cases lock
    | ok config =>
      have unrenewable : ¬ (a.keepAlive = true → Renewal.check defaults.keepAliveMinimum config = .ok ()) :=
        fun renewable => none_suits config ⟨lock, renewable⟩
      obtain ⟨kept, refused⟩ := Classical.not_imp.mp unrenewable
      rw [Renewal.check_eq_ok_iff, not_not] at refused
      exact .inr ⟨kept, config, RunArguments.lock_eq_ok_iff.mp lock, refused⟩

end

/-! ## What becomes of the lease -/

section

variable {kept : Bool} {l last : Lease} {during : List Accessor.Call} {release : List Note}

/-- Renewals keep the name, and the lease stays held until one is answered `false`. -/
theorem Renewed.leaves (renewed : Renewed kept l during last) :
    last.config.name = l.config.name ∧
      (∀ c ∈ during, kept = true ∧ c.op = .extend ∧ c.config.name = l.config.name) ∧
      (l.state = .held → (∀ c ∈ during, c.answer ≠ .ok false) → last.state = .held) ∧
      ((l.state = .lost ∨ ∃ c ∈ during, c.answer = .ok false) → last.state = .lost) := by
  induction renewed with
  | done l => simp
  | @renewed l _ _ calls _ left more last keeps course _ ih =>
    obtain ⟨named, own, holds⟩ := course.of_extended
    obtain ⟨loses, stays⟩ := course.lost_of_extended
    obtain ⟨named', own', holds', loses'⟩ := ih
    refine ⟨named'.trans named, ?_, ?_, ?_⟩
    · intro c member
      rcases List.mem_append.mp member with first | later
      · exact ⟨keeps, own c first⟩
      · obtain ⟨-, extends_, name⟩ := own' c later
        exact ⟨keeps, extends_, name.trans named⟩
    · intro held unanswered
      rw [List.forall_mem_append] at unanswered
      exact holds' (holds held unanswered.1) unanswered.2
    · rintro (lost | ⟨c, member, answered⟩)
      · exact loses' (.inl (stays lost))
      · rcases List.mem_append.mp member with first | later
        · exact loses' (.inl (loses ⟨c, first, answered⟩))
        · exact loses' (.inr ⟨c, later, answered⟩)

/-- A release of a held lease begins with a call, and one of a lost lease makes none. -/
theorem Release.leaves (releases : Release l release) :
    (∃ answer, release.filter (fun n => !n.calls) = [.released answer, .dropped]) ∧
      (l.state = .held → ∃ reply rest, release = .called ⟨.unlock, l.config, reply⟩ :: rest) ∧
      (l.state ≠ .held → ∀ n ∈ release, n.calls = false) := by
  cases releases with
  | settled course spent =>
    cases course with
    | released applied held => simp [Note.calls, held]
    | unreleased fault held => exact absurd held spent
    | unlockedIdle idle => simp [Note.calls, idle]
  | again reply course held =>
    cases course with
    | released applied _ => cases held
    | unreleased fault _ => simp [Note.calls, held]
    | unlockedIdle idle => exact absurd held idle

/-- However the renewals of a lock were answered, it is given back. -/
theorem givesBack_of_renewed {config : LockConfig} (renewed : Renewed kept { config } during last)
    (releases : Release last release) : GivesBack config.name kept during release := by
  obtain ⟨named, own, holds, loses⟩ := renewed.leaves
  obtain ⟨released, called, idle⟩ := releases.leaves
  refine ⟨own, released, ?_, ?_⟩
  · intro unanswered
    obtain ⟨reply, rest, rfl⟩ := called (holds rfl unanswered)
    exact ⟨_, reply, rest, named, rfl⟩
  · intro lost
    exact idle ((loses (.inr lost)).trans_ne nofun)

theorem Release.notes (releases : Release l release) {n : Note} (member : n ∈ release) :
    (∃ call, n = .called call) ∨ (∃ answer, n = .released answer) ∨ n = .dropped := by
  cases releases with
  | settled =>
    simp only [List.mem_append, List.mem_map, List.mem_cons, List.not_mem_nil, or_false] at member
    rcases member with ⟨call, -, rfl⟩ | rfl | rfl <;> simp
  | again =>
    simp only [List.mem_append, List.mem_map, List.mem_cons, List.not_mem_nil, or_false] at member
    rcases member with ⟨call, -, rfl⟩ | rfl | rfl | rfl <;> simp

end

/-! ## What follows -/

theorem eq_of_begins {first last before after : List Note} {n m : Note} (quiet_first : ∀ n ∈ first, n.begins = false)
    (quiet_last : ∀ n ∈ last, n.begins = false) (begins : m.begins = true)
    (split : first ++ n :: last = before ++ m :: after) : before = first ∧ m = n ∧ after = last := by
  rcases List.append_eq_append_iff.mp split with ⟨more, rfl, rest⟩ | ⟨more, rfl, rest⟩
  · rcases more with - | ⟨x, more⟩
    · simp_all
    · obtain ⟨rfl, rfl⟩ := List.cons.inj rest
      have quiet := quiet_last m (by simp)
      rw [begins] at quiet
      cases quiet
  · rcases more with - | ⟨x, more⟩
    · simp_all
    · obtain ⟨rfl, rfl⟩ := List.cons.inj rest
      have quiet := quiet_first m (by simp)
      rw [begins] at quiet
      cases quiet

/-- What stands before the start of the child is among the first notes. -/
theorem mem_of_quiet {first last before after : List Note} {n m : Note} (quiet : ∀ n ∈ before, n.begins = false)
    (begins : m.begins = true) (other : n.begins = false) (split : first ++ m :: last = before ++ n :: after) :
    n ∈ first := by
  rcases List.append_eq_append_iff.mp split with ⟨more, rfl, rest⟩ | ⟨more, rfl, rest⟩
  · rcases more with - | ⟨x, more⟩
    · obtain ⟨rfl, -⟩ := List.cons.inj rest
      rw [begins] at other
      cases other
    · obtain ⟨rfl, -⟩ := List.cons.inj rest
      rw [quiet m (by simp)] at begins
      cases begins
  · rcases more with - | ⟨x, more⟩
    · obtain ⟨rfl, -⟩ := List.cons.inj rest
      rw [begins] at other
      cases other
    · obtain ⟨rfl, -⟩ := List.cons.inj rest
      simp

theorem filter_begins {notes : List Note} (quiet : ∀ n ∈ notes, n.begins = false) : notes.filter Note.begins = [] :=
  List.filter_eq_nil_iff.mpr fun n member => by simp [quiet n member]

/-- A call of an attempt that fails is what the attempt comes to. -/
theorem fault_of_course {reclaims known : Bool} {config : LockConfig} {calls : List Accessor.Call}
    {reply : Except StoreFault Bool} (course : Provider.Course reclaims known config calls reply)
    {call : Accessor.Call} {fault : StoreFault} (member : call ∈ calls) (failed : call.answer = .error fault) :
    reply = .error fault := by
  cases course with
  | reclaiming | updating | inserting =>
    cases List.mem_singleton.mp member
    exact failed
  | both =>
    rcases List.mem_pair.mp member with rfl | rfl
    · cases failed
    · exact failed

theorem exitStatus_refused (refusal : Refusal) :
    exitStatus (.error (.lock (.invalidConfiguration refusal))) = 2 := by
  simp [exitStatus, Failure.exitStatus, LockError.exitStatus, LockError.code, ErrorCode.category,
    ErrorCategory.exitStatus, processStatus]

theorem exitStatus_fault (fault : StoreFault) : exitStatus (.error (.lock (.storage fault))) = 4 := by
  simp [exitStatus, Failure.exitStatus, LockError.exitStatus, LockError.code, ErrorCode.category,
    ErrorCategory.exitStatus, processStatus]

/-- Only a child that ends with zero makes for a success. -/
theorem exitStatus_status (how : ChildEnd) : exitStatus how.status = 0 ↔ how = .exited 0 := by
  cases how with
  | exited n =>
    by_cases small : n < 256
    · simp [exitStatus, ChildEnd.status, processStatus, small]
    · simp [exitStatus, ChildEnd.status, processStatus, small]
      omega
  | killed => simp [exitStatus, ChildEnd.status, processStatus]
  | interrupted => simp [exitStatus, ChildEnd.status, processStatus, interruptedStatus]
  | notStarted _ | unwatched _ => exact iff_of_false (show (70 : Nat) ≠ 0 by decide) nofun
  | noProgram => exact iff_of_false (show (4 : Nat) ≠ 0 by decide) nofun

/-- No end of a child is taken for a fault of the configuration. -/
theorem status_ne_refused (how : ChildEnd) (refusal : Refusal) :
    how.status ≠ .error (.lock (.invalidConfiguration refusal)) := by
  cases how <;> simp [ChildEnd.status]

section

variable {reclaims : Bool} {defaults : LockSettings} {a : RunArguments} {notes : List Note}
  {result : Except Failure Nat}

/-- A command that does not start its child. -/
theorem failsClosed_of_quiet (quiet : ∀ n ∈ notes, n.begins = false ∧ ∀ how, n ≠ .ended how)
    (ungiven : .attempted (.ok (some ())) ∉ notes) (skipped : .attempted (.ok none) ∈ notes → result = .ok 0)
    (refused : (∃ refusal, result = .error (.lock (.invalidConfiguration refusal))) ↔ a.Unsuitable defaults)
    (uncalled : a.Unsuitable defaults → ∀ n ∈ notes, n.calls = false)
    (tried : ∀ config, Suits defaults a config → ∃ calls reply rest, Provider.Course reclaims false config calls reply ∧
      notes = calls.map .called ++ .attempted (givenFor reply) :: rest)
    (faulty : ∀ call fault, .called call ∈ notes → call.answer = .error fault →
      result = .error (.lock (.storage fault)))
    (success : exitStatus result = 0 → .attempted (.ok none) ∈ notes) :
    FailsClosed reclaims defaults a notes result where
  refused := refused
  unsuitable unsuitable := by
    obtain ⟨refusal, rfl⟩ := refused.mpr unsuitable
    exact ⟨exitStatus_refused refusal, fun n member => ⟨uncalled unsuitable n member, (quiet n member).1⟩⟩
  tried := tried
  once := by
    rw [filter_begins fun n member => (quiet n member).1]
    exact Nat.zero_le 1
  held before words after split := by
    have none_begins := (quiet (.began words) (by simp [split])).1
    cases none_begins
  started given := absurd given ungiven
  skipped elsewhere := ⟨skipped elsewhere, fun n member => (quiet n member).1⟩
  faulty before call fault after split failed _ := by
    have same := faulty call fault (by simp [split]) failed
    subst same
    exact ⟨rfl, exitStatus_fault fault, fun n member => (quiet n (by simp [split, member])).1⟩
  givesBack before words after split := by
    have none_begins := (quiet (.began words) (by simp [split])).1
    cases none_begins
  exited status _ ended := absurd rfl ((quiet _ ended).2 _)
  killed ended := absurd rfl ((quiet _ ended).2 _)
  success := by
    refine ⟨fun succeeds => .inl (success succeeds), ?_⟩
    rintro (elsewhere | ended)
    · rw [skipped elsewhere]
      rfl
    · exact absurd rfl ((quiet _ ended).2 _)

theorem quiet_attempt (calls : List Accessor.Call) (answer : Except LockError (Option Unit)) :
    ∀ n ∈ calls.map Note.called ++ [.attempted answer], n.begins = false ∧ ∀ how, n ≠ .ended how := by
  intro n member
  rcases List.mem_append.mp member with called | attempted
  · obtain ⟨call, -, rfl⟩ := List.mem_map.mp called
    exact ⟨rfl, nofun⟩
  · cases List.mem_singleton.mp attempted
    exact ⟨rfl, nofun⟩

/-- A command that starts its child. -/
theorem failsClosed_of_run {config : LockConfig} {calls during : List Accessor.Call} {l : Lease}
    {release : List Note} (how : ChildEnd) (suits : Suits defaults a config)
    (course : Provider.Course reclaims false config calls (.ok true))
    (renewed : Renewed a.keepAlive { config } during l) (releases : Release l release) :
    FailsClosed reclaims defaults a
      (calls.map .called ++ .attempted (.ok (some ())) :: .began a.child ::
        (during.map .called ++ .ended how :: release))
      how.status := by
  let first : List Note := calls.map .called ++ [.attempted (.ok (some ()))]
  let last : List Note := during.map .called ++ .ended how :: release
  have in_first {n : Note} (member : n ∈ first) :
      (∃ call ∈ calls, n = .called call) ∨ n = .attempted (.ok (some ())) := by
    simpa [first, eq_comm] using member
  have in_last {n : Note} (member : n ∈ last) :
      (∃ call, n = .called call) ∨ n = .ended how ∨ (∃ answer, n = .released answer) ∨ n = .dropped := by
    simp only [last, List.mem_append, List.mem_map, List.mem_cons] at member
    rcases member with ⟨call, -, rfl⟩ | rfl | member
    · exact .inl ⟨call, rfl⟩
    · exact .inr (.inl rfl)
    · exact (releases.notes member).imp id .inr
  have quiet_first (n : Note) (member : n ∈ first) : n.begins = false := by
    rcases in_first member with ⟨call, -, rfl⟩ | rfl <;> rfl
  have quiet_last (n : Note) (member : n ∈ last) : n.begins = false := by
    rcases in_last member with ⟨call, rfl⟩ | rfl | ⟨answer, rfl⟩ | rfl <;> rfl
  have whole : calls.map Note.called ++ .attempted (.ok (some ())) :: .began a.child ::
      (during.map .called ++ .ended how :: release) = first ++ .began a.child :: last := by simp [first, last]
  rw [whole]
  have not_elsewhere : .attempted (.ok none) ∉ first ++ .began a.child :: last := by
    intro member
    rcases List.mem_append.mp member with early | late
    · simpa using in_first early
    · simpa using in_last ((List.mem_cons.mp late).resolve_left nofun)
  have ended_iff (how' : ChildEnd) : .ended how' ∈ first ++ .began a.child :: last ↔ how' = how := by
    constructor
    · intro member
      rcases List.mem_append.mp member with early | late
      · simpa using in_first early
      · simpa using in_last ((List.mem_cons.mp late).resolve_left nofun)
    · rintro rfl
      simp [last]
  have suitable : ¬ a.Unsuitable defaults := fun unsuitable => unsuitable_iff.mp unsuitable config suits
  exact {
    refused := ⟨fun ⟨refusal, same⟩ => absurd same (status_ne_refused how refusal), fun u => absurd u suitable⟩
    unsuitable := fun unsuitable => absurd unsuitable suitable
    tried := by
      intro config' suits'
      cases suits.unique suits'
      exact ⟨calls, .ok true, .began a.child :: last, course, by simp [first, givenFor]⟩
    once := by
      rw [List.filter_append, List.filter_cons_of_pos rfl, filter_begins quiet_first, filter_begins quiet_last]
      exact Nat.le_refl 1
    held := by
      intro before words after split
      obtain ⟨rfl, same, -⟩ := eq_of_begins quiet_first quiet_last rfl split
      cases same
      exact ⟨rfl, by simp [first]⟩
    started := by simp
    skipped := fun elsewhere => absurd elsewhere not_elsewhere
    faulty := by
      intro before call fault after split failed quiet
      rcases in_first (mem_of_quiet quiet rfl rfl split) with ⟨_, member, ⟨⟩⟩ | ⟨⟨⟩⟩
      cases fault_of_course course member failed
    givesBack := by
      intro before words after split
      obtain ⟨-, -, rfl⟩ := eq_of_begins quiet_first quiet_last rfl split
      have given : GivesBack a.name a.keepAlive during release :=
        (RunArguments.lock_eq_ok_iff.mp suits.lock).1 ▸ givesBack_of_renewed renewed releases
      exact ⟨during, how, release, rfl, given, rfl⟩
    exited := by
      intro status small ended
      rw [← (ended_iff _).mp ended]
      exact if_pos small
    killed := by
      intro ended
      rw [← (ended_iff _).mp ended]
      rfl
    success := by
      rw [exitStatus_status, ended_iff, eq_comm]
      exact ⟨.inr, fun succeeds => succeeds.resolve_left not_elsewhere⟩ }

/-- Whichever way a command goes, it fails closed. -/
theorem Conduct.failsClosed (conduct : Conduct reclaims defaults a notes result) :
    FailsClosed reclaims defaults a notes result := by
  cases conduct with
  | @noLock e lock =>
    obtain ⟨refusal, rfl⟩ := RunArguments.lock_error lock
    have unsuitable : a.Unsuitable defaults := unsuitable_iff.mpr fun config suits => by
      rw [suits.lock] at lock
      cases lock
    refine failsClosed_of_quiet (by simp) (by simp) (by simp) (iff_of_true ⟨refusal, rfl⟩ unsuitable) (by simp)
      (fun config suits => absurd suits (unsuitable_iff.mp unsuitable config)) (by simp) ?_
    rw [exitStatus_refused]
    nofun
  | @unrenewable config e lock kept refused =>
    obtain ⟨refusal, rfl⟩ := Renewal.check_error refused
    have unsuitable : a.Unsuitable defaults := unsuitable_iff.mpr fun config' suits => by
      cases lock.symm.trans suits.lock
      rw [suits.renewable kept] at refused
      cases refused
    refine failsClosed_of_quiet (quiet_attempt [] _) (by simp) (by simp) (iff_of_true ⟨refusal, rfl⟩ unsuitable)
      (fun _ => by simp [Note.calls]) (fun config suits => absurd suits (unsuitable_iff.mp unsuitable config))
      (by simp) ?_
    rw [exitStatus_refused]
    nofun
  | @failed config calls fault suits course =>
    have suitable : ¬ a.Unsuitable defaults := fun unsuitable => unsuitable_iff.mp unsuitable config suits
    refine failsClosed_of_quiet (quiet_attempt calls _) (by simp) (by simp) (iff_of_false (by simp) suitable)
      (fun unsuitable => absurd unsuitable suitable) ?_ ?_ ?_
    · intro config' suits'
      cases suits.unique suits'
      exact ⟨calls, _, [], course, rfl⟩
    · intro call fault' member failed
      cases fault_of_course course (by simpa using member) failed
      rfl
    · rw [exitStatus_fault]
      nofun
  | @skipped config calls suits course =>
    have suitable : ¬ a.Unsuitable defaults := fun unsuitable => unsuitable_iff.mp unsuitable config suits
    refine failsClosed_of_quiet (quiet_attempt calls _) (by simp) (fun _ => rfl) (iff_of_false (by simp) suitable)
      (fun unsuitable => absurd unsuitable suitable) ?_ ?_ (fun _ => by simp)
    · intro config' suits'
      cases suits.unique suits'
      exact ⟨calls, _, [], course, rfl⟩
    · intro call fault member failed
      cases fault_of_course course (by simpa using member) failed
  | ran how suits course renewed releases => exact failsClosed_of_run how suits course renewed releases

end

end Command

/-- The application runs a command in one of these ways. -/
theorem Application.run_conducts (settings : LockSettings) (holder : Holder) (bindings : Environment.Bindings)
    (a : RunArguments) (m : Machine) :
    ∃ notes, Command.Conduct m.backend.strategy.insertReclaims settings a notes
      (Application.run settings holder bindings a m).1 := by
  let accessor := Machine.accessor m.backend.strategy holder
  obtain ⟨child, behaves⟩ := runChild_behaves accessor bindings
  have ran : (Application.run settings holder bindings a m).1 =
      (runLocked settings accessor a (runChild accessor bindings) (.begin settings a m)).1 := rfl
  rw [ran, behaves, noted_run]
  exact ⟨_, Command.conduct_of_run accessor settings a child m⟩

/-- Whatever is asked for and however the settings are, whatever an accessor answers to its calls, and whatever happens
while the child runs and becomes of it: a command fails closed. The notes are on the run as it goes without them. -/
theorem command_fails_closed {σ : Type} (accessor : Accessor σ) (defaults : LockSettings) (a : RunArguments)
    (child : Behaviour σ) (store : σ) :
    let plain := runLocked defaults accessor a (child.act accessor) (.begin defaults a store)
    let noted := runUnder (Session.notingLocking accessor) defaults a (child.noting accessor)
      (.begin defaults a (store, []))
    plain = (noted.1, noted.2.map Prod.fst) ∧
      Command.FailsClosed accessor.strategy.insertReclaims defaults a noted.2.notes plain.1 := by
  intro plain noted
  have same : plain = (noted.1, noted.2.map Prod.fst) := noted_run accessor defaults a child store
  have conduct := Command.conduct_of_run accessor defaults a child store
  refine ⟨same, ?_⟩
  rw [same]
  exact conduct.failsClosed

/-- A lock is renewed while the child runs. The release fails, and the drop makes up for it. The status is the
child's. -/
example :
    let a : RunArguments :=
      { name := "backup", atMost := some (.ofSeconds 60), atLeast := some (.ofSeconds 5), keepAlive := true
        child := [] }
    let child : Behaviour _ := fun _ _ => ([.ring (.ofSeconds 30) (.ofSeconds 30)], .exited 3)
    let accessor := Accessor.scripted .atomicUpsert
    let answers := [.ok true, .ok true, .error .unavailable, .ok true]
    let noted := runUnder (Session.notingLocking accessor) {} a (child.noting accessor) (.begin {} a (answers, []))
    let renewed : LockConfig := { LockConfig.nightly with atLeast := .zero, atLeast_le_atMost := by decide }
    noted.1 = .ok 3 ∧
      noted.2.notes =
        [.called ⟨.insert, .nightly, .ok true⟩, .attempted (.ok (some ())), .began [],
          .called ⟨.extend, renewed, .ok true⟩, .ended (.exited 3), .called ⟨.unlock, renewed, .error .unavailable⟩,
          .released (.error (.storage .unavailable)), .called ⟨.unlock, renewed, .ok true⟩, .dropped] := by
  decide +kernel

end TaskLease

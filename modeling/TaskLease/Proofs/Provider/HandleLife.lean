import TaskLease.Proofs.Provider.FailClosed

/-!
# The life of a handle

A handle is used any number of times and dropped at the end, while the accessor answers as it likes. `Course` lists
the ways that one use can go, and `course_of_use` shows that there are no others. A handle is not told what has
become of it: `Fits` says that its state and its configuration are what the uses before make of it, and every
course keeps that up (`Course.fits`).
-/

namespace TaskLease

namespace Lease

variable {σ : Type}

/-- What is asked of a handle. -/
inductive Use where
  | unlock
  | extend (atMost atLeast : Duration)
deriving DecidableEq, Repr

/-- What came of a use: the calls that it made, its answer, and the handle as it left it. -/
inductive Entry where
  | unlocked (calls : List Accessor.Call) (answer : Except LockError Unit) (left : Lease)
  | extended (atMost atLeast : Duration) (calls : List Accessor.Call) (answer : Except LockError Bool) (left : Lease)
deriving DecidableEq

namespace Entry

/-- The calls that a use made. -/
def calls : Entry → List Accessor.Call
  | .unlocked calls _ _ => calls
  | .extended _ _ calls _ _ => calls

/-- The handle after a use. -/
def left : Entry → Lease
  | .unlocked _ _ left => left
  | .extended _ _ _ _ left => left

/-- Whether a use was a release that succeeded. -/
def releases : Entry → Bool
  | .unlocked _ (.ok ()) _ => true
  | _ => false

/-- Whether a use was an extension that found the lock lost. -/
def loses : Entry → Bool
  | .extended _ _ _ (.ok false) _ => true
  | _ => false

/-- Whether a use ended in an error. -/
def fails : Entry → Bool
  | .unlocked _ (.error _) _ => true
  | .extended _ _ _ (.error _) _ => true
  | _ => false

/-- The durations of a use that was an extension and succeeded. -/
def renewal? : Entry → Option (Duration × Duration)
  | .extended atMost atLeast _ (.ok true) _ => some (atMost, atLeast)
  | _ => none

end Entry

/-- What the uses so far have made of a handle: the first one that released or lost its lock counts. -/
def fate : List Entry → LeaseState
  | [] => .held
  | entry :: rest => if entry.releases then .released else if entry.loses then .lost else fate rest

/-- A configuration is that of the last extension that succeeded, or else that of the acquisition. -/
def IsCurrent (first : LockConfig) (past : List Entry) (config : LockConfig) : Prop :=
  config.name = first.name ∧
    (config.atMost, config.atLeast) = (past.filterMap Entry.renewal?).getLast?.getD (first.atMost, first.atLeast)

/-- The handle as the uses so far have left it. -/
def latest (first : LockConfig) (past : List Entry) : Lease :=
  (past.getLast?.map Entry.left).getD { config := first }

/-- One use, with the calls that it makes. -/
def use (accessor : Accessor σ) (l : Lease) : Use → Acting σ Entry
  | .unlock => fun stage =>
    let reply := accessor.observe (l.unlock ·) stage
    (.unlocked reply.1.2 reply.1.1.1 reply.1.1.2, reply.2)
  | .extend atMost atLeast => fun stage =>
    let reply := accessor.observe (l.extend · atMost atLeast) stage
    (.extended atMost atLeast reply.1.2 reply.1.1.1 reply.1.1.2, reply.2)

/-- The entries of some uses, made one after the other, and the handle after them. -/
def history (accessor : Accessor σ) : List Use → Lease → Stage σ → List Entry × Lease × Stage σ
  | [], l, stage => ([], l, stage)
  | u :: rest, l, stage =>
    let reply := l.use accessor u stage
    let later := history accessor rest reply.1.left reply.2
    (reply.1 :: later.1, later.2)

/-- The whole life of a handle: its uses, and the calls that it makes in the background when it is dropped. -/
def life (accessor : Accessor σ) (uses : List Use) (l : Lease) (stage : Stage σ) : List Entry × List Accessor.Call :=
  let last := history accessor uses l stage
  (last.1, (accessor.observe (last.2.1.drop ·) last.2.2).1.2)

/-- A use as it has to be, after some others. -/
structure LawfulUse (first : LockConfig) (past : List Entry) (entry : Entry) : Prop where
  /-- The accessor is called only as long as no release has succeeded and no extension was answered `false`. -/
  guarded : entry.calls ≠ [] → ∀ e ∈ past, e.releases = false ∧ e.loses = false
  /-- Until then a release makes one call, with the configuration that the lock is held with. -/
  unlock_held : fate past = .held → ∀ calls answer left, entry = .unlocked calls answer left →
    ∃ config reply, IsCurrent first past config ∧ calls = [⟨.unlock, config, reply⟩] ∧
      answer = (reply.map fun _ => ()).mapError .storage
  /-- And an extension makes one call, with the name of the lock and the durations that it is given. -/
  extend_held : fate past = .held → ∀ atMost atLeast calls answer left,
    entry = .extended atMost atLeast calls answer left → atLeast ≤ atMost →
      ∃ config reply, config.name = first.name ∧ config.atMost = atMost ∧ config.atLeast = atLeast ∧
        calls = [⟨.extend, config, reply⟩] ∧ answer = reply.mapError .storage
  /-- Durations that do not suit each other are refused without a call. -/
  extend_refused : fate past = .held → ∀ atMost atLeast calls answer left,
    entry = .extended atMost atLeast calls answer left → ¬ atLeast ≤ atMost →
      calls = [] ∧ answer = .error (.invalidConfiguration (.leastAboveMost first.name))
  /-- Once the lock is released or lost, a release has nothing left to do. -/
  unlock_over : fate past ≠ .held → ∀ calls answer left, entry = .unlocked calls answer left → answer = .ok ()
  /-- A released handle is not extended, whatever the durations. -/
  extend_released : fate past = .released → ∀ atMost atLeast calls answer left,
    entry = .extended atMost atLeast calls answer left → answer = .error (.handleReleased first.name)
  /-- A lost one stays lost, whatever the durations. -/
  extend_lost : fate past = .lost → ∀ atMost atLeast calls answer left,
    entry = .extended atMost atLeast calls answer left → answer = .ok false
  /-- The handle shows the configuration that the lock is held with. -/
  shown : IsCurrent first (past ++ [entry]) entry.left.config
  /-- The handle knows what has become of it. -/
  state : entry.left.state = fate (past ++ [entry])
  /-- A use that fails leaves the handle as it was, so it can be tried again. -/
  unchanged : entry.fails = true → entry.left = latest first past

/-- A life as it has to be: every use, and the drop at the end. -/
structure LawfulLife (first : LockConfig) (entries : List Entry) (dropped : List Accessor.Call) : Prop where
  uses : ∀ before entry after, entries = before ++ entry :: after → LawfulUse first before entry
  /-- A handle that is still held is released, with the configuration that the lock is held with. -/
  drop_held : fate entries = .held →
    ∃ config reply, IsCurrent first entries config ∧ dropped = [⟨.unlock, config, reply⟩]
  /-- Otherwise there is nothing to release. -/
  drop_over : fate entries ≠ .held → dropped = []

/-! ## What the uses make of a handle -/

section

variable {past : List Entry} {entry : Entry} {first : LockConfig}

theorem fate_eq_held_iff : fate past = .held ↔ ∀ e ∈ past, e.releases = false ∧ e.loses = false := by
  induction past with
  | nil => simp [fate]
  | cons e rest ih =>
    rw [fate, List.forall_mem_cons, ← ih]
    cases e.releases <;> cases e.loses <;> simp

/-- A use settles what becomes of a handle only if none did before. -/
theorem fate_append : fate (past ++ [entry]) = if fate past = .held then fate [entry] else fate past := by
  induction past with
  | nil => simp [fate]
  | cons e rest ih =>
    rw [List.cons_append, fate, fate, ih]
    cases e.releases <;> cases e.loses <;> simp

theorem latest_append : latest first (past ++ [entry]) = entry.left := by
  simp [latest]

/-- A use that renews nothing leaves the configuration as it is. -/
theorem IsCurrent.append {config : LockConfig} (current : IsCurrent first past config)
    (keeps : entry.renewal? = none) : IsCurrent first (past ++ [entry]) config := by
  obtain ⟨named, durations⟩ := current
  refine ⟨named, ?_⟩
  rw [List.filterMap_append, List.filterMap_cons_none keeps, List.filterMap_nil, List.append_nil]
  exact durations

theorem IsCurrent.renewed {config : LockConfig} (named : config.name = first.name)
    (renews : entry.renewal? = some (config.atMost, config.atLeast)) :
    IsCurrent first (past ++ [entry]) config := by
  refine ⟨named, ?_⟩
  rw [List.filterMap_append, List.filterMap_cons_some renews, List.filterMap_nil, List.getLast?_concat,
    Option.getD_some]

end

/-! ## One use -/

/-- The ways that a use of a handle can go. -/
inductive Course (l : Lease) : Entry → Prop
  | released (applied : Bool) : l.state = .held →
    Course l (.unlocked [⟨.unlock, l.config, .ok applied⟩] (.ok ()) { l with state := .released })
  | unreleased (fault : StoreFault) : l.state = .held →
    Course l (.unlocked [⟨.unlock, l.config, .error fault⟩] (.error (.storage fault)) l)
  | unlockedIdle : l.state ≠ .held → Course l (.unlocked [] (.ok ()) l)
  | renewed (config : LockConfig) : l.state = .held → config.name = l.config.name →
    Course l (.extended config.atMost config.atLeast [⟨.extend, config, .ok true⟩] (.ok true) { l with config })
  | lost (config : LockConfig) : l.state = .held → config.name = l.config.name →
    Course l (.extended config.atMost config.atLeast [⟨.extend, config, .ok false⟩] (.ok false)
      { l with state := .lost })
  | unrenewed (config : LockConfig) (fault : StoreFault) : l.state = .held → config.name = l.config.name →
    Course l (.extended config.atMost config.atLeast [⟨.extend, config, .error fault⟩] (.error (.storage fault)) l)
  | refused (atMost atLeast : Duration) : l.state = .held → ¬ atLeast ≤ atMost →
    Course l (.extended atMost atLeast [] (.error (.invalidConfiguration (.leastAboveMost l.config.name))) l)
  | extendedReleased (atMost atLeast : Duration) : l.state = .released →
    Course l (.extended atMost atLeast [] (.error (.handleReleased l.config.name)) l)
  | extendedLost (atMost atLeast : Duration) : l.state = .lost →
    Course l (.extended atMost atLeast [] (.ok false) l)

section

variable (accessor : Accessor σ) (stage : Stage σ) {l : Lease}

/-- A call that is recorded is the only one. -/
theorem recording_perform (op : Operation) (config : LockConfig) (s : σ) :
    let reply := accessor.perform op config s
    accessor.recording.perform op config (s, []) = (reply.1, (reply.2, [⟨op, config, reply.1⟩])) :=
  rfl

theorem course_of_unlock : Course l (l.use accessor .unlock stage).1 := by
  let recorded : Stage (σ × List Accessor.Call) := { store := (stage.store, []), events := stage.events }
  by_cases held : l.state = .held
  · obtain ⟨reply, calls⟩ := unlock_held accessor.recording recorded held
    simp only [use, Accessor.observe]
    rw [reply, calls, recording_perform]
    rcases (accessor.perform .unlock l.config stage.store).1 with fault | applied
    · exact .unreleased fault held
    · exact .released applied held
  · simp only [use, Accessor.observe]
    rw [unlock_idle accessor.recording recorded held]
    exact .unlockedIdle held

theorem withDurations_of_not_le {config : LockConfig} {atMost atLeast : Duration} (long : ¬ atLeast ≤ atMost) :
    config.withDurations atMost atLeast = .error (.invalidConfiguration (.leastAboveMost config.name)) := by
  simp [LockConfig.withDurations, LockConfig.make, config.name_ne_empty, config.name_length_le, long]

theorem course_of_extend (atMost atLeast : Duration) : Course l (l.use accessor (.extend atMost atLeast) stage).1 := by
  let recorded : Stage (σ × List Accessor.Call) := { store := (stage.store, []), events := stage.events }
  simp only [use, Accessor.observe]
  cases state : l.state with
  | released =>
    rw [extend_released accessor.recording recorded atMost atLeast state]
    exact .extendedReleased atMost atLeast state
  | lost =>
    rw [extend_lost accessor.recording recorded atMost atLeast state]
    exact .extendedLost atMost atLeast state
  | held =>
    cases allowed : l.config.withDurations atMost atLeast with
    | error e =>
      have long : ¬ atLeast ≤ atMost := by
        intro suits
        have made : l.config.withDurations atMost atLeast = .ok
            ⟨l.config.name, atMost, atLeast, l.config.name_ne_empty, l.config.name_length_le, suits⟩ :=
          LockConfig.withDurations_eq_ok_iff.mpr ⟨rfl, rfl, rfl⟩
        rw [made] at allowed
        cases allowed
      rw [extend_refused accessor.recording recorded state allowed]
      rw [withDurations_of_not_le long] at allowed
      cases allowed
      exact .refused atMost atLeast state long
    | ok config =>
      obtain ⟨reply, calls⟩ := extend_held accessor.recording recorded state allowed
      obtain ⟨named, rfl, rfl⟩ := LockConfig.withDurations_eq_ok_iff.mp allowed
      rw [reply, calls, recording_perform]
      rcases (accessor.perform .extend config stage.store).1 with fault | _ | _
      · exact .unrenewed config fault state named
      · exact .lost config state named
      · exact .renewed config state named

/-- A use goes one of its ways. -/
theorem course_of_use (u : Use) : Course l (l.use accessor u stage).1 := by
  cases u with
  | unlock => exact course_of_unlock accessor stage
  | extend atMost atLeast => exact course_of_extend accessor stage atMost atLeast

/-- What a drop calls. -/
theorem calls_of_drop : (accessor.observe (l.drop ·) stage).1.2 =
    if l.state = .held then [⟨.unlock, l.config, (accessor.perform .unlock l.config stage.store).1⟩] else [] := by
  let recorded : Stage (σ × List Accessor.Call) := { store := (stage.store, []), events := stage.events }
  simp only [Accessor.observe]
  by_cases held : l.state = .held
  · obtain ⟨-, calls⟩ := drop_held accessor.recording recorded held
    rw [calls, recording_perform, if_pos held]
  · rw [drop_idle accessor.recording recorded held, if_neg held]

end

/-! ### Extensions -/

section

variable {l left : Lease} {atMost atLeast : Duration} {calls : List Accessor.Call} {answer : Except LockError Bool}

/-- An extension makes at most one call, and keeps the name. The lock stays held unless the call is answered
`false`. -/
theorem Course.of_extended (course : Course l (.extended atMost atLeast calls answer left)) :
    left.config.name = l.config.name ∧ (∀ c ∈ calls, c.op = .extend ∧ c.config.name = l.config.name) ∧
      (l.state = .held → (∀ c ∈ calls, c.answer ≠ .ok false) → left.state = .held) := by
  cases course with
  | renewed config held named => exact ⟨named, by simp [named], fun _ _ => held⟩
  | lost config held named => exact ⟨rfl, by simp [named], by simp⟩
  | unrenewed config fault held named => exact ⟨rfl, by simp [named], fun _ _ => held⟩
  | refused _ _ held => exact ⟨rfl, by simp, fun _ _ => held⟩
  | extendedReleased | extendedLost => exact ⟨rfl, by simp, fun held _ => held⟩

/-- An extension that is answered `false` by the store loses the lock, and a lost lock stays lost. -/
theorem Course.lost_of_extended (course : Course l (.extended atMost atLeast calls answer left)) :
    ((∃ c ∈ calls, c.answer = .ok false) → left.state = .lost) ∧ (l.state = .lost → left.state = .lost) := by
  cases course with
  | renewed config held _ | unrenewed config fault held _ =>
    exact ⟨by simp, fun lost => absurd (lost.symm.trans held) (by simp)⟩
  | lost config held _ => exact ⟨fun _ => rfl, fun _ => rfl⟩
  | refused | extendedReleased | extendedLost => exact ⟨by simp, id⟩

end

/-! ## A whole life -/

/-- A handle is what the uses so far make of it. -/
structure Fits (first : LockConfig) (past : List Entry) (l : Lease) : Prop where
  current : IsCurrent first past l.config
  state : l.state = fate past
  latest : l = latest first past

section

variable {first : LockConfig} {past : List Entry} {entry : Entry} {l : Lease}

theorem fits_new (first : LockConfig) : Fits first [] { config := first } := ⟨⟨rfl, rfl⟩, rfl, rfl⟩

/-- A use leaves what it has to leave. -/
theorem Course.fits (course : Course l entry) (fits : Fits first past l) :
    Fits first (past ++ [entry]) entry.left := by
  obtain ⟨current, state, -⟩ := fits
  refine ⟨?_, ?_, latest_append.symm⟩
  · cases course with
    | renewed config _ named => exact .renewed (named.trans current.1) rfl
    | released _ _ | unreleased _ _ | unlockedIdle _ | lost _ _ _ | unrenewed _ _ _ _ | refused _ _ _ _
    | extendedReleased _ _ _ | extendedLost _ _ _ => exact current.append rfl
  · rw [fate_append, ← state]
    cases course with
    | released _ held | unreleased _ held | renewed _ held _ | lost _ held _ | unrenewed _ _ held _
    | refused _ _ held _ => simp [held, fate, Entry.left, Entry.releases, Entry.loses]
    | unlockedIdle idle => simp [idle, Entry.left]
    | extendedReleased _ _ released => simp [released, Entry.left]
    | extendedLost _ _ lost => simp [lost, Entry.left]

/-- Whichever way a use goes, it is as it has to be. -/
theorem Course.lawful (course : Course l entry) (fits : Fits first past l) : LawfulUse first past entry := by
  have after := course.fits fits
  obtain ⟨current, state, newest⟩ := fits
  constructor
  · intro called
    rw [← fate_eq_held_iff, ← state]
    cases course with
    | released _ held | unreleased _ held | renewed _ held _ | lost _ held _ | unrenewed _ _ held _ => exact held
    | unlockedIdle | refused | extendedReleased | extendedLost => exact absurd rfl called
  · rintro held calls answer left rfl
    rw [← state] at held
    cases course with
    | released applied => exact ⟨l.config, .ok applied, current, rfl, rfl⟩
    | unreleased fault => exact ⟨l.config, .error fault, current, rfl, rfl⟩
    | unlockedIdle idle => exact absurd held idle
  · rintro held atMost atLeast calls answer left rfl suits
    rw [← state] at held
    cases course with
    | renewed config _ named => exact ⟨config, .ok true, named.trans current.1, rfl, rfl, rfl, rfl⟩
    | lost config _ named => exact ⟨config, .ok false, named.trans current.1, rfl, rfl, rfl, rfl⟩
    | unrenewed config fault _ named => exact ⟨config, .error fault, named.trans current.1, rfl, rfl, rfl, rfl⟩
    | refused _ _ _ long => exact absurd suits long
    | extendedReleased _ _ other | extendedLost _ _ other => exact absurd (other.symm.trans held) (by simp)
  · rintro held atMost atLeast calls answer left rfl long
    rw [← state] at held
    cases course with
    | renewed config | lost config | unrenewed config => exact absurd config.atLeast_le_atMost long
    | refused => exact ⟨rfl, by rw [current.1]⟩
    | extendedReleased _ _ other | extendedLost _ _ other => exact absurd (other.symm.trans held) (by simp)
  · rintro ended calls answer left rfl
    rw [← state] at ended
    cases course with
    | released _ held | unreleased _ held => exact absurd held ended
    | unlockedIdle => rfl
  · rintro released atMost atLeast calls answer left rfl
    rw [← state] at released
    cases course with
    | extendedReleased => rw [current.1]
    | renewed _ other _ | lost _ other _ | unrenewed _ _ other _ | refused _ _ other _ | extendedLost _ _ other =>
      exact absurd (other.symm.trans released) (by simp)
  · rintro lost atMost atLeast calls answer left rfl
    rw [← state] at lost
    cases course with
    | extendedLost => rfl
    | renewed _ other _ | lost _ other _ | unrenewed _ _ other _ | refused _ _ other _ | extendedReleased _ _ other =>
      exact absurd (other.symm.trans lost) (by simp)
  · exact after.current
  · exact after.state
  · intro fails
    rw [← newest]
    cases course with
    | unreleased | unrenewed | refused | extendedReleased => rfl
    | released | unlockedIdle | renewed | lost | extendedLost => cases fails

/-- Every use of a history is as it has to be, and the handle that is left is what the uses make of it. -/
theorem history_lawful (accessor : Accessor σ) (uses : List Use) (stage : Stage σ) (fits : Fits first past l) :
    (∀ before entry after, (history accessor uses l stage).1 = before ++ entry :: after →
      LawfulUse first (past ++ before) entry) ∧
      Fits first (past ++ (history accessor uses l stage).1) (history accessor uses l stage).2.1 := by
  induction uses generalizing past l stage with
  | nil =>
    refine ⟨?_, by simpa [history] using fits⟩
    intro before entry after split
    simp [history] at split
  | cons u rest ih =>
    have course := course_of_use accessor stage (l := l) u
    obtain ⟨later, left⟩ := ih (l.use accessor u stage).2 (course.fits fits)
    rw [List.append_assoc] at left
    refine ⟨?_, left⟩
    intro before entry after split
    cases before with
    | nil =>
      obtain ⟨rfl, -⟩ := List.cons.inj split
      rw [List.append_nil]
      exact course.lawful fits
    | cons head others =>
      obtain ⟨rfl, others_split⟩ := List.cons.inj split
      rw [List.append_cons]
      exact later others entry after others_split

end

end Lease

/-- Whatever an accessor answers, and however a handle is used until it is dropped: the accessor is called only
while the handle is held, once for each use and once for the drop, always with the configuration that the lock is
held with; what fails changes nothing, and what is over stays over. -/
theorem handle_life {σ : Type} (accessor : Accessor σ) (config : LockConfig) (uses : List Lease.Use)
    (stage : Stage σ) :
    let life := Lease.life accessor uses { config } stage
    Lease.LawfulLife config life.1 life.2 := by
  obtain ⟨each, fits⟩ := Lease.history_lawful accessor uses stage (Lease.fits_new config)
  rw [List.nil_append] at fits
  constructor
  · exact each
  · intro held
    exact ⟨_, _, fits.current, (Lease.calls_of_drop accessor _).trans (if_pos (fits.state.trans held))⟩
  · intro ended
    exact (Lease.calls_of_drop accessor _).trans (if_neg (fits.state.trans_ne ended))

/-- An extension fails and is tried again, a release fails, and the drop makes up for it. -/
example :
    let longer : LockConfig := { LockConfig.nightly with atMost := .ofSeconds 90, atLeast_le_atMost := by decide }
    let answers := [.error .unavailable, .ok true, .error .unavailable, .ok true]
    let extend : Lease.Use := .extend (.ofSeconds 90) (.ofSeconds 5)
    let life := Lease.life (.scripted .insertThenUpdate) [extend, extend, .unlock] { config := .nightly }
      { store := answers }
    life.1.map Lease.Entry.calls =
        [[⟨.extend, longer, .error .unavailable⟩], [⟨.extend, longer, .ok true⟩],
          [⟨.unlock, longer, .error .unavailable⟩]] ∧
      life.2 = [⟨.unlock, longer, .ok true⟩] := by
  decide +kernel

end TaskLease

import TaskLease.Proofs.Provider.Desk
import TaskLease.Proofs.Provider.MinimumHold

/-!
# What a lock that is kept alive asks of the handle inside

A keep-alive layer goes around a handle of any kind, which it extends when its timer rings and releases when it is
released itself. `InnerHandle` is all that it knows of that handle: how it answers. The timer may ring at any time,
before and after a release, and the handle inside may answer as it likes. `Layered` says that the layer of a real handle
is this one.

`LawfulTurn` says exactly what a turn asks of the handle inside, given the turns before: as long as they have all been
renewals that were granted, a ring before the deadline is one more renewal; any other ring asks for nothing. `Fits` is
the invariant that ties the state of the renewals to the turns before, and `Disciplined` what follows for the whole
sequence of calls.
-/

namespace TaskLease

/-- How the handle inside a keep-alive layer answers. -/
structure InnerHandle (σ : Type) where
  extend : Duration → Duration → σ → Except LockError Bool × σ
  unlock : σ → Except LockError Unit × σ

namespace InnerHandle

variable {σ : Type}

/-- The timer of the layer rings. -/
def ring (inner : InnerHandle σ) (due now : Duration) (r : Renewal) (s : σ) : Renewal × σ :=
  match r.tick due now with
  | (.nothing, r) | (.giveUp, r) => (r, s)
  | (.extend atLeast, r) =>
    let reply := inner.extend r.config.atMost atLeast s
    (r.answered reply.1, reply.2)

/-- The layer is released. -/
def release (inner : InnerHandle σ) (r : Renewal) (s : σ) : Except LockError Unit × Renewal × σ :=
  let reply := inner.unlock s
  (reply.1, r.stop, reply.2)

/-- A handle as the layer around it sees it, with its provider and all that both act on. -/
def ofHandle (accessor : Accessor σ) : InnerHandle (Handle × Provider × Stage σ) where
  extend atMost atLeast s :=
    let reply := s.1.extend accessor atMost atLeast s.2.1 s.2.2
    (reply.1.1, reply.1.2.1, reply.1.2.2, reply.2)
  unlock s :=
    let reply := s.1.unlock accessor s.2.1 s.2.2
    (reply.1.1, reply.1.2.1, reply.1.2.2, reply.2)

/-- A call of the handle inside, and how it was answered. -/
inductive Call where
  | extend (atMost atLeast : Duration) (answer : Except LockError Bool)
  | unlock (answer : Except LockError Unit)
deriving DecidableEq

/-- The same handle, with the calls so far beside its state, the first one first. -/
def recording (inner : InnerHandle σ) : InnerHandle (σ × List Call) where
  extend atMost atLeast s :=
    let reply := inner.extend atMost atLeast s.1
    (reply.1, reply.2, s.2 ++ [.extend atMost atLeast reply.1])
  unlock s :=
    let reply := inner.unlock s.1
    (reply.1, reply.2, s.2 ++ [.unlock reply.1])

/-- What happens to a lock that is kept alive. -/
inductive Turn where
  /-- The timer rings at `now`, having been due at `due`. -/
  | ring (due now : Duration)
  | release
deriving DecidableEq, Repr

/-- When the timer rings in a turn; a release has no such time. -/
def Turn.ringing? : Turn → Option Duration
  | .ring _ now => some now
  | .release => none

/-- What came of a turn: the calls that it made, and the answer to a release. -/
inductive Entry where
  | rang (now : Duration) (calls : List Call)
  | released (calls : List Call) (answer : Except LockError Unit)
deriving DecidableEq

namespace Entry

/-- The calls that a turn made. -/
def calls : Entry → List Call
  | .rang _ calls => calls
  | .released calls _ => calls

/-- When the timer rang in a turn. -/
def ringing? : Entry → Option Duration
  | .rang now _ => some now
  | .released _ _ => none

/-- Whether a turn was a renewal that was granted. -/
def Renews (entry : Entry) : Prop := ∃ now atMost atLeast, entry = .rang now [.extend atMost atLeast (.ok true)]

/-- When a turn asked for an extension, if it did. -/
def extendedAt? : Entry → Option Duration
  | .rang now calls => if calls.isEmpty then none else some now
  | .released _ _ => none

end Entry

/-- One turn. -/
def turn (inner : InnerHandle σ) (r : Renewal) (s : σ) : Turn → Entry × Renewal × σ
  | .ring due now =>
    let last := inner.recording.ring due now r (s, [])
    (.rang now last.2.2, last.1, last.2.1)
  | .release =>
    let last := inner.recording.release r (s, [])
    (.released last.2.2.2 last.1, last.2.1, last.2.2.1)

/-- What comes of some turns, one after the other. -/
def history (inner : InnerHandle σ) : List Turn → Renewal → σ → List Entry
  | [], _, _ => []
  | t :: rest, r, s =>
    let next := inner.turn r s t
    next.1 :: history inner rest next.2.1 next.2.2

/-- The calls of some turns, the first one first. -/
def calls (entries : List Entry) : List Call := entries.flatMap Entry.calls

/-- When the lock was last extended, or else acquired. -/
def lastBegun (acquired : Duration) (past : List Entry) : Duration :=
  (past.filterMap Entry.extendedAt?).getLast?.getD acquired

/-- Until when the layer takes the lock to be held: for the maximum time from when it last began, or for thirty years
where the timer has no such reading. -/
def deadline (config : LockConfig) (acquired : Duration) (past : List Entry) : Duration :=
  let begun := lastBegun acquired past
  if begun + config.atMost < .ofSeconds 0x7FFFFFFFFFFFFFFF then begun + config.atMost
  else begun + .ofSeconds (30 * 365 * 86400)

/-- The extension that the layer asks for as its `j`-th one. -/
def extension (config : LockConfig) (j : Nat) (answer : Except LockError Bool) : Call :=
  .extend config.atMost (config.atLeast - Renewal.spent config j) answer

/-- What a turn asks of the handle inside, after some others. -/
structure LawfulTurn (config : LockConfig) (acquired : Duration) (past : List Entry) (entry : Entry) : Prop where
  /-- As long as all turns have been renewals that were granted, a ring in time is one more. -/
  renewal : (∀ e ∈ past, e.Renews) → ∀ now calls, entry = .rang now calls →
    ¬ deadline config acquired past < now → ∃ answer, calls = [extension config (past.length + 1) answer]
  /-- A ring behind the deadline asks for nothing. -/
  late : ∀ now calls, entry = .rang now calls → deadline config acquired past < now → calls = []
  /-- Neither does a ring after any other turn. -/
  ended : ¬ (∀ e ∈ past, e.Renews) → ∀ now calls, entry = .rang now calls → calls = []
  /-- A release is handed on, whatever has happened, and so is its answer. -/
  release : ∀ calls answer, entry = .released calls answer → calls = [.unlock answer]

/-- What comes of the turns of a lock that is kept alive, which was acquired at a reading of the timer. -/
structure Disciplined (config : LockConfig) (acquired : Duration) (turns : List Turn) (entries : List Entry) :
    Prop where
  /-- Every turn is answered. -/
  turns_eq : entries.map Entry.ringing? = turns.map Turn.ringing?
  /-- Whatever comes before an extension is an extension that was granted: nothing is extended after a release, or after
  an extension that was refused or failed. The `j`-th extension is for the whole maximum time, and takes `j` periods off
  the minimum time. -/
  extensions : ∀ before atMost atLeast answer after,
    calls entries = before ++ .extend atMost atLeast answer :: after →
      (∀ c ∈ before, ∃ m l, c = .extend m l (.ok true)) ∧
        .extend atMost atLeast answer = extension config (before.length + 1) answer
  /-- There is no handle that would refuse such durations. -/
  accepted : ∀ atMost atLeast answer, .extend atMost atLeast answer ∈ calls entries → atLeast ≤ atMost ∧
    ∀ held : LockConfig, ∃ extended, held.withDurations atMost atLeast = .ok extended
  /-- A ring behind the deadline extends nothing, and no later one does. -/
  late : ∀ before now called after, entries = before ++ .rang now called :: after →
    deadline config acquired before < now → called = [] ∧ ∀ m l a, .extend m l a ∉ calls after
  /-- A ring in time extends the lock, as long as all turns have been renewals that were granted. -/
  in_time : ∀ before now called after, entries = before ++ .rang now called :: after →
    (∀ e ∈ before, e.Renews) → ¬ deadline config acquired before < now →
      ∃ answer, called = [extension config (before.length + 1) answer]
  /-- Every release is handed on, and so is its answer. -/
  releases : ∀ called answer, .released called answer ∈ entries → called = [.unlock answer]

/-- What a keep-alive layer does to the handle that it goes around is what it does to any handle. -/
structure Layered (accessor : Accessor σ) : Prop where
  /-- A ring leaves the renewals, the handle inside, its provider and the store as it would those of any handle. -/
  renew : ∀ due now r h p stage,
    let reply := Handle.renew accessor due now r h p stage
    let last := (ofHandle accessor).ring due now r (h, p, stage)
    reply.1 = (last.1, last.2.1, last.2.2.1) ∧ reply.2.store = last.2.2.2.store
  /-- A release has the answer of any handle, too. -/
  unlock : ∀ r h p stage,
    let last := (ofHandle accessor).release r (h, Provider.inner p, stage)
    (Handle.keptAlive r h).unlock accessor p stage =
      ((last.1, .keptAlive last.2.1 last.2.2.1, p.around last.2.2.2.1), last.2.2.2.2)

/-! ## The layer of a handle -/

theorem layered (accessor : Accessor σ) : Layered accessor where
  renew due now r h p stage := by
    simp only [Handle.renew, ring]
    rcases r.tick due now with ⟨_ | _ | atLeast, next⟩
    · exact ⟨rfl, rfl⟩
    · exact ⟨rfl, rfl⟩
    · simp only [ofHandle, bind, StateT.bind]
      rcases h.extend accessor next.config.atMost atLeast p stage with ⟨⟨_ | _ | _, h', p'⟩, stage'⟩ <;>
        exact ⟨rfl, rfl⟩
  unlock r h p _ := Handle.unlock_keptAlive r h p

/-! ## One turn -/

/-- The state of the renewals, after some turns. -/
structure Fits (config : LockConfig) (acquired : Duration) (past : List Entry) (r : Renewal) : Prop where
  config_eq : r.config = config
  active : r.active = true ↔ ∀ e ∈ past, e.Renews
  remaining : r.active = true → r.remaining = config.atLeast - Renewal.spent config past.length
  expiry : r.active = true → r.expiry = deadline config acquired past

section

variable {config : LockConfig} {acquired now : Duration} {past : List Entry} {entry : Entry} {r next : Renewal}

/-- The layer's own reckoning comes to the same. -/
theorem deadline_eq (config : LockConfig) (acquired : Duration) (past : List Entry) :
    deadline config acquired past = Timer.deadline (lastBegun acquired past) config.atMost := rfl

theorem fits_start (config : LockConfig) (acquired : Duration) : Fits config acquired [] (.start config acquired) where
  config_eq := rfl
  active := by simp [Renewal.start]
  remaining _ := by
    apply congrArg Duration.mk
    simp [Renewal.spent]
  expiry _ := rfl

theorem forall_renews_append :
    (∀ e ∈ past ++ [entry], e.Renews) ↔ (∀ e ∈ past, e.Renews) ∧ entry.Renews := by
  simp [or_imp, forall_and]

/-- Renewals that have come to an end. -/
theorem fits_of_ended (config_eq : next.config = config) (ended : next.active = false)
    (not_renewal : ¬ (∀ e ∈ past ++ [entry], e.Renews)) : Fits config acquired (past ++ [entry]) next where
  config_eq := config_eq
  active := by
    rw [ended]
    exact iff_of_false Bool.false_ne_true not_renewal
  remaining active := by
    rw [ended] at active
    cases active
  expiry active := by
    rw [ended] at active
    cases active

theorem not_renews_idle : ¬ (Entry.rang now []).Renews := by
  rintro ⟨_, _, _, same⟩
  cases same

/-- A ring for which there is no extension. -/
theorem lawful_idle (idle : (∀ e ∈ past, e.Renews) → deadline config acquired past < now) :
    LawfulTurn config acquired past (.rang now []) where
  renewal := by
    rintro renews _ _ ⟨⟩ in_time
    exact absurd (idle renews) in_time
  late := by
    rintro _ _ ⟨⟩ -
    rfl
  ended := by
    rintro - _ _ ⟨⟩
    rfl
  release _ _ same := by cases same

theorem lastBegun_append (atMost atLeast : Duration) (answer : Except LockError Bool) :
    lastBegun acquired (past ++ [.rang now [.extend atMost atLeast answer]]) = now := by
  simp [lastBegun, Entry.extendedAt?]

/-- What a ring asks for as long as renewals go on and the lock is not expired. -/
theorem turn_in_time (inner : InnerHandle σ) (s : σ) (due : Duration) (active : r.active = true)
    (in_time : ¬ r.expiry < now) :
    let reply := inner.extend r.config.atMost (r.remaining - r.period) s
    inner.turn r s (.ring due now) =
      (.rang now [.extend r.config.atMost (r.remaining - r.period) reply.1],
        (r.tick due now).2.answered reply.1, reply.2) := by
  simp only [turn, ring, tick_in_time due active in_time]
  rfl

theorem turn_idle (inner : InnerHandle σ) (s : σ) (due : Duration) (idle : r.active = true → r.expiry < now) :
    inner.turn r s (.ring due now) = (.rang now [], r.stop, s) := by
  cases active : r.active with
  | false => simp [turn, ring, Renewal.tick, active]
  | true => simp [turn, ring, Renewal.tick, active, idle active]

/-- Every turn is as it has to be, and leaves the renewals as they have to be. -/
theorem Fits.turn (fits : Fits config acquired past r) (inner : InnerHandle σ) (s : σ) (t : Turn) :
    LawfulTurn config acquired past (inner.turn r s t).1 ∧
      Fits config acquired (past ++ [(inner.turn r s t).1]) (inner.turn r s t).2.1 := by
  cases t with
  | release =>
    constructor
    · constructor
      · intro _ _ _ same
        cases same
      · intro _ _ same
        cases same
      · intro _ _ _ same
        cases same
      · rintro _ _ ⟨⟩
        rfl
    · refine fits_of_ended fits.config_eq rfl fun renews => ?_
      obtain ⟨_, _, _, same⟩ := (forall_renews_append.mp renews).2
      cases same
  | ring due now =>
    by_cases idle : r.active = true → r.expiry < now
    · rw [turn_idle inner s due idle]
      constructor
      · refine lawful_idle fun renews => ?_
        have active := fits.active.mpr renews
        rw [← fits.expiry active]
        exact idle active
      · exact fits_of_ended fits.config_eq rfl fun renews => not_renews_idle (forall_renews_append.mp renews).2
    · obtain ⟨active, in_time⟩ := Classical.not_imp.mp idle
      have renewed := fits.active.mp active
      rw [turn_in_time inner s due active in_time, tick_in_time due active in_time, fits.config_eq]
      have asked : r.remaining - r.period = config.atLeast - Renewal.spent config (past.length + 1) := by
        rw [fits.remaining active, Renewal.period, fits.config_eq, Renewal.sub_spent_succ]
      rw [asked]
      generalize inner.extend config.atMost (config.atLeast - Renewal.spent config (past.length + 1)) s = reply
      constructor
      · constructor
        · rintro - _ _ ⟨⟩ -
          exact ⟨_, rfl⟩
        · rintro _ _ ⟨⟩ late
          rw [← fits.expiry active] at late
          exact absurd late in_time
        · intro ended
          exact absurd renewed ended
        · intro _ _ same
          cases same
      · have granted_only (refused : reply.1 ≠ .ok true) :
            ¬ (∀ e ∈ past ++ [Entry.rang now [.extend config.atMost
              (config.atLeast - Renewal.spent config (past.length + 1)) reply.1]], e.Renews) := by
          intro renews
          obtain ⟨_, _, _, same⟩ := (forall_renews_append.mp renews).2
          exact refused (by injections)
        rcases reply with ⟨_ | _ | _, s'⟩
        · exact fits_of_ended rfl rfl (granted_only (by simp))
        · exact fits_of_ended rfl rfl (granted_only (by simp))
        · constructor
          · rfl
          · exact iff_of_true active (forall_renews_append.mpr ⟨renewed, _, _, _, rfl⟩)
          · intro _
            rw [List.length_append]
            rfl
          · intro _
            rw [deadline_eq, lastBegun_append]
            rfl

end

/-! ## All turns -/

/-- Every turn asks of the handle inside what it has to ask, given the turns before. -/
def Lawful (config : LockConfig) (acquired : Duration) (entries : List Entry) : Prop :=
  ∀ before entry after, entries = before ++ entry :: after → LawfulTurn config acquired before entry

section

variable {config : LockConfig} {acquired : Duration} {past entries : List Entry} {entry : Entry} {r : Renewal}
  {atMost atLeast : Duration} {answer : Except LockError Bool}

theorem history_turns (inner : InnerHandle σ) (turns : List Turn) (r : Renewal) (s : σ) :
    (inner.history turns r s).map Entry.ringing? = turns.map Turn.ringing? := by
  induction turns generalizing r s with
  | nil => rfl
  | cons t rest ih =>
    have first : (inner.turn r s t).1.ringing? = t.ringing? := by cases t <;> rfl
    rw [history, List.map_cons, List.map_cons, first, ih]

/-- The state of the renewals fits before every turn, so all turns are as they have to be. -/
theorem history_lawful (inner : InnerHandle σ) (turns : List Turn) (s : σ) (fits : Fits config acquired past r) :
    ∀ before entry after, inner.history turns r s = before ++ entry :: after →
      LawfulTurn config acquired (past ++ before) entry := by
  induction turns generalizing past r s with
  | nil =>
    intro before entry after split
    simp [history] at split
  | cons t rest ih =>
    obtain ⟨first, fits⟩ := fits.turn inner s t
    intro before entry after split
    cases before with
    | nil =>
      obtain ⟨rfl, -⟩ := List.cons.inj split
      rw [List.append_nil]
      exact first
    | cons head others =>
      obtain ⟨rfl, others_split⟩ := List.cons.inj split
      rw [List.append_cons]
      exact ih (inner.turn r s t).2.2 fits others entry after others_split

/-- Only a ring in time extends the lock, and only as long as all turns have been renewals that were granted. -/
theorem LawfulTurn.of_extend (lawful : LawfulTurn config acquired past entry)
    (asked : .extend atMost atLeast answer ∈ entry.calls) :
    (∀ e ∈ past, e.Renews) ∧ entry.calls = [extension config (past.length + 1) answer] ∧
      .extend atMost atLeast answer = extension config (past.length + 1) answer := by
  cases entry with
  | released calls reply =>
    obtain rfl := lawful.release _ _ rfl
    simp [Entry.calls] at asked
  | rang now calls =>
    change _ ∈ calls at asked
    by_cases renewed : ∀ e ∈ past, e.Renews
    · by_cases late : deadline config acquired past < now
      · rw [lawful.late _ _ rfl late] at asked
        cases asked
      · obtain ⟨reply, rfl⟩ := lawful.renewal renewed _ _ rfl late
        obtain same := List.mem_singleton.mp asked
        obtain rfl : answer = reply := by injections
        exact ⟨renewed, rfl, same⟩
    · rw [lawful.ended renewed _ _ rfl] at asked
      cases asked

/-- A call comes from some turn. -/
theorem exists_turn {earlier later : List Call} {c : Call} (split : calls entries = earlier ++ c :: later) :
    ∃ before entry after left right, entries = before ++ entry :: after ∧ entry.calls = left ++ c :: right ∧
      earlier = calls before ++ left := by
  induction entries generalizing earlier with
  | nil => simp [calls] at split
  | cons head rest ih =>
    have split : head.calls ++ calls rest = earlier ++ c :: later := split
    obtain ⟨more, rfl, rest_split⟩ | ⟨more, head_split, at_call⟩ := List.append_eq_append_iff.mp split
    · obtain ⟨before, entry, after, left, right, rfl, entry_split, rfl⟩ := ih rest_split
      exact ⟨head :: before, entry, after, left, right, rfl, entry_split, (List.append_assoc ..).symm⟩
    · cases more with
      | nil =>
        obtain ⟨before, entry, after, left, right, rfl, entry_split, none_before⟩ :=
          ih (show calls rest = [] ++ _ :: _ from at_call.symm)
        refine ⟨head :: before, entry, after, left, right, rfl, entry_split, ?_⟩
        rw [List.append_nil] at head_split
        simpa [calls, head_split] using none_before
      | cons call right =>
        obtain ⟨rfl, -⟩ := List.cons.inj at_call
        exact ⟨[], head, rest, earlier, right, rfl, head_split, rfl⟩

/-- Renewals that were granted are one extension each. -/
theorem calls_of_renews (past : List Entry) (renews : ∀ e ∈ past, e.Renews) :
    (calls past).length = past.length ∧ ∀ c ∈ calls past, ∃ m l, c = .extend m l (.ok true) := by
  induction past with
  | nil => exact ⟨rfl, nofun⟩
  | cons head rest ih =>
    obtain ⟨⟨now, m, l, rfl⟩, rest_renews⟩ := List.forall_mem_cons.mp renews
    obtain ⟨same_length, granted⟩ := ih rest_renews
    exact ⟨congrArg (· + 1) same_length, List.forall_mem_cons.mpr ⟨⟨m, l, rfl⟩, granted⟩⟩

/-- What comes before an extension, and what it is. -/
theorem Lawful.of_extend {earlier later : List Call} (lawful : Lawful config acquired entries)
    (split : calls entries = earlier ++ .extend atMost atLeast answer :: later) :
    (∀ c ∈ earlier, ∃ m l, c = .extend m l (.ok true)) ∧
      .extend atMost atLeast answer = extension config (earlier.length + 1) answer := by
  obtain ⟨before, entry, after, left, right, rfl, entry_split, rfl⟩ := exists_turn split
  have asked : .extend atMost atLeast answer ∈ entry.calls := by simp [entry_split]
  obtain ⟨renews, alone, same⟩ := (lawful before entry after rfl).of_extend asked
  obtain ⟨same_length, granted⟩ := calls_of_renews before renews
  -- The turn has made no other call, so nothing stands between the turns before and the extension.
  obtain rfl : left = [] := by
    rw [alone] at entry_split
    cases left with
    | nil => rfl
    | cons => simp at entry_split
  rw [List.append_nil, same_length]
  exact ⟨granted, same⟩

theorem Lawful.disciplined {turns : List Turn} (lawful : Lawful config acquired entries)
    (turns_eq : entries.map Entry.ringing? = turns.map Turn.ringing?) :
    Disciplined config acquired turns entries := by
  constructor
  · exact turns_eq
  · intro before atMost atLeast answer after split
    exact lawful.of_extend split
  · intro atMost atLeast answer asked
    obtain ⟨before, after, split⟩ := List.append_of_mem asked
    obtain ⟨rfl, rfl, -⟩ := Call.extend.inj (lawful.of_extend split).2
    have accepted : config.atLeast - Renewal.spent config (before.length + 1) ≤ config.atMost :=
      Nat.le_trans (Nat.sub_le ..) config.atLeast_le_atMost
    exact ⟨accepted, fun held => ⟨⟨held.name, _, _, held.name_ne_empty, held.name_length_le, accepted⟩,
      LockConfig.withDurations_eq_ok_iff.mpr ⟨rfl, rfl, rfl⟩⟩⟩
  · intro before now called after split late
    obtain rfl := (lawful before _ after split).late _ _ rfl late
    refine ⟨rfl, fun m l a asked => ?_⟩
    obtain ⟨earlier, later, calls_split⟩ := List.append_of_mem asked
    obtain ⟨between, entry, rest, left, right, rfl, entry_split, -⟩ := exists_turn calls_split
    have asked : .extend m l a ∈ entry.calls := by simp [entry_split]
    have renews := ((lawful (before ++ .rang now [] :: between) entry rest (by simp [split])).of_extend asked).1
    exact not_renews_idle (renews (.rang now []) (by simp))
  · intro before now called after split renews in_time
    exact (lawful before _ after split).renewal renews _ _ rfl in_time
  · intro called answer released
    obtain ⟨before, after, split⟩ := List.append_of_mem released
    exact (lawful before _ after split).release _ _ rfl

end

end InnerHandle

/-- Whatever the handle inside answers, and whenever the timer rings and the lock is released: the handle inside is
asked for extensions first and for releases after them. -/
theorem renewal_calls_disciplined {σ : Type} (config : LockConfig) (acquired : Duration)
    (turns : List InnerHandle.Turn) :
    (∀ (inner : InnerHandle σ) (s : σ),
      InnerHandle.Disciplined config acquired turns (inner.history turns (.start config acquired) s)) ∧
      ∀ accessor : Accessor σ, InnerHandle.Layered accessor := by
  refine ⟨fun inner s => ?_, InnerHandle.layered⟩
  have lawful := InnerHandle.history_lawful inner turns s (InnerHandle.fits_start config acquired)
  exact InnerHandle.Lawful.disciplined lawful (InnerHandle.history_turns ..)

/-- Of a minimum of forty seconds, ten are left after half a minute and none after a minute. -/
example :
    let granting : InnerHandle Unit := ⟨fun _ _ s => (.ok true, s), fun s => (.ok (), s)⟩
    let config : LockConfig :=
      ⟨"backup", .ofSeconds 60, .ofSeconds 40, by decide, by decide, by decide⟩
    let turns : List InnerHandle.Turn :=
      [.ring (.ofSeconds 30) (.ofSeconds 30), .ring (.ofSeconds 60) (.ofSeconds 60), .release,
        .ring (.ofSeconds 90) (.ofSeconds 90)]
    InnerHandle.calls (granting.history turns (.start config .zero) ()) =
      [.extend (.ofSeconds 60) (.ofSeconds 10) (.ok true), .extend (.ofSeconds 60) .zero (.ok true),
        .unlock (.ok ())] := by
  decide

end TaskLease
